import UpiOfflineMesh.ApiRoutes
import UpiOfflineMesh.ClaimAccounting
import UpiOfflineMesh.GossipSpread

/-!
# Requests that do nothing

A response with an error status, one that only drops duplicates, and a round without a
transfer all say that nothing was done. That is true of mesh, cache and database together,
so such requests can be left out of any run, and nobody else is answered differently.
-/

namespace UpiOfflineMesh

open Js Mesh

/-- The response says that nothing was done: an error status, no transfer, or nothing but
dropped duplicates. -/
def AppResponse.idle : AppResponse → Bool
  | .send (.sent _ _ _ _) => false
  | .send (.badRequest _) => true
  | .send (.failed _) => true
  | .gossip result => result.transfers = 0
  | .flush response => response.results.all fun r => r.outcome = .duplicateDropped
  | .ingest (.badRequest _) => true
  | .ingest (.result result) => result.outcome = .duplicateDropped
  | .empty => false

section

variable {api : Api} {state : AppState} {mesh : Mesh} {backend : Backend} {server : Server}

/-- Shares do nothing or are counted. -/
theorem shareAll_eq_or_lt (round : GossipRound) (encounters : List (MeshPacket × VirtualDevice)) :
    shareAll round encounters = round ∨
      round.transfers < (shareAll round encounters).transfers := by
  induction encounters generalizing round with
  | nil => exact Or.inl rfl
  | cons e encounters ih =>
    have hcons : shareAll round (e :: encounters) = shareAll (round.share e.1 e.2) encounters := rfl
    rw [hcons]
    rcases heldPairs_share round e.1 e.2 with hsame | ⟨hcounted, -, -⟩
    · rw [hsame]
      exact ih round
    · right
      rcases ih (round.share e.1 e.2) with hrest | hrest
      · rw [hrest]
        omega
      · omega

/-- A round without a transfer leaves the mesh as it is. -/
theorem gossipOnce_of_no_transfer (h : mesh.gossipOnce.1.transfers = 0) :
    mesh.gossipOnce.2 = mesh := by
  rw [gossipOnce_eq] at h ⊢
  rcases shareAll_eq_or_lt ⟨0, mesh⟩ mesh.encounters with hsame | hcounted
  · rw [hsame]
  · exact absurd h hcounted.ne'

/-- A request to send that is not answered with a packet leaves the mesh as it is. -/
theorem demoSend_of_idle {body : Value} {draw : Draw}
    (h : (AppResponse.send (api.demoSend mesh body draw).1).idle = true) :
    (api.demoSend mesh body draw).2 = mesh := by
  unfold Api.demoSend at h ⊢
  generalize api.prepareSend body draw = prepared at h ⊢
  cases prepared with
  | error response => rfl
  | ok prepared =>
    obtain ⟨deviceName, packet⟩ := prepared
    simp only at h ⊢
    generalize injectAt api.platform mesh deviceName packet = injected at h ⊢
    cases injected with
    | error err => rfl
    | ok mesh => cases h

/-- A duplicate leaves the server as it is. -/
theorem ingest_of_duplicate {packet : MeshPacket} {bridgeNodeId : String} {hopCount : Number}
    {clock : Clock} (h : (backend.ingest server packet bridgeNodeId hopCount clock).1.outcome =
      .duplicateDropped) :
    (backend.ingest server packet bridgeNodeId hopCount clock).2 = server := by
  rw [Backend.ingest_of_seen (outcome_eq_duplicate_iff.mp h)]

/-- So does a flush of duplicates. -/
theorem ingestUploads_of_duplicates {entries : List (Upload × Clock)}
    (h : (ingestUploads backend server entries).1.all (fun r => r.outcome = .duplicateDropped) =
      true) : (ingestUploads backend server entries).2 = server := by
  induction entries generalizing server with
  | nil => rfl
  | cons entry entries ih =>
    obtain ⟨up, clock⟩ := entry
    simp only [ingestUploads, List.all_cons, Bool.and_eq_true, decide_eq_true_eq,
      FlushResult.of] at h ⊢
    rw [ih h.2, ingest_of_duplicate h.1]

/-- What a response calls idle has changed nothing. -/
theorem next_of_idle (state : AppState) (event : AppEvent)
    (h : (api.machine.transition state event).output.idle = true) :
    api.machine.next state event = state := by
  cases event with
  | demoSend body draw =>
    have hmesh : (api.demoSend state.mesh body draw).2 = state.mesh := demoSend_of_idle h
    change { state with mesh := (api.demoSend state.mesh body draw).2 } = state
    rw [hmesh]
  | meshGossip =>
    have hmesh : state.mesh.gossipOnce.2 = state.mesh :=
      gossipOnce_of_no_transfer (of_decide_eq_true h)
    change { state with mesh := state.mesh.gossipOnce.2 } = state
    rw [hmesh]
  | meshFlush clocks =>
    have hserver := ingestUploads_of_duplicates h
    change { state with server := (ingestUploads api.backend state.server
      (clockedUploads state.mesh clocks)).2 } = state
    exact congrArg (AppState.mk state.mesh) hserver
  | meshReset => cases h
  | evictExpired now => cases h
  | bridgeIngest body bridgeHeader hopHeader clock =>
    change (AppResponse.ingest
      (bridgeIngest api.backend state.server body bridgeHeader hopHeader clock).1).idle = true
      at h
    change { state with server :=
      (bridgeIngest api.backend state.server body bridgeHeader hopHeader clock).2 } = state
    unfold bridgeIngest at h ⊢
    cases hvalid : MeshPacket.validate body with
    | error err => rfl
    | ok packet =>
      rw [hvalid] at h
      have hserver := ingest_of_duplicate (of_decide_eq_true h)
      exact congrArg (AppState.mk state.mesh) hserver

end

/-- **What says that it did nothing did nothing.** From every state, leave out of a run all
requests whose response was an error, a round without a transfer or nothing but dropped
duplicates: the other requests are answered in the same way, from the same states, and the
run ends in the same state of mesh, cache and database. -/
theorem idle_requests (api : Api) (state : AppState) (events : List AppEvent) :
    api.machine.transitions state
        (api.machine.busy (fun t => t.output.idle) state events) =
      (api.machine.transitions state events).filter (fun t => !t.output.idle) ∧
    api.machine.final state (api.machine.busy (fun t => t.output.idle) state events) =
      api.machine.final state events :=
  Machine.transitions_busy next_of_idle state events

end UpiOfflineMesh
