import UpiOfflineMesh.UploadPaths

/-!
# Flushing is posting

The flush of the simulator stands for the phones that would post what they hold. In a run
whose packets are sent with a whole number of hops that is not negative, every flush can be
replaced by the posts of its uploads, with bridge and hop count in the headers: the states
are the same, and so is all that the responses tell about the deliveries.
-/

namespace UpiOfflineMesh

open Js Mesh

/-- The hop count as the text of a header. -/
def Upload.hopHeader (up : Upload) : String :=
  match up.hopCount with
  | .fin q => toString q.num
  | _ => ""

/-- The request with which a phone would post an upload. -/
def Upload.post (up : Upload) (clock : Clock) : AppEvent :=
  .bridgeIngest up.packet.record (some up.bridgeNodeId) (some up.hopHeader) clock

/-- The same requests with the posts of its uploads in the place of a flush. -/
def AppState.posted (state : AppState) : AppEvent → List AppEvent
  | .meshFlush clocks => (clockedUploads state.mesh clocks).map fun entry => entry.1.post entry.2
  | event => [event]

/-- What a client is told about a delivery. -/
structure Told where
  outcome : Outcome
  reason : String
  transactionId : ℤ

/-- What a response tells about its deliveries, a flush with the defaults of its entries. -/
def AppResponse.told : AppResponse → List Told
  | .flush response => response.results.map fun r => ⟨r.outcome, r.reason, r.transactionId⟩
  | .ingest (.result result) => [⟨result.outcome, (result.reason.map Reason.text).getD "",
      (result.transactionId.map Int.ofNat).getD (-1)⟩]
  | .ingest (.badRequest reason) => [⟨.invalid, reason, -1⟩]
  | _ => []

/-- A request to send that makes a packet asks for a whole number of hops, not a negative one. -/
def Api.AsksForHops (api : Api) (event : AppEvent) : Prop :=
  ∀ body draw deviceName packet, event = .demoSend body draw →
    api.prepareSend body draw = .ok (deviceName, packet) →
      ∃ T : ℕ, api.requestedHops body = .ok (.fin (T : ℚ))

section

variable {api : Api} {server : Server} {events : List AppEvent} {up : Upload}

/-- Every upload of such a run has a whole TTL and passes the check. -/
theorem Upload.pathsAgree_of_asksForHops (hevents : ∀ event ∈ events, api.AsksForHops event)
    (hup : up ∈ (api.machine.final ⟨defaultMesh, server⟩ events).mesh.collectBridgeUploads) :
    up.PathsAgree api ∧ ∃ k : ℤ, up.packet.ttl = .fin (k : ℚ) := by
  obtain ⟨trail, body, draw, h⟩ := Upload.exists_comesFrom hup
  obtain ⟨T, hhops⟩ := hevents _ h.requested body draw _ _ rfl h.prepared
  have hhops' : api.requestedHops body = .ok (.fin ((T : ℤ) : ℚ)) := by
    rw [hhops]
    push_cast
    rfl
  have httl := (h.ttl_eq hup hhops').2
  refine ⟨?_, _, httl⟩
  rw [Upload.pathsAgree_iff (Upload.bridgeNodeId_ne_empty hup) httl, h.wellFormed_iff hup hhops']
  exact Int.natCast_nonneg T

/-- The header of a whole hop count is read back. -/
theorem Upload.parseInt_hopHeader {k : ℤ} (httl : up.packet.ttl = .fin (k : ℚ)) :
    parseInt up.hopHeader = up.hopCount := by
  have hcount : up.hopCount = .fin ((5 - k : ℤ) : ℚ) := by
    rw [Upload.hopCount, httl, Number.sub_fin]
    push_cast
    rfl
  rw [Upload.hopHeader, hcount]
  change parseInt (toString ((5 - k : ℤ) : ℚ).num) = _
  rw [Rat.num_intCast, parseInt_toString]

/-- Posting uploads one after the other does what flushing them does. -/
theorem final_posts {entries : List (Upload × Clock)}
    (hentries : ∀ entry ∈ entries,
      entry.1.PathsAgree api ∧ ∃ k : ℤ, entry.1.packet.ttl = .fin (k : ℚ)) (state : AppState) :
    api.machine.final state (entries.map fun entry => entry.1.post entry.2) =
        { state with server := (ingestUploads api.backend state.server entries).2 } ∧
      (api.machine.transitions state (entries.map fun entry => entry.1.post entry.2)).flatMap
          (fun t => t.output.told) =
        (ingestUploads api.backend state.server entries).1.map
          fun r => ⟨r.outcome, r.reason, r.transactionId⟩ := by
  induction entries generalizing state with
  | nil => exact ⟨rfl, rfl⟩
  | cons entry entries ih =>
    obtain ⟨up, clock⟩ := entry
    obtain ⟨hagree, k, httl⟩ := hentries (up, clock) (by simp)
    have hpost := hagree.same state.server up.hopHeader clock (up.parseInt_hopHeader httl)
    have hstep : api.machine.step state (up.post clock) =
        (.ingest (.result (api.backend.ingest state.server up.packet up.bridgeNodeId up.hopCount
          clock).1), { state with
            server := (api.backend.ingest state.server up.packet up.bridgeNodeId up.hopCount
              clock).2 }) := by
      simp only [Api.machine, Upload.post, hpost]
    obtain ⟨hfinal, htold⟩ := ih (fun entry hentry => hentries entry (by simp [hentry]))
      (api.machine.next state (up.post clock))
    rw [Machine.next, hstep] at hfinal htold
    constructor
    · rw [List.map_cons, Machine.final_cons, Machine.next, hstep, hfinal]
      rfl
    · rw [List.map_cons, Machine.transitions_cons, List.flatMap_cons, Machine.output_transition,
        Machine.next, hstep, htold]
      rfl

end

/-- **Flushing is posting.** In every run of the application in which all requests to send
ask for a whole number of hops that is not negative, put the posts of its uploads in the
place of each flush: no flush is left, the final state of mesh, cache and database is the
same, and so is what the responses tell about the deliveries, in the same order. -/
theorem flush_is_posting (api : Api) (server : Server) (events : List AppEvent)
    (hhops : ∀ event ∈ events, api.AsksForHops event) :
    (∀ clocks, .meshFlush clocks ∉
      api.machine.trace AppState.posted ⟨defaultMesh, server⟩ events) ∧
    api.machine.final ⟨defaultMesh, server⟩
        (api.machine.trace AppState.posted ⟨defaultMesh, server⟩ events) =
      api.machine.final ⟨defaultMesh, server⟩ events ∧
    (api.machine.transitions ⟨defaultMesh, server⟩
        (api.machine.trace AppState.posted ⟨defaultMesh, server⟩ events)).flatMap
          (fun t => t.output.told) =
      (api.machine.transitions ⟨defaultMesh, server⟩ events).flatMap fun t => t.output.told := by
  constructor
  · intro clocks hflush
    obtain ⟨earlier, event, later, -, hmem⟩ := Machine.mem_trace_iff.mp hflush
    cases event with
    | meshFlush clocks' => simp [AppState.posted, Upload.post] at hmem
    | _ => simp [AppState.posted] at hmem
  · -- The invariant is to be reached by such requests.
    refine Machine.final_expand (I := fun state => ∃ earlier : List AppEvent,
      (∀ event ∈ earlier, api.AsksForHops event) ∧
        state = api.machine.final ⟨defaultMesh, server⟩ earlier) ?_ ?_ ⟨[], by simp, rfl⟩ hhops
    · rintro state event hevent ⟨earlier, hearlier, rfl⟩
      refine ⟨earlier ++ [event], ?_, by rw [Machine.final_append]; rfl⟩
      intro other hother
      rcases List.mem_append.mp hother with hother | hother
      · exact hearlier other hother
      · rw [List.mem_singleton.mp hother]
        exact hevent
    · rintro state event - ⟨earlier, hearlier, rfl⟩
      cases event with
      | meshFlush clocks =>
        exact final_posts (fun entry hentry =>
          Upload.pathsAgree_of_asksForHops hearlier (exists_of_mem_clockedUploads hentry).1) _
      | _ => exact ⟨rfl, List.append_nil _⟩

/-- Alice's packet, gossiped and flushed. -/
theorem flush_is_posting_alice :
    plainApi.machine.final ⟨defaultMesh, seeded⟩
        (plainApi.machine.trace AppState.posted ⟨defaultMesh, seeded⟩
          [.demoSend (aliceSends "phone-alice" 5) aliceDraw, .meshGossip,
            .meshFlush fun _ => ⟨2000, 2000, 2000⟩]) =
      plainApi.machine.final ⟨defaultMesh, seeded⟩
        [.demoSend (aliceSends "phone-alice" 5) aliceDraw, .meshGossip,
          .meshFlush fun _ => ⟨2000, 2000, 2000⟩] := by
  refine (flush_is_posting plainApi seeded _ ?_).2.1
  rintro event hevent body draw deviceName packet rfl -
  simp only [List.mem_cons, AppEvent.demoSend.injEq, reduceCtorEq, List.not_mem_nil, or_false]
    at hevent
  obtain ⟨rfl, -⟩ := hevent
  exact ⟨5, Api.requestedHops_of_prepareSend (prepareSend_aliceSends "phone-alice" (by decide) 5)⟩

end UpiOfflineMesh
