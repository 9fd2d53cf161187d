import UpiOfflineMesh.ClaimAccounting
import UpiOfflineMesh.DemoPayment

/-!
# Exactly once, end to end

A packet that was sent, gossiped and flushed has come to the server, whatever else was
sent meanwhile. From then on the accounts of its claims balance: it is processed once, and
once more for each time that its claim was forgotten before another delivery.
-/

namespace UpiOfflineMesh

open Js Mesh

/-! ### The packet at the bridge -/

/-- No request of these events makes a packet with this id. -/
def Api.Spares (api : Api) (packetId : String) (events : List AppEvent) : Prop :=
  ∀ body draw deviceName packet, .demoSend body draw ∈ events →
    api.prepareSend body draw = .ok (deviceName, packet) → packet.packetId ≠ packetId

section

variable {api : Api} {before between : List AppEvent} {body : Value} {draw : Draw} {home : String}
  {packet : MeshPacket} {events : List AppEvent} {server : Server}

theorem Api.Spares.meshEvents {packetId : String} (h : api.Spares packetId events) :
    ∀ event ∈ events.flatMap api.meshEvents, event.Spares packetId := by
  intro event hevent other hinjected
  cases event with
  | gossip => cases hinjected
  | reset => cases hinjected
  | inject senderDeviceId injected =>
    obtain rfl := Option.some.inj hinjected
    obtain ⟨appEvent, happEvent, hmem⟩ := List.mem_flatMap.mp hevent
    obtain ⟨body, draw, rfl, hprepared⟩ := Api.mem_meshEvents_iff.mp hmem
    exact h body draw _ injected happEvent hprepared

theorem reset_mem_meshEvents (h : .reset ∈ events.flatMap api.meshEvents) :
    .meshReset ∈ events := by
  obtain ⟨event, hevent, hmem⟩ := List.mem_flatMap.mp h
  cases event with
  | meshReset => exact hevent
  | demoSend body draw =>
    simp only [Api.meshEvents, Api.sendEvents] at hmem
    split at hmem <;> simp at hmem
  | meshGossip => simp [Api.meshEvents] at hmem
  | meshFlush clocks => simp [Api.meshEvents] at hmem
  | bridgeIngest body bridgeHeader hopHeader clock => simp [Api.meshEvents] at hmem
  | evictExpired now => simp [Api.meshEvents] at hmem

/-- After a round, and until a reset, the bridge has the packet. -/
theorem held_at_bridge (hsend : api.prepareSend body draw = .ok (.str home, packet))
    (hknown : defaultMesh.has home = true) (hforward : packet.forwardable = true)
    (hbefore : api.Spares packet.packetId before) (hbetween : api.Spares packet.packetId between)
    (hgossip : .meshGossip ∈ between) (hreset : .meshReset ∉ between) :
    ∃ up ∈ (api.machine.final ⟨defaultMesh, server⟩
        (before ++ .demoSend body draw :: between)).mesh.collectBridgeUploads,
      up.packet.ciphertext = packet.ciphertext := by
  have hdefault : "phone-bridge" ∈ defaultMesh.bridges := by decide +kernel
  have hnew : ∀ other ∈ injections (before.flatMap api.meshEvents),
      other.packetId ≠ packet.packetId := by
    intro other hother
    obtain ⟨event, hevent, hinjected⟩ := List.mem_filterMap.mp hother
    exact hbefore.meshEvents event hevent other hinjected
  have hallowed : ∀ event ∈ between.flatMap api.meshEvents,
      event.Spares packet.packetId ∧ event ≠ .reset := by
    intro event hevent
    refine ⟨hbetween.meshEvents event hevent, ?_⟩
    rintro rfl
    exact hreset (reset_mem_meshEvents hevent)
  have hround : .gossip ∈ between.flatMap api.meshEvents :=
    List.mem_flatMap.mpr ⟨.meshGossip, hgossip, List.mem_singleton_self _⟩
  have hmesh : (api.machine.final ⟨defaultMesh, server⟩
      (before ++ .demoSend body draw :: between)).mesh =
        meshMachine.final (meshMachine.next (meshMachine.final defaultMesh
          (before.flatMap api.meshEvents)) (.inject home packet))
          (between.flatMap api.meshEvents) := by
    rw [Api.mesh_final, List.flatMap_append, List.flatMap_cons, Api.meshEvents, hsend,
      Api.sendEvents, Machine.final_append]
    rfl
  have hbridge : "phone-bridge" ∈ (api.machine.final ⟨defaultMesh, server⟩
      (before ++ .demoSend body draw :: between)).mesh.bridges := by
    rw [Api.mesh_final, mem_bridges_final]
    exact hdefault
  have heverywhere := (alone_of_injected defaultMesh_empty hnew hknown).everywhere_final hforward
    hallowed hround
  rw [← hmesh] at heverywhere
  have hheld := heverywhere.2 "phone-bridge" (has_of_mem_bridges hbridge)
  refine ⟨⟨"phone-bridge", if "phone-bridge" = home then packet else packet.copy⟩, ?_, ?_⟩
  · rw [mem_collectBridgeUploads]
    refine ⟨hbridge, ?_⟩
    have hid : (if "phone-bridge" = home then packet else packet.copy).packetId =
        packet.packetId := by
      split
      · rfl
      · rfl
    rw [hid, hheld]
  · split
    · rfl
    · rfl

end

/-! ### The account of the packet -/

/-- How often a delivery of this hash got past the idempotency gate in a run. -/
def Api.processed (api : Api) (hash : String) (events : List AppEvent) : ℕ :=
  (api.backend.machine.transitions seeded (api.serverRun ⟨defaultMesh, seeded⟩ events)).countP
    (processes api.backend hash)

/-- How often the claim of this hash was forgotten in a run. -/
def Api.forgotten (api : Api) (hash : String) (events : List AppEvent) : ℕ :=
  (api.backend.machine.transitions seeded (api.serverRun ⟨defaultMesh, seeded⟩ events)).countP
    (forgets hash)

section

variable {api : Api} {hash : String}

/-- What was processed was forgotten or still stands. -/
theorem processed_eq (api : Api) (hash : String) (events : List AppEvent) :
    api.processed hash events = api.forgotten hash events +
      (api.machine.final ⟨defaultMesh, seeded⟩ events).server.claims hash := by
  have haccount := @claims_add_countP_processes api.backend hash seeded
    (api.serverRun ⟨defaultMesh, seeded⟩ events)
  have hstart : seeded.claims hash = 0 := rfl
  rw [hstart, Nat.zero_add] at haccount
  rw [Api.server_final, Nat.add_comm]
  exact haccount

theorem processed_append (api : Api) (hash : String) (first second : List AppEvent) :
    api.processed hash first ≤ api.processed hash (first ++ second) := by
  rw [Api.processed, Api.processed, Api.serverRun, Api.serverRun, Machine.trace_append,
    Machine.transitions_append, List.countP_append]
  exact Nat.le_add_right _ _

/-- After a flush what a bridge holds is claimed. -/
theorem claims_after_flush {state : AppState} {up : Upload} (clocks : ℕ → Clock)
    (hup : up ∈ state.mesh.collectBridgeUploads) :
    (api.machine.next state (.meshFlush clocks)).server.claims (api.backend.hashOf up.packet) =
      1 := by
  have hcarried : ((clockedUploads state.mesh clocks).any fun entry =>
      api.backend.hashOf entry.1.packet = api.backend.hashOf up.packet) = true := by
    rw [← map_fst_clockedUploads state.mesh clocks] at hup
    obtain ⟨entry, hentry, rfl⟩ := List.mem_map.mp hup
    exact List.any_eq_true.mpr ⟨entry, hentry, by simp⟩
  have hseen := @has_seen_ingestUploads api.backend (api.backend.hashOf up.packet) state.server
    (clockedUploads state.mesh clocks)
  rw [hcarried, Bool.or_true] at hseen
  exact if_pos hseen

/-- Only the cleanup timer and a reset forget. -/
theorem forgotten_eq_zero {events : List AppEvent}
    (hkeeps : ∀ event ∈ events, event ≠ .meshReset ∧ ∀ now, event ≠ .evictExpired now) :
    api.forgotten hash events = 0 := by
  have hdelivery : ∀ event ∈ api.serverRun ⟨defaultMesh, seeded⟩ events,
      ∃ packet bridgeNodeId hopCount clock, event = .ingest packet bridgeNodeId hopCount clock := by
    intro event hevent
    obtain ⟨earlier, appEvent, later, rfl, hmem⟩ := Machine.mem_trace_iff.mp hevent
    obtain ⟨hreset, hevict⟩ := hkeeps appEvent (by simp)
    cases appEvent with
    | demoSend body draw => cases hmem
    | meshGossip => cases hmem
    | meshReset => exact absurd rfl hreset
    | evictExpired now => exact absurd rfl (hevict now)
    | meshFlush clocks =>
      obtain ⟨entry, -, rfl⟩ := List.mem_map.mp hmem
      exact ⟨_, _, _, _, entry.1.event_eq entry.2⟩
    | bridgeIngest body bridgeHeader hopHeader clock =>
      cases hvalid : MeshPacket.validate body with
      | error err => simp [AppState.serverEvents, hvalid] at hmem
      | ok packet =>
        simp only [AppState.serverEvents, hvalid, List.mem_singleton] at hmem
        exact ⟨_, _, _, _, hmem⟩
  rw [Api.forgotten, List.countP_eq_zero]
  intro t ht
  obtain ⟨-, ⟨packet, bridgeNodeId, hopCount, clock, hevent⟩, htransition⟩ :=
    Machine.invariant_transition (I := fun _ => True) (fun _ _ _ _ => trivial) trivial hdelivery ht
  rw [htransition, hevent, forgets, Machine.before_transition, Machine.after_transition,
    next_ingest, has_seen_ingest]
  cases t.before.seen.has hash with
  | true => simp
  | false => simp

end

/-- **Exactly once, end to end.** A request puts a packet with hops to go at a known phone;
it is gossiped and flushed with no reset in between, and until then no other request makes a
packet with its id. Whatever else happens before, in between and after: its hash is
processed at least once; it is processed as often as its claim is forgotten, and once more
if it stands at the end; so exactly once if no claim of it is forgotten. -/
theorem exactly_once (api : Api) (before between after : List AppEvent) (body : Value) (draw : Draw)
    (home : String) (packet : MeshPacket) (clocks : ℕ → Clock)
    (hsend : api.prepareSend body draw = .ok (.str home, packet))
    (hknown : defaultMesh.has home = true) (hforward : packet.forwardable = true)
    (hbefore : api.Spares packet.packetId before) (hbetween : api.Spares packet.packetId between)
    (hgossip : .meshGossip ∈ between) (hreset : .meshReset ∉ between) :
    1 ≤ api.processed (api.backend.hashOf packet)
        (before ++ .demoSend body draw :: between ++ .meshFlush clocks :: after) ∧
      api.processed (api.backend.hashOf packet)
          (before ++ .demoSend body draw :: between ++ .meshFlush clocks :: after) =
        api.forgotten (api.backend.hashOf packet)
            (before ++ .demoSend body draw :: between ++ .meshFlush clocks :: after) +
          (api.machine.final ⟨defaultMesh, seeded⟩ (before ++ .demoSend body draw :: between ++
            .meshFlush clocks :: after)).server.claims (api.backend.hashOf packet) ∧
      (api.forgotten (api.backend.hashOf packet)
          (before ++ .demoSend body draw :: between ++ .meshFlush clocks :: after) = 0 →
        api.processed (api.backend.hashOf packet)
          (before ++ .demoSend body draw :: between ++ .meshFlush clocks :: after) = 1) := by
  obtain ⟨up, hup, hciphertext⟩ := @held_at_bridge api before between body draw home packet seeded
    hsend hknown hforward hbefore hbetween hgossip hreset
  have hhash : api.backend.hashOf up.packet = api.backend.hashOf packet :=
    congrArg api.node.sha256Hex hciphertext
  have hclaimed := @claims_after_flush api _ _ clocks hup
  rw [hhash] at hclaimed
  generalize api.backend.hashOf packet = hash at hclaimed ⊢
  generalize before ++ .demoSend body draw :: between = earlier at hclaimed ⊢
  have hflushed : 1 ≤ api.processed hash (earlier ++ [.meshFlush clocks]) := by
    rw [processed_eq, Machine.final_append, Machine.final_cons, Machine.final_nil, hclaimed]
    exact Nat.le_add_left 1 _
  have hlater := processed_append api hash (earlier ++ [.meshFlush clocks]) after
  rw [List.append_assoc, List.singleton_append] at hlater
  have haccount := processed_eq api hash (earlier ++ .meshFlush clocks :: after)
  have hone : (api.machine.final ⟨defaultMesh, seeded⟩
      (earlier ++ .meshFlush clocks :: after)).server.claims hash ≤ 1 := by
    rw [Server.claims]
    split
    · exact le_refl 1
    · exact Nat.zero_le 1
  refine ⟨hflushed.trans hlater, haccount, fun hnone => ?_⟩
  omega

/-- Alice's packet, flushed twice. -/
theorem exactly_once_alice :
    plainApi.processed (plainApi.backend.hashOf (alicePacket 5))
      ([] ++ .demoSend (aliceSends "phone-alice" 5) aliceDraw :: [.meshGossip] ++
        .meshFlush (fun _ => ⟨2000, 2000, 2000⟩) :: [.meshFlush fun _ => ⟨3000, 3000, 3000⟩]) =
      1 := by
  have honce := exactly_once plainApi [] [.meshGossip] [.meshFlush fun _ => ⟨3000, 3000, 3000⟩] _ _ _
    _ (fun _ => ⟨2000, 2000, 2000⟩) (prepareSend_aliceSends "phone-alice" (by decide) 5)
    (by decide +kernel) (by decide +kernel) (fun _ _ _ _ hsent => by cases hsent)
    (fun _ _ _ _ hsent => by simp at hsent) (by simp) (by simp)
  exact honce.2.2 (forgotten_eq_zero (by simp))

end UpiOfflineMesh
