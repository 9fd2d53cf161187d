import UpiOfflineMesh.ApiRoutes
import UpiOfflineMesh.PacketTrail

/-!
# Hops travelled

A flush takes what is missing from five as the hops that a copy has travelled. What the
copy has lost is the length of its trail, so the count is right for the packets that
were sent with five hops to go and wrong for all others.
-/

namespace UpiOfflineMesh

open Js Mesh

/-- `5 - up.packet.ttl`, the hop count that a flush passes on. -/
def Upload.hopCount (up : Upload) : Number := (Number.fin 5).sub up.packet.ttl

/-- The trails of the copies after some events of the application. -/
def Api.trails (api : Api) (events : List AppEvent) : Trails :=
  trailsAfter defaultMesh (events.flatMap api.meshEvents)

/-- The upload has come along this trail, from the injection that this request made. -/
structure Upload.ComesFrom (api : Api) (events : List AppEvent) (up : Upload) (trail : Trail)
    (body : Value) (draw : Draw) : Prop where
  located : api.trails events up.bridgeNodeId up.packet.packetId = some trail
  requested : .demoSend body draw ∈ events
  prepared : api.prepareSend body draw = .ok (.str trail.home, trail.sent)

/-- A flush delivers its uploads with that hop count. -/
theorem Upload.event_eq (up : Upload) (clock : Clock) :
    up.event clock = .ingest up.packet up.bridgeNodeId up.hopCount clock := rfl

section

variable {api : Api} {server : Server} {events : List AppEvent} {up : Upload} {trail : Trail}
  {body : Value} {draw : Draw}

/-- Every upload is at the end of a trail. -/
theorem Upload.exists_trail
    (hup : up ∈ (api.machine.final ⟨defaultMesh, server⟩ events).mesh.collectBridgeUploads) :
    ∃ trail, api.trails events up.bridgeNodeId up.packet.packetId = some trail ∧
      up.packet = trail.copy ∧ Grounded (events.flatMap api.meshEvents) trail := by
  rw [api.mesh_final] at hup
  exact UpiOfflineMesh.exists_trail defaultMesh_empty (mem_collectBridgeUploads.mp hup).2

/-- Every upload comes from a request. -/
theorem Upload.exists_comesFrom
    (hup : up ∈ (api.machine.final ⟨defaultMesh, server⟩ events).mesh.collectBridgeUploads) :
    ∃ trail body draw, up.ComesFrom api events trail body draw := by
  obtain ⟨trail, htrail, -, hground⟩ := Upload.exists_trail hup
  obtain ⟨event, hevent, hinjects⟩ := List.mem_flatMap.mp hground.injected
  obtain ⟨body, draw, rfl, hprepared⟩ := Api.mem_meshEvents_iff.mp hinjects
  exact ⟨trail, body, draw, htrail, hevent, hprepared⟩

/-- What is known of the trail of an upload. -/
theorem Upload.ComesFrom.arrived (h : up.ComesFrom api events trail body draw)
    (hup : up ∈ (api.machine.final ⟨defaultMesh, server⟩ events).mesh.collectBridgeUploads) :
    up.packet = trail.copy ∧ Grounded (events.flatMap api.meshEvents) trail := by
  obtain ⟨other, htrail, harrived⟩ := Upload.exists_trail hup
  rw [h.located] at htrail
  obtain rfl := Option.some.inj htrail
  exact harrived

/-- The count is off by what the TTL was off at the start. -/
theorem hopCount_eq_iff {sent : Number} {hops : ℕ} :
    ((Number.fin 5).sub (sent.sub (.fin (hops : ℚ))) = .fin (hops : ℚ) ∧
      ((Number.fin 5).sub (sent.sub (.fin (hops : ℚ)))).lt (.fin 0) = false) ↔ sent = .fin 5 := by
  constructor
  · rintro ⟨heq, -⟩
    cases sent with
    | fin q =>
      simp only [Number.sub_fin, Number.fin.injEq] at heq
      congr 1
      linarith
    | _ => cases heq
  · rintro rfl
    have hback : (5 : ℚ) - (5 - hops) = hops := by ring
    have hnonneg : ¬(hops : ℚ) < 0 := not_lt.mpr (Nat.cast_nonneg hops)
    simp [hback, hnonneg]

end

/-! ### Runs with one packet -/

/-- Sent from the bridge, the packet is uploaded as it is. -/
theorem upload_at_bridge (server : Server) (ttl : ℤ) :
    ⟨"phone-bridge", alicePacket ttl⟩ ∈ (plainApi.machine.final ⟨defaultMesh, server⟩
      [.demoSend (aliceSends "phone-bridge" ttl) aliceDraw]).mesh.collectBridgeUploads := by
  have hbridge : "phone-bridge" ∈ defaultMesh.bridges := by decide +kernel
  have hheld : held (meshMachine.next defaultMesh (.inject "phone-bridge" (alicePacket ttl)))
      "phone-bridge" (alicePacket ttl).packetId = some (alicePacket ttl) := by
    rw [held_next_inject, if_pos ⟨has_of_mem_bridges hbridge, rfl, rfl⟩,
      nowhere_of_empty defaultMesh_empty]
    rfl
  rw [Api.mesh_final, List.flatMap_singleton, meshEvents_aliceSends _ (by decide) ttl]
  exact mem_collectBridgeUploads.mpr ⟨mem_bridges_final.mpr hbridge, hheld⟩

/-- Sent from Alice's phone with hops to go, its copy is uploaded after a round. -/
theorem upload_after_round (server : Server) (ttl : ℤ) (hhops : 0 < ttl) :
    ⟨"phone-bridge", (alicePacket ttl).copy⟩ ∈ collectBridgeUploads
      (plainApi.machine.final ⟨defaultMesh, server⟩
        [.demoSend (aliceSends "phone-alice" ttl) aliceDraw, .meshGossip]).mesh := by
  have hbridge : "phone-bridge" ∈ defaultMesh.bridges := by decide +kernel
  have hknown : defaultMesh.has "phone-alice" = true := by decide +kernel
  have hforward : (alicePacket ttl).forwardable = true := (MeshPacket.forwardable_iff rfl).mpr hhops
  have halone : Alone (meshMachine.next defaultMesh (.inject "phone-alice" (alicePacket ttl)))
      "phone-alice" (alicePacket ttl) :=
    Nowhere.inject (nowhere_of_empty defaultMesh_empty _) hknown
  have hevents : [AppEvent.demoSend (aliceSends "phone-alice" ttl) aliceDraw, .meshGossip].flatMap
      plainApi.meshEvents = [.inject "phone-alice" (alicePacket ttl), .gossip] := by
    rw [List.flatMap_cons, meshEvents_aliceSends _ (by decide) ttl]
    rfl
  have hbridge' : "phone-bridge" ∈ (meshMachine.final defaultMesh
      [.inject "phone-alice" (alicePacket ttl), .gossip]).bridges := mem_bridges_final.mpr hbridge
  have hheld := (halone.gossip.1 hforward).2 "phone-bridge" (has_of_mem_bridges hbridge')
  rw [if_neg (by decide)] at hheld
  rw [Api.mesh_final, hevents]
  exact mem_collectBridgeUploads.mpr ⟨hbridge', hheld⟩

/-- Sent from the bridge, the packet has an empty trail. -/
theorem comesFrom_at_bridge (ttl : ℤ) :
    Upload.ComesFrom plainApi [.demoSend (aliceSends "phone-bridge" ttl) aliceDraw]
      ⟨"phone-bridge", alicePacket ttl⟩ ⟨"phone-bridge", alicePacket ttl, []⟩
      (aliceSends "phone-bridge" ttl) aliceDraw where
  located := by
    have hknown : defaultMesh.has "phone-bridge" = true := by decide +kernel
    have hnext : Trails.next (fun _ _ => none) defaultMesh
        (.inject "phone-bridge" (alicePacket ttl)) "phone-bridge" "packet-1" =
          some ⟨"phone-bridge", alicePacket ttl, []⟩ := by
      rw [Trails.next_inject, if_pos ⟨hknown, rfl, rfl⟩]
      rfl
    rw [Api.trails, List.flatMap_singleton, meshEvents_aliceSends _ (by decide) ttl]
    exact hnext
  requested := List.mem_singleton_self _
  prepared := prepareSend_aliceSends _ (by decide) ttl

/-! ### The hop count -/

/-- **Hops travelled.** In every run of the application every upload comes from a
request to send, and the hop count that a flush passes on is the number of transfers on
its trail, and not negative, exactly when the request asked for five hops. -/
theorem hop_count_iff (api : Api) (server : Server) (events : List AppEvent) (up : Upload)
    (hup : up ∈ (api.machine.final ⟨defaultMesh, server⟩ events).mesh.collectBridgeUploads) :
    (∃ trail body draw, up.ComesFrom api events trail body draw) ∧
      ∀ trail body draw, up.ComesFrom api events trail body draw →
        ((up.hopCount = .fin (trail.route.length : ℚ) ∧ up.hopCount.lt (.fin 0) = false) ↔
          api.requestedHops body = .ok (.fin 5)) := by
  refine ⟨Upload.exists_comesFrom hup, fun trail body draw h => ?_⟩
  obtain ⟨hcopy, -⟩ := h.arrived hup
  rw [Api.requestedHops_of_prepareSend h.prepared, Except.ok.injEq, Upload.hopCount, hcopy,
    Trail.copy]
  exact hopCount_eq_iff

/-- A packet that was sent with ten hops to go from the bridge itself has travelled no
hop, and minus five are counted. -/
theorem ten_hops_miscounted :
    (⟨"phone-bridge", alicePacket 10⟩ ∈ (plainApi.machine.final ⟨defaultMesh, seeded⟩
        [.demoSend (aliceSends "phone-bridge" 10) aliceDraw]).mesh.collectBridgeUploads) ∧
      Upload.ComesFrom plainApi [.demoSend (aliceSends "phone-bridge" 10) aliceDraw]
        ⟨"phone-bridge", alicePacket 10⟩ ⟨"phone-bridge", alicePacket 10, []⟩
        (aliceSends "phone-bridge" 10) aliceDraw ∧
      plainApi.requestedHops (aliceSends "phone-bridge" 10) = .ok (.fin (10 : ℤ)) ∧
      Upload.hopCount ⟨"phone-bridge", alicePacket 10⟩ = .fin (-5) := by
  refine ⟨upload_at_bridge seeded 10, comesFrom_at_bridge 10, ?_, ?_⟩
  · exact Api.requestedHops_of_prepareSend (prepareSend_aliceSends _ (by decide) 10)
  · simp only [Upload.hopCount, alicePacket, Number.sub_fin]
    norm_num

/-- Alice's packet, sent with five hops to go and uploaded after a round. -/
theorem hop_count_iff_aliceSends :
    (∃ trail body draw, Upload.ComesFrom plainApi
        [.demoSend (aliceSends "phone-alice" 5) aliceDraw, .meshGossip]
        ⟨"phone-bridge", (alicePacket 5).copy⟩ trail body draw) ∧
      ∀ trail body draw, Upload.ComesFrom plainApi
          [.demoSend (aliceSends "phone-alice" 5) aliceDraw, .meshGossip]
          ⟨"phone-bridge", (alicePacket 5).copy⟩ trail body draw →
        ((Upload.hopCount ⟨"phone-bridge", (alicePacket 5).copy⟩ = .fin (trail.route.length : ℚ) ∧
          (Upload.hopCount ⟨"phone-bridge", (alicePacket 5).copy⟩).lt (.fin 0) = false) ↔
          plainApi.requestedHops body = .ok (.fin 5)) :=
  hop_count_iff plainApi seeded _ _ (upload_after_round seeded 5 (by decide))

end UpiOfflineMesh
