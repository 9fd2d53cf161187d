import UpiOfflineMesh.HopCount

/-!
# Two ways to the pipeline

A flush hands its uploads to `ingest` as they are, the ingestion endpoint checks a body
first. For an upload the two agree as long as it passes the check. A packet that was
sent with hops to go never runs below zero, since only a copy with hops left is handed
on. A packet that was sent below zero is not handed on either, but a bridge uploads it.
-/

namespace UpiOfflineMesh

open Js Mesh

/-- The check accepts the upload, and posting its fields, with the bridge and the hop
count in the headers, does what the flush does: the same result and the same server. -/
structure Upload.PathsAgree (api : Api) (up : Upload) : Prop where
  accepted : MeshPacket.validate up.packet.record = .ok up.packet
  header : ∃ hopHeader, parseInt hopHeader = up.hopCount
  same : ∀ server hopHeader clock, parseInt hopHeader = up.hopCount →
    bridgeIngest api.backend server up.packet.record (some up.bridgeNodeId) (some hopHeader) clock =
      (.result (api.backend.ingest server up.packet up.bridgeNodeId up.hopCount clock).1,
        (api.backend.ingest server up.packet up.bridgeNodeId up.hopCount clock).2)

theorem headerOr_some {text : String} (h : text ≠ "") (fallback : String) :
    headerOr (some text) fallback = text := if_neg h

section

variable {api : Api} {server : Server} {events : List AppEvent} {up : Upload} {trail : Trail}
  {body : Value} {draw : Draw} {T : ℤ}

/-- With whole hops the two ways agree as soon as the check accepts the packet. -/
theorem Upload.pathsAgree_iff (hbridge : up.bridgeNodeId ≠ "") {k : ℤ}
    (httl : up.packet.ttl = .fin (k : ℚ)) : up.PathsAgree api ↔ up.packet.WellFormed := by
  have hcount : up.hopCount = .fin ((5 - k : ℤ) : ℚ) := by
    rw [Upload.hopCount, httl, Number.sub_fin]
    push_cast
    rfl
  constructor
  · intro h
    exact MeshPacket.validate_record.mp h.accepted
  · intro hwell
    have haccepted := MeshPacket.validate_record.mpr hwell
    refine ⟨haccepted, ⟨toString (5 - k), ?_⟩, fun server hopHeader clock hheader => ?_⟩
    · rw [hcount, parseInt_toString]
    · have hne : hopHeader ≠ "" := by
        rintro rfl
        rw [parseInt_empty, hcount] at hheader
        cases hheader
      unfold bridgeIngest
      rw [haccepted, headerOr_some hbridge, headerOr_some hne, hheader]

/-- No bridge has an empty id. -/
theorem Upload.bridgeNodeId_ne_empty
    (hup : up ∈ (api.machine.final ⟨defaultMesh, server⟩ events).mesh.collectBridgeUploads) :
    up.bridgeNodeId ≠ "" := by
  have hnames : ∀ bridgeNodeId ∈ defaultMesh.bridges, bridgeNodeId ≠ "" := by decide +kernel
  rw [api.mesh_final] at hup
  exact hnames _ (mem_bridges_final.mp (mem_collectBridgeUploads.mp hup).1)

/-- What is left of the hops that were asked for. -/
theorem Upload.ComesFrom.ttl_eq (h : up.ComesFrom api events trail body draw)
    (hup : up ∈ (api.machine.final ⟨defaultMesh, server⟩ events).mesh.collectBridgeUploads)
    (hhops : api.requestedHops body = .ok (.fin (T : ℚ))) :
    trail.sent.ttl = .fin (T : ℚ) ∧
      up.packet.ttl = .fin ((T - trail.route.length : ℤ) : ℚ) := by
  have hsent : trail.sent.ttl = .fin (T : ℚ) := by
    rw [Api.requestedHops_of_prepareSend h.prepared] at hhops
    exact Except.ok.inj hhops
  refine ⟨hsent, ?_⟩
  rw [(h.arrived hup).1, Trail.copy, hsent, Number.sub_fin]
  push_cast
  rfl

/-- **Hops never run below zero on the way:** an upload passes the check exactly when its
packet would have passed it at the start. -/
theorem Upload.ComesFrom.wellFormed_iff (h : up.ComesFrom api events trail body draw)
    (hup : up ∈ (api.machine.final ⟨defaultMesh, server⟩ events).mesh.collectBridgeUploads)
    (hhops : api.requestedHops body = .ok (.fin (T : ℚ))) : up.packet.WellFormed ↔ 0 ≤ T := by
  obtain ⟨hcopy, hground⟩ := h.arrived hup
  obtain ⟨hsent, httl⟩ := h.ttl_eq hup hhops
  have hcopy' : up.packet = { trail.sent with ttl := up.packet.ttl } := by
    rw [hcopy]
    rfl
  rw [hcopy', Api.wellFormed_of_prepareSend h.prepared, httl, Number.lt_fin,
    decide_eq_false_iff_not, not_lt, Int.cast_nonneg_iff]
  by_cases hroute : trail.route = []
  · rw [hroute, List.length_nil]
    omega
  · have hcovered := hground.covered T hsent hroute
    omega

end

/-- **Two ways to the pipeline.** In every run of the application every upload comes from
a request to send, and if that asked for a whole number of hops, the check accepts the
upload and both ways do the same exactly when the number was not negative. -/
theorem upload_paths_agree_iff (api : Api) (server : Server) (events : List AppEvent) (up : Upload)
    (hup : up ∈ (api.machine.final ⟨defaultMesh, server⟩ events).mesh.collectBridgeUploads) :
    (∃ trail body draw, up.ComesFrom api events trail body draw) ∧
      ∀ trail body draw, up.ComesFrom api events trail body draw →
        ∀ T : ℤ, api.requestedHops body = .ok (.fin (T : ℚ)) → (up.PathsAgree api ↔ 0 ≤ T) := by
  refine ⟨Upload.exists_comesFrom hup, fun trail body draw h T hhops => ?_⟩
  rw [Upload.pathsAgree_iff (Upload.bridgeNodeId_ne_empty hup) (h.ttl_eq hup hhops).2]
  exact h.wellFormed_iff hup hhops

/-- A packet that was sent from the bridge with minus one hop to go is uploaded, and the
check refuses it. -/
theorem negative_hops_refused :
    (⟨"phone-bridge", alicePacket (-1)⟩ ∈ (plainApi.machine.final ⟨defaultMesh, seeded⟩
        [.demoSend (aliceSends "phone-bridge" (-1)) aliceDraw]).mesh.collectBridgeUploads) ∧
      plainApi.requestedHops (aliceSends "phone-bridge" (-1)) = .ok (.fin ((-1 : ℤ) : ℚ)) ∧
      MeshPacket.validate (alicePacket (-1)).record =
        .error ⟨"Field \"ttl\" must be a non-negative number"⟩ := by
  refine ⟨upload_at_bridge seeded (-1), ?_, rfl⟩
  exact Api.requestedHops_of_prepareSend (prepareSend_aliceSends _ (by decide) (-1))

/-- Alice's packet, sent with five hops to go and uploaded after a round. -/
theorem upload_paths_agree_iff_aliceSends :
    (∃ trail body draw, Upload.ComesFrom plainApi
        [.demoSend (aliceSends "phone-alice" 5) aliceDraw, .meshGossip]
        ⟨"phone-bridge", (alicePacket 5).copy⟩ trail body draw) ∧
      ∀ trail body draw, Upload.ComesFrom plainApi
          [.demoSend (aliceSends "phone-alice" 5) aliceDraw, .meshGossip]
          ⟨"phone-bridge", (alicePacket 5).copy⟩ trail body draw →
        ∀ T : ℤ, plainApi.requestedHops body = .ok (.fin (T : ℚ)) →
          (Upload.PathsAgree plainApi ⟨"phone-bridge", (alicePacket 5).copy⟩ ↔ 0 ≤ T) :=
  upload_paths_agree_iff plainApi seeded _ _ (upload_after_round seeded 5 (by decide))

end UpiOfflineMesh
