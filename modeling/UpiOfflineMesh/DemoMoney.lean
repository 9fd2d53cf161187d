import UpiOfflineMesh.BankRefinement
import UpiOfflineMesh.DemoPayment

/-!
# What the phones send conserves money

A payment of whole paise takes from one account what it gives to another, so the bank keeps
its total over a run of such payments. A request writes its amount with two decimals, so all
that the phones send is of this kind: only a body posted to the ingestion endpoint can carry
another amount.
-/

namespace UpiOfflineMesh

open Js InMemoryDb Mesh

/-- The body is accepted by the ingestion endpoint. -/
def AppEvent.postsAccepted : AppEvent → Bool
  | .bridgeIngest body _ _ _ => (MeshPacket.validate body).toOption.isSome
  | _ => false

section

variable {api : Api} {events : List AppEvent}

/-- What the phones upload is an amount in whole paise. -/
theorem inHundredths_of_upload (hnode : api.node.Lawful) (hjson : api.ReadsBack events)
    {up : Upload} {clock : Clock}
    (hup : up ∈ (api.machine.final ⟨defaultMesh, seeded⟩ events).mesh.collectBridgeUploads) :
    (up.event clock).InHundredths api.backend := by
  obtain ⟨-, hheld⟩ := mem_collectBridgeUploads.mp hup
  obtain ⟨before, body, draw, between, trail, rfl, -, hprepared, hcopy⟩ := exists_send_of_held hheld
  obtain ⟨request, amount, pin, hmakes⟩ := Api.prepareSend_eq_ok_iff.mp hprepared
  have hdecrypt : decrypt api.node up.packet.ciphertext =
      .ok (instructionOf api.node draw request.senderVpa request.receiverVpa amount pin) := by
    rw [hcopy]
    change decrypt api.node trail.sent.ciphertext = _
    rw [hmakes.made]
    exact decrypt_createPacket hnode (hjson _ _ _ _ _ _ _ (by simp) hmakes)
  rintro q ⟨instruction, hopened, hamount⟩
  obtain rfl := Except.ok.inj (hopened.symm.trans hdecrypt)
  change (Value.str amount.toFixed2).parseFloat _ = _ at hamount
  rw [Value.parseFloat_str] at hamount
  exact isHundredths_of_written (Except.ok.inj hamount)

/-- What one request delivers is in whole paise unless it is an accepted body. -/
theorem inHundredths_serverEvents (hnode : api.node.Lawful) (hjson : api.ReadsBack events)
    {event : AppEvent} (hphones : event.postsAccepted = false) :
    ∀ delivery ∈ (api.machine.final ⟨defaultMesh, seeded⟩ events).serverEvents event,
      delivery.InHundredths api.backend := by
  intro delivery hdelivery
  cases event with
  | demoSend body draw => cases hdelivery
  | meshGossip => cases hdelivery
  | meshReset =>
    obtain rfl := List.mem_singleton.mp hdelivery
    exact fun q hread => hread.elim
  | evictExpired now =>
    obtain rfl := List.mem_singleton.mp hdelivery
    exact fun q hread => hread.elim
  | meshFlush clocks =>
    obtain ⟨entry, hentry, rfl⟩ := List.mem_map.mp hdelivery
    exact inHundredths_of_upload hnode hjson (exists_of_mem_clockedUploads hentry).1
  | bridgeIngest body bridgeHeader hopHeader clock =>
    rw [AppEvent.postsAccepted] at hphones
    cases hvalid : MeshPacket.validate body with
    | error err => simp [AppState.serverEvents, hvalid] at hdelivery
    | ok packet => simp [hvalid, Except.toOption] at hphones

/-- A request that is no accepted body leaves the total as it is. -/
theorem totalBalance_next (hnode : api.node.Lawful) (hjson : api.ReadsBack events)
    {event : AppEvent} (hphones : event.postsAccepted = false) :
    (api.machine.final ⟨defaultMesh, seeded⟩ (events ++ [event])).server.db.totalBalance =
      (api.machine.final ⟨defaultMesh, seeded⟩ events).server.db.totalBalance := by
  have hwhole := inHundredths_serverEvents hnode hjson hphones
  have hserver := @Api.server_final api ⟨defaultMesh, seeded⟩ events
  have hsound : (api.machine.final ⟨defaultMesh, seeded⟩ events).server.db.Sound := by
    rw [hserver]
    exact (sound_final api.backend _).1
  have hindexed : (api.machine.final ⟨defaultMesh, seeded⟩ events).server.db.Indexed := by
    rw [hserver]
    exact indexed_final api.backend _
  rw [Machine.final_append, Machine.final_cons, Machine.final_nil, Api.server_next]
  exact totalBalance_final hsound hindexed hwhole

end

/-- **What goes through the phones conserves money.** In every run of the application, from
any point on, requests of which none is a body accepted by the ingestion endpoint leave the
total of all balances as it is. -/
theorem demo_money (api : Api) (hnode : api.node.Lawful) (events later : List AppEvent)
    (hjson : api.ReadsBack (events ++ later))
    (hphones : ∀ event ∈ later, event.postsAccepted = false) :
    (api.machine.final ⟨defaultMesh, seeded⟩ (events ++ later)).server.db.totalBalance =
      (api.machine.final ⟨defaultMesh, seeded⟩ events).server.db.totalBalance := by
  induction later using List.reverseRecOn with
  | nil => rw [List.append_nil]
  | append_singleton later event ih =>
    rw [← List.append_assoc] at hjson ⊢
    rw [totalBalance_next hnode hjson.of_append (hphones event (by simp))]
    exact ih hjson.of_append fun other hother => hphones other (by simp [hother])

/-- Alice's payment through the phones leaves the total as it was at the start. -/
theorem demo_money_alice :
    (plainApi.machine.final ⟨defaultMesh, seeded⟩ alicePays).server.db.totalBalance =
      .fin 9000 := by
  have htotal := demo_money plainApi plainNode_lawful [] alicePays readsBack_alicePays
    (by decide)
  rw [List.nil_append, Machine.final_nil] at htotal
  exact htotal.trans totalBalance_seededDb

end UpiOfflineMesh
