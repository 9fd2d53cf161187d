import Mathlib.Data.Finset.Prod
import UpiOfflineMesh.GossipSpread

/-!
# The cost of flooding

Every packet on a device came there by a transfer or was stored by its sender. So the
transfers that the rounds report and the injections that were stored add up to the packets
on all devices, and flooding a packet to everyone costs at most one transfer for each
device but one, however many rounds are run.
-/

namespace UpiOfflineMesh

open Js Mesh

namespace Mesh

/-- The ids of the packets that are held somewhere. -/
def heldIds (mesh : Mesh) : Finset String := mesh.heldPairs.image Prod.snd

/-- The packets on all devices, as the counts of a round add up. -/
def packetTotal (mesh : Mesh) : ℕ := (mesh.snapshotMap.map Prod.snd).sum

section

variable {mesh : Mesh} {home : String} {packet : MeshPacket}

/-- The counts of the devices count the pairs. -/
theorem packetTotal_eq (mesh : Mesh) : mesh.packetTotal = mesh.heldPairs.card := by
  have hnodup : (mesh.values.flatMap fun d =>
      d.getHeldPackets.map fun pkt => (d.deviceId, pkt.packetId)).Nodup := by
    rw [List.nodup_flatMap]
    constructor
    · intro d _
      have hinjective : Function.Injective fun packetId : String => (d.deviceId, packetId) :=
        fun _ _ heq => (Prod.mk.inj heq).2
      have hpackets := d.heldPackets.nodup.map hinjective
      rw [List.map_map] at hpackets
      exact hpackets
    · have hdevices := List.pairwise_map.mp mesh.nodup
      refine hdevices.imp fun {d d'} hne => ?_
      refine List.disjoint_iff_ne.mpr ?_
      rintro _ hpair _ hpair' rfl
      obtain ⟨pkt, -, rfl⟩ := List.mem_map.mp hpair
      obtain ⟨pkt', -, heq⟩ := List.mem_map.mp hpair'
      exact hne (Prod.mk.inj heq).1.symm
  rw [heldPairs, List.toFinset_card_of_nodup hnodup, List.length_flatMap, packetTotal, snapshotMap,
    List.map_map]
  refine congrArg List.sum (List.map_congr_left fun d _ => ?_)
  rw [List.length_map]
  rfl

/-- An injection adds its own pair, if the device is known. -/
theorem heldPairs_next_inject : heldPairs (meshMachine.next mesh (.inject home packet)) =
    if mesh.has home = true then insert (home, packet.packetId) mesh.heldPairs
    else mesh.heldPairs := by
  ext ⟨deviceId, packetId⟩
  rw [mem_heldPairs, held_next_inject]
  split
  case isTrue hhere =>
    obtain ⟨hknown, rfl, rfl⟩ := hhere
    rw [if_pos hknown, Finset.mem_insert]
    cases mesh.held home packet.packetId with
    | none => simp
    | some pkt => simp
  case isFalse helsewhere =>
    rw [← mem_heldPairs]
    split
    case isTrue hknown =>
      rw [Finset.mem_insert, Prod.mk.injEq]
      constructor
      · exact Or.inr
      · rintro (⟨rfl, rfl⟩ | hheld)
        · exact absurd ⟨hknown, rfl, rfl⟩ helsewhere
        · exact hheld
    case isFalse => exact Iff.rfl

theorem heldPairs_resetMesh : mesh.resetMesh.heldPairs = ∅ := by
  ext ⟨deviceId, packetId⟩
  simp [mem_heldPairs]

end

end Mesh

/-! ### The account of the packets -/

/-- What a step of the simulator reports as transfers. -/
def transfersOf (t : Transition Mesh MeshEvent (Except Error (Option GossipResult))) : ℕ :=
  match t.output with
  | .ok (some result) => result.transfers
  | _ => 0

/-- The step stores a new packet on the phone of its sender. -/
def stores (t : Transition Mesh MeshEvent (Except Error (Option GossipResult))) : Bool :=
  match t.event with
  | .inject home packet => t.before.has home && (t.before.held home packet.packetId).isNone
  | _ => false

/-- The packets that a reset erases. -/
def erased (t : Transition Mesh MeshEvent (Except Error (Option GossipResult))) : ℕ :=
  match t.event with
  | .reset => t.before.packetTotal
  | _ => 0

section

variable {mesh start : Mesh} {events : List MeshEvent}

theorem transfersOf_inject (mesh : Mesh) (home : String) (packet : MeshPacket) :
    transfersOf (meshMachine.transition mesh (.inject home packet)) = 0 := by
  simp only [transfersOf, Machine.transition, meshMachine]
  cases mesh.inject home packet with
  | error err => rfl
  | ok mesh => rfl

/-- **One step of the account.** -/
theorem packetTotal_next (mesh : Mesh) (event : MeshEvent) :
    mesh.packetTotal + (transfersOf (meshMachine.transition mesh event) +
        if stores (meshMachine.transition mesh event) then 1 else 0) =
      (meshMachine.next mesh event).packetTotal + erased (meshMachine.transition mesh event) := by
  cases event with
  | reset =>
    have hnone : mesh.resetMesh.packetTotal = 0 := by
      rw [packetTotal_eq, heldPairs_resetMesh, Finset.card_empty]
    change mesh.packetTotal + 0 = mesh.resetMesh.packetTotal + mesh.packetTotal
    omega
  | gossip =>
    have hsubset : mesh.heldPairs ⊆ heldPairs mesh.gossipOnce.2 := by
      rw [gossipOnce_eq]
      exact (card_heldPairs_shareAll ⟨0, mesh⟩ mesh.encounters).1
    have htransfers := transfers_gossipOnce mesh
    rw [Finset.card_sdiff_of_subset hsubset, ← packetTotal_eq, ← packetTotal_eq] at htransfers
    have hgrows := Finset.card_le_card hsubset
    rw [← packetTotal_eq, ← packetTotal_eq] at hgrows
    change mesh.packetTotal + (mesh.gossipOnce.1.transfers + 0) = mesh.gossipOnce.2.packetTotal + 0
    omega
  | inject home packet =>
    rw [transfersOf_inject, packetTotal_eq, packetTotal_eq, heldPairs_next_inject]
    change mesh.heldPairs.card + (0 +
      if (mesh.has home && (mesh.held home packet.packetId).isNone) = true then 1 else 0) = _ + 0
    cases hknown : mesh.has home with
    | false => simp
    | true =>
      rw [if_pos rfl]
      cases hheld : mesh.held home packet.packetId with
      | none =>
        have hnew : (home, packet.packetId) ∉ mesh.heldPairs := by
          rw [mem_heldPairs, hheld]
          simp
        rw [Finset.card_insert_of_notMem hnew]
        simp
      | some pkt =>
        have hold : (home, packet.packetId) ∈ mesh.heldPairs := mem_heldPairs.mpr ⟨pkt, hheld⟩
        rw [Finset.insert_eq_of_mem hold]
        simp

/-- Over every run, what was transferred and stored is held or was erased. -/
theorem packetTotal_final (start : Mesh) (events : List MeshEvent) :
    start.packetTotal + (((meshMachine.transitions start events).map transfersOf).sum +
        (meshMachine.transitions start events).countP stores) =
      (meshMachine.final start events).packetTotal +
        ((meshMachine.transitions start events).map erased).sum := by
  have haccount : start.packetTotal + ((meshMachine.transitions start events).map fun t =>
      transfersOf t + if stores t then 1 else 0).sum =
        (meshMachine.final start events).packetTotal +
          ((meshMachine.transitions start events).map erased).sum :=
    Machine.balance (I := fun _ => True) packetTotal
      (fun t => transfersOf t + if stores t then 1 else 0) erased (fun _ _ _ _ => trivial)
      (fun mesh event _ _ => packetTotal_next mesh event) trivial fun _ _ => trivial
  rw [List.sum_map_add, ← Machine.countP_eq_sum] at haccount
  exact haccount

/-- A round spreads ids, it brings none. -/
theorem heldIds_gossipOnce (mesh : Mesh) : heldIds mesh.gossipOnce.2 ⊆ mesh.heldIds := by
  intro packetId hmem
  obtain ⟨⟨deviceId, _⟩, hpair, rfl⟩ := Finset.mem_image.mp hmem
  cases hknown : mesh.has deviceId with
  | false =>
    rw [← has_eq_of_roster_eq (roster_gossipOnce mesh)] at hknown
    rw [mem_heldPairs, held_eq_none_of_not_has hknown] at hpair
    simp at hpair
  | true =>
    rcases (mem_heldPairs_gossipOnce hknown).mp hpair with hheld | ⟨src, pkt, -, hheld, -⟩
    · exact Finset.mem_image.mpr ⟨_, hheld, rfl⟩
    · exact Finset.mem_image.mpr ⟨_, mem_heldPairs.mpr ⟨pkt, hheld⟩, rfl⟩

/-- A step other than a reset brings a new id only by storing a packet. -/
theorem heldIds_next (mesh : Mesh) {event : MeshEvent} (hreset : event ≠ .reset) :
    (heldIds (meshMachine.next mesh event)).card ≤ mesh.heldIds.card +
      if stores (meshMachine.transition mesh event) then 1 else 0 := by
  cases event with
  | reset => exact absurd rfl hreset
  | gossip => exact Finset.card_le_card (heldIds_gossipOnce mesh)
  | inject home packet =>
    rw [heldIds, heldPairs_next_inject]
    change _ ≤ _ +
      if (mesh.has home && (mesh.held home packet.packetId).isNone) = true then 1 else 0
    cases hknown : mesh.has home with
    | false => simp [heldIds]
    | true =>
      rw [if_pos rfl]
      cases hheld : mesh.held home packet.packetId with
      | none =>
        rw [Finset.image_insert]
        exact Finset.card_insert_le _ _
      | some pkt =>
        have hold : (home, packet.packetId) ∈ mesh.heldPairs := mem_heldPairs.mpr ⟨pkt, hheld⟩
        rw [Finset.insert_eq_of_mem hold]
        simp [heldIds]

/-- Every id that is held at the end was stored by a sender. -/
theorem heldIds_final (hreset : .reset ∉ events) :
    (heldIds (meshMachine.final start events)).card ≤
      start.heldIds.card + (meshMachine.transitions start events).countP stores := by
  induction events generalizing start with
  | nil => exact le_refl _
  | cons event events ih =>
    rw [List.mem_cons, not_or] at hreset
    have hhead := heldIds_next start (Ne.symm hreset.1)
    have htail := @ih (meshMachine.next start event) hreset.2
    rw [Machine.final_cons, Machine.transitions_cons, List.countP_cons]
    omega

/-- What a device holds is a pair of a device and an id. -/
theorem packetTotal_le (mesh : Mesh) :
    mesh.packetTotal ≤ mesh.values.length * mesh.heldIds.card := by
  have hsubset : mesh.heldPairs ⊆
      (mesh.values.map VirtualDevice.deviceId).toFinset ×ˢ mesh.heldIds := by
    rintro ⟨deviceId, packetId⟩ hpair
    obtain ⟨pkt, hheld⟩ := mem_heldPairs.mp hpair
    obtain ⟨d, hget, -⟩ := Option.bind_eq_some_iff.mp hheld
    rw [Finset.mem_product, List.mem_toFinset]
    exact ⟨List.mem_map.mpr ⟨d, KeyedMap.mem_of_get hget, KeyedMap.key_of_get hget⟩,
      Finset.mem_image.mpr ⟨_, hpair, rfl⟩⟩
  have hcard := Finset.card_le_card hsubset
  rw [Finset.card_product, List.toFinset_card_of_nodup mesh.nodup, List.length_map] at hcard
  rw [packetTotal_eq]
  exact hcard

end

/-- **What flooding costs.** In every run from empty phones without a reset, the transfers
that the rounds report and the injections that were stored add up to the packets on all
phones; and the transfers are at most one for each phone but one and each packet that is
held at the end, however many rounds there are. -/
theorem flood_cost (start : Mesh) (events : List MeshEvent)
    (hempty : ∀ device ∈ start.values, device.heldPackets = .empty) (hreset : .reset ∉ events) :
    ((meshMachine.transitions start events).map transfersOf).sum +
        (meshMachine.transitions start events).countP stores =
      (meshMachine.final start events).packetTotal ∧
    ((meshMachine.transitions start events).map transfersOf).sum ≤
      (start.values.length - 1) * (heldIds (meshMachine.final start events)).card := by
  have hnone : start.heldPairs = ∅ := by
    ext ⟨deviceId, packetId⟩
    simp [mem_heldPairs, nowhere_of_empty hempty packetId deviceId]
  have hstart : start.packetTotal = 0 := by
    rw [packetTotal_eq, hnone, Finset.card_empty]
  have hids : start.heldIds.card = 0 := by
    rw [heldIds, hnone, Finset.image_empty, Finset.card_empty]
  have herased : ((meshMachine.transitions start events).map erased).sum = 0 := by
    refine List.sum_eq_zero fun n hn => ?_
    obtain ⟨t, ht, rfl⟩ := List.mem_map.mp hn
    obtain ⟨earlier, later, rfl, -⟩ := Machine.eq_transition_of_mem ht
    unfold erased
    split
    case h_1 hevent => simp [hevent] at hreset
    case h_2 => rfl
  have haccount := packetTotal_final start events
  have hstored := @heldIds_final start events hreset
  have hbound := packetTotal_le (meshMachine.final start events)
  have hdevices : (meshMachine.final start events).values.length = start.values.length := by
    have hlength := congrArg List.length (roster_final start events)
    simpa [roster] using hlength
  rw [hstart, herased] at haccount
  rw [hdevices] at hbound
  rw [hids] at hstored
  constructor
  · omega
  · rw [Nat.sub_mul, Nat.one_mul]
    omega

/-- A packet that two rounds and a second injection carry to five phones. -/
theorem flood_cost_twoRounds :
    ((meshMachine.transitions defaultMesh
      [.inject "phone-alice" ⟨"packet-1", .fin (5 : ℤ), .fin 0, "c1"⟩, .gossip,
        .inject "phone-bridge" ⟨"packet-1", .fin (5 : ℤ), .fin 0, "c1"⟩, .gossip]).map
          transfersOf).sum = 4 := by
  obtain ⟨haccount, -⟩ := flood_cost defaultMesh
    [.inject "phone-alice" ⟨"packet-1", .fin (5 : ℤ), .fin 0, "c1"⟩, .gossip,
      .inject "phone-bridge" ⟨"packet-1", .fin (5 : ℤ), .fin 0, "c1"⟩, .gossip]
    defaultMesh_empty (by simp)
  have hstored : (meshMachine.transitions defaultMesh
      [.inject "phone-alice" ⟨"packet-1", .fin (5 : ℤ), .fin 0, "c1"⟩, .gossip,
        .inject "phone-bridge" ⟨"packet-1", .fin (5 : ℤ), .fin 0, "c1"⟩, .gossip]).countP
          stores = 1 := by
    decide +kernel
  have hheld : (meshMachine.final defaultMesh
      [.inject "phone-alice" ⟨"packet-1", .fin (5 : ℤ), .fin 0, "c1"⟩, .gossip,
        .inject "phone-bridge" ⟨"packet-1", .fin (5 : ℤ), .fin 0, "c1"⟩, .gossip]).packetTotal =
          5 := by
    decide +kernel
  omega

end UpiOfflineMesh
