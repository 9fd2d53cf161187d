import Mathlib.Data.Finset.Card
import UpiOfflineMesh.MeshInvariant

/-!
# What one round spreads

A round adds a copy to every device that lacks a packet which another device held
with hops to go, and nothing else. Which devices get which packets is decided by the
holdings at its start; the order of iteration decides only between different copies
of one packet. Afterwards every packet with a forwardable copy is on all devices, so
the next round has nothing to share.
-/

namespace UpiOfflineMesh

open Js Mesh

namespace Mesh

/-! ### Holdings -/

/-- Which device holds which packet. -/
def heldPairs (mesh : Mesh) : Finset (String × String) :=
  (mesh.values.flatMap fun d => d.getHeldPackets.map fun pkt => (d.deviceId, pkt.packetId)).toFinset

section

variable {mesh other : Mesh} {deviceId packetId : String} {pkt : MeshPacket}

theorem mem_heldPairs :
    (deviceId, packetId) ∈ mesh.heldPairs ↔ ∃ pkt, mesh.held deviceId packetId = some pkt := by
  simp only [heldPairs, List.mem_toFinset, List.mem_flatMap, List.mem_map, Prod.mk.injEq]
  constructor
  · rintro ⟨d, hd, pkt, hpkt, rfl, rfl⟩
    exact ⟨pkt, (held_iff_mem hd).mpr hpkt⟩
  · rintro ⟨pkt, hheld⟩
    obtain ⟨d, hd, hget⟩ := Option.bind_eq_some_iff.mp hheld
    obtain ⟨hmem, hid⟩ := mesh.get_eq_some_iff.mp hd
    obtain ⟨hpkt, hpacketId⟩ := d.heldPackets.get_eq_some_iff.mp hget
    exact ⟨d, hmem, pkt, hpkt, hid, hpacketId⟩

/-- What a share does: nothing, or it counts one transfer and adds one pair. -/
theorem heldPairs_share (round : GossipRound) (pkt : MeshPacket) (dst : VirtualDevice) :
    round.share pkt dst = round ∨
      (round.share pkt dst).transfers = round.transfers + 1 ∧
        (dst.deviceId, pkt.packetId) ∉ round.mesh.heldPairs ∧
        heldPairs (round.share pkt dst).mesh =
          insert (dst.deviceId, pkt.packetId) round.mesh.heldPairs := by
  unfold GossipRound.share
  cases hpeer : round.mesh.get dst.deviceId with
  | none => exact Or.inl rfl
  | some peer =>
    simp only
    split
    case isTrue => exact Or.inl rfl
    case isFalse hlacks =>
      have hid := KeyedMap.key_of_get hpeer
      have hnone : round.mesh.held dst.deviceId pkt.packetId = none := by
        rw [held_of_get hpeer, ← KeyedMap.has_eq_false_iff]
        exact Bool.eq_false_of_not_eq_true hlacks
      refine Or.inr ⟨rfl, ?_, ?_⟩
      · rw [mem_heldPairs, hnone]
        simp
      · ext ⟨deviceId, packetId⟩
        rw [Finset.mem_insert, mem_heldPairs, mem_heldPairs, held_set_hold hpeer,
          MeshPacket.packetId_copy, Prod.mk.injEq]
        by_cases hdevice : dst.deviceId = deviceId
        · rw [if_pos hdevice, ← hdevice]
          by_cases hpacket : pkt.packetId = packetId
          · rw [if_pos hpacket, ← hpacket, hnone]
            simp
          · simp [hpacket, Ne.symm hpacket]
        · simp [hdevice, Ne.symm hdevice]

/-- Shares lose no pair, and count the ones they add. -/
theorem card_heldPairs_shareAll (round : GossipRound)
    (encounters : List (MeshPacket × VirtualDevice)) :
    round.mesh.heldPairs ⊆ heldPairs (shareAll round encounters).mesh ∧
      round.transfers + (heldPairs (shareAll round encounters).mesh).card =
        (shareAll round encounters).transfers + round.mesh.heldPairs.card := by
  induction encounters generalizing round with
  | nil => exact ⟨Finset.Subset.refl _, rfl⟩
  | cons e encounters ih =>
    obtain ⟨hsubset, hcard⟩ := ih (round.share e.1 e.2)
    have hcons : shareAll round (e :: encounters) = shareAll (round.share e.1 e.2) encounters := rfl
    rw [hcons]
    rcases heldPairs_share round e.1 e.2 with hsame | ⟨htransfers, hnew, hpairs⟩
    · rw [hsame] at hsubset hcard ⊢
      exact ⟨hsubset, hcard⟩
    · rw [hpairs] at hsubset hcard
      rw [Finset.card_insert_of_notMem hnew] at hcard
      refine ⟨(Finset.subset_insert _ _).trans hsubset, ?_⟩
      omega

/-- **The transfers of a round** are the pairs that it adds. -/
theorem transfers_gossipOnce (mesh : Mesh) :
    mesh.gossipOnce.1.transfers = (heldPairs mesh.gossipOnce.2 \ mesh.heldPairs).card := by
  obtain ⟨hsubset, hcard⟩ := card_heldPairs_shareAll ⟨0, mesh⟩ mesh.encounters
  rw [gossipOnce_eq, Finset.card_sdiff_of_subset hsubset]
  simp only [Nat.zero_add] at hcard ⊢
  omega

/-! ### Who holds what after a round -/

/-- After a round a device holds what it held, and what others held and could forward. -/
theorem mem_heldPairs_gossipOnce (hknown : mesh.has deviceId = true) :
    (deviceId, packetId) ∈ heldPairs mesh.gossipOnce.2 ↔
      (deviceId, packetId) ∈ mesh.heldPairs ∨ ∃ src pkt, src ≠ deviceId ∧
        mesh.held src packetId = some pkt ∧ pkt.forwardable = true := by
  have heffect := gossip_effect mesh deviceId packetId
  rw [mem_heldPairs, mem_heldPairs]
  generalize held mesh.gossipOnce.2 deviceId packetId = after at heffect ⊢
  cases heffect with
  | kept pkt hheld => simp [hheld]
  | received src pkt hnew hheld hforward =>
    have hne : src ≠ deviceId := by
      rintro rfl
      simp [hnew] at hheld
    simpa [hnew] using ⟨src, hne, pkt, hheld, hforward⟩
  | nothing hnew hnone =>
    simp only [hnew, reduceCtorEq, exists_false, false_or, false_iff, not_exists, not_and]
    intro src pkt _ hheld
    simp [hnone hknown src pkt hheld]

/-- When every peer holds what it is offered, nothing is transferred. -/
theorem shareAll_of_held {round : GossipRound} {encounters : List (MeshPacket × VirtualDevice)}
    (h : ∀ e ∈ encounters, ∃ pkt, round.mesh.held e.2.deviceId e.1.packetId = some pkt) :
    shareAll round encounters = round := by
  induction encounters with
  | nil => rfl
  | cons e encounters ih =>
    have hshare : round.share e.1 e.2 = round := by
      rcases heldPairs_share round e.1 e.2 with hsame | ⟨-, hnew, -⟩
      · exact hsame
      · exact absurd (mem_heldPairs.mpr (h e List.mem_cons_self)) hnew
    have hcons : shareAll round (e :: encounters) = shareAll (round.share e.1 e.2) encounters := rfl
    rw [hcons, hshare]
    exact ih fun e' he' => h e' (List.mem_cons_of_mem e he')

/-- After a round every device holds the packets that any device can forward. -/
theorem held_of_forwardable_gossipOnce {src : String} (hknown : mesh.has deviceId = true)
    (hheld : held mesh.gossipOnce.2 src packetId = some pkt) (hforward : pkt.forwardable = true) :
    ∃ copy, held mesh.gossipOnce.2 deviceId packetId = some copy := by
  -- Whether the source kept its copy or received it, there was a forwardable one before.
  obtain ⟨origin, before, hbefore, hforwarded⟩ : ∃ origin before,
      mesh.held origin packetId = some before ∧ before.forwardable = true := by
    have heffect := gossip_effect mesh src packetId
    rw [hheld] at heffect
    cases heffect with
    | kept _ hkept => exact ⟨src, pkt, hkept, hforward⟩
    | received origin before _ hbefore hforwarded => exact ⟨origin, before, hbefore, hforwarded⟩
  rw [← mem_heldPairs, mem_heldPairs_gossipOnce hknown, mem_heldPairs]
  by_cases hsame : origin = deviceId
  · left
    exact ⟨before, hsame ▸ hbefore⟩
  · right
    exact ⟨origin, before, hsame, hbefore, hforwarded⟩

/-- A round after a round transfers nothing and changes nothing. -/
theorem gossipOnce_gossipOnce (mesh : Mesh) :
    mesh.gossipOnce.2.gossipOnce = (⟨0, snapshotMap mesh.gossipOnce.2⟩, mesh.gossipOnce.2) := by
  rw [gossipOnce_eq mesh.gossipOnce.2, shareAll_of_held]
  rintro ⟨pkt, dst⟩ he
  simp only [encounters, List.mem_flatMap, List.mem_filter, List.mem_map, Prod.mk.injEq] at he
  obtain ⟨src, hsrc, pkt', ⟨hpkt, hforward⟩, dst', ⟨hdst, -⟩, rfl, rfl⟩ := he
  have hknown : mesh.has dst'.deviceId = true := by
    rw [← has_eq_of_roster_eq (roster_gossipOnce mesh)]
    exact KeyedMap.has_of_get (KeyedMap.get_key_of_mem _ hdst)
  exact held_of_forwardable_gossipOnce hknown ((held_iff_mem hsrc).mpr hpkt) hforward

end

end Mesh

/-! ### The laws of gossip -/

/-- A packet with a whole number of hops to go is forwardable when the number is positive. -/
theorem MeshPacket.forwardable_iff {pkt : MeshPacket} {T : ℤ} (h : pkt.ttl = .fin (T : ℚ)) :
    pkt.forwardable = true ↔ 0 < T := by
  rw [forwardable, h, Number.le_fin, Bool.not_eq_true', decide_eq_false_iff_not, not_le]
  exact Int.cast_pos

/-- **Gossip settles after one round:** whatever the devices hold, the next round
reports no transfer and leaves every device as it was, so any number of rounds in a
row ends where the first one did. -/
theorem gossip_settles (mesh : Mesh) :
    mesh.gossipOnce.2.gossipOnce.1.transfers = 0 ∧
      mesh.gossipOnce.2.gossipOnce.2 = mesh.gossipOnce.2 ∧
      ∀ rounds : ℕ, meshMachine.final mesh (List.replicate (rounds + 1) .gossip) =
        mesh.gossipOnce.2 := by
  have hsecond := gossipOnce_gossipOnce mesh
  refine ⟨by rw [hsecond], by rw [hsecond], ?_⟩
  intro rounds
  induction rounds with
  | zero => rfl
  | succ rounds ih =>
    rw [List.replicate_succ', Machine.final_append, ih, Machine.final_cons, Machine.final_nil,
      next_gossip, hsecond]

end UpiOfflineMesh
