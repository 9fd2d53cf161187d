import UpiOfflineMesh.Dashboard
import UpiOfflineMesh.Js.RelatedMaps
import UpiOfflineMesh.Relational

/-!
# Meshes that look alike

The mesh looks at the id of a packet and at its hops to go, and never at its date or its
ciphertext. Two meshes whose packets differ in nothing else therefore stay alike, whatever
relates the ciphertexts: the rounds report the same, the phones show the same, and the
bridges upload on the same ways.
-/

namespace UpiOfflineMesh

open Js Mesh

variable {C : String → String → Prop}

/-- Packets with the same id and hops to go, and related ciphertexts. -/
structure MeshPacket.Alike (C : String → String → Prop) (packet packet' : MeshPacket) : Prop where
  packetId : packet.packetId = packet'.packetId
  ttl : packet.ttl = packet'.ttl
  ciphertext : C packet.ciphertext packet'.ciphertext

/-- Phones that hold such packets in the same order. -/
structure VirtualDevice.Alike (C : String → String → Prop) (d d' : VirtualDevice) : Prop where
  deviceId : d.deviceId = d'.deviceId
  hasInternet : d.hasInternet = d'.hasInternet
  heldPackets : d.heldPackets.Related (MeshPacket.Alike C) d'.heldPackets

/-- Meshes of such phones. -/
def Mesh.Alike (C : String → String → Prop) (mesh mesh' : Mesh) : Prop :=
  mesh.Related (VirtualDevice.Alike C) mesh'

/-- Rounds that have gone alike so far. -/
structure GossipRound.Alike (C : String → String → Prop) (round round' : GossipRound) : Prop where
  transfers : round.transfers = round'.transfers
  mesh : round.mesh.Alike C round'.mesh

/-- The same injection but for the packet, or the same event. -/
inductive MeshEvent.Alike (C : String → String → Prop) : MeshEvent → MeshEvent → Prop
  | inject (home : String) {packet packet' : MeshPacket} (h : packet.Alike C packet') :
      Alike C (.inject home packet) (.inject home packet')
  | gossip : Alike C .gossip .gossip
  | reset : Alike C .reset .reset

/-- Uploads on the same way. -/
structure Upload.Alike (C : String → String → Prop) (up up' : Upload) : Prop where
  bridgeNodeId : up.bridgeNodeId = up'.bridgeNodeId
  packet : up.packet.Alike C up'.packet

section

variable {mesh mesh' : Mesh} {d d' : VirtualDevice} {packet packet' pkt pkt' : MeshPacket}

theorem keyed_packets :
    KeyedMap.Keyed Eq (MeshPacket.Alike C) MeshPacket.packetId MeshPacket.packetId where
  keys := ⟨fun _ _ _ h h' => h.trans h'.symm, fun _ _ _ h h' => h.symm.trans h'⟩
  key h := h.packetId

theorem keyed_devices :
    KeyedMap.Keyed Eq (VirtualDevice.Alike C) VirtualDevice.deviceId VirtualDevice.deviceId where
  keys := ⟨fun _ _ _ h h' => h.trans h'.symm, fun _ _ _ h h' => h.symm.trans h'⟩
  key h := h.deviceId

theorem MeshPacket.Alike.copy (h : pkt.Alike C pkt') : pkt.copy.Alike C pkt'.copy where
  packetId := h.packetId
  ttl := by rw [MeshPacket.copy, MeshPacket.copy, h.ttl]
  ciphertext := h.ciphertext

theorem VirtualDevice.Alike.hold (hd : d.Alike C d') (hpacket : packet.Alike C packet') :
    (d.hold packet).Alike C (d'.hold packet') := by
  have hhas : d.heldPackets.has packet.packetId = d'.heldPackets.has packet'.packetId :=
    hd.heldPackets.has keyed_packets hpacket.packetId
  unfold VirtualDevice.hold
  rw [hhas]
  split
  case isTrue => exact hd
  case isFalse => exact { hd with heldPackets := hd.heldPackets.set keyed_packets hpacket }

theorem Mesh.Alike.get (h : mesh.Alike C mesh') (deviceId : String) :
    Option.Rel (VirtualDevice.Alike C) (mesh.get deviceId) (mesh'.get deviceId) :=
  KeyedMap.Related.get h keyed_devices rfl

theorem Mesh.Alike.set (h : mesh.Alike C mesh') (hd : d.Alike C d') :
    Mesh.Alike C (mesh.set d) (mesh'.set d') :=
  KeyedMap.Related.set h keyed_devices hd

/-- One share goes alike. -/
theorem GossipRound.Alike.share {round round' : GossipRound} (h : round.Alike C round')
    (hpkt : pkt.Alike C pkt') (hd : d.Alike C d') :
    (round.share pkt d).Alike C (round'.share pkt' d') := by
  have hget := h.mesh.get d.deviceId
  unfold GossipRound.share
  rw [← hd.deviceId]
  generalize round.mesh.get d.deviceId = found at hget ⊢
  generalize round'.mesh.get d.deviceId = found' at hget ⊢
  cases hget with
  | none => exact h
  | @some peer peer' hpeer =>
    have hholds : peer.holds pkt.packetId = peer'.holds pkt'.packetId :=
      hpeer.heldPackets.has keyed_packets hpkt.packetId
    simp only [hholds]
    split
    case isTrue => exact h
    case isFalse =>
      exact ⟨congrArg (· + 1) h.transfers, h.mesh.set (hpeer.hold hpkt.copy)⟩

/-- The phones meet in the same order and offer packets that look alike. -/
theorem Mesh.Alike.encounters (h : mesh.Alike C mesh') :
    List.Forall₂ (fun e e' => e.1.Alike C e'.1 ∧ e.2.Alike C e'.2) mesh.encounters
      mesh'.encounters := by
  refine List.rel_flatMap h fun src src' hsrc => ?_
  refine List.rel_flatMap (List.rel_filter ?_ hsrc.heldPackets) fun pkt pkt' hpkt => ?_
  · intro pkt pkt' hpkt
    change pkt.forwardable = true ↔ pkt'.forwardable = true
    rw [MeshPacket.forwardable, MeshPacket.forwardable, hpkt.ttl]
  refine List.rel_map (fun dst dst' hdst => ⟨hpkt, hdst⟩) (List.rel_filter ?_ h)
  intro dst dst' hdst
  change decide (dst.deviceId ≠ src.deviceId) = true ↔ decide (dst'.deviceId ≠ src'.deviceId) = true
  rw [hdst.deviceId, hsrc.deviceId]

theorem Mesh.Alike.snapshotMap (h : mesh.Alike C mesh') : mesh.snapshotMap = mesh'.snapshotMap := by
  refine List.forall₂_eq_eq_eq ▸ List.rel_map (fun d d' hd => ?_) h
  rw [hd.deviceId, VirtualDevice.packetCount, VirtualDevice.packetCount, hd.heldPackets.size]

/-- **A round goes alike,** and reports the same. -/
theorem Mesh.Alike.gossipOnce (h : mesh.Alike C mesh') :
    mesh.gossipOnce.1 = mesh'.gossipOnce.1 ∧ mesh.gossipOnce.2.Alike C mesh'.gossipOnce.2 := by
  have hstart : GossipRound.Alike C ⟨0, mesh⟩ ⟨0, mesh'⟩ := ⟨rfl, h⟩
  have hrounds : (shareAll ⟨0, mesh⟩ mesh.encounters).Alike C
      (shareAll ⟨0, mesh'⟩ mesh'.encounters) := by
    refine List.rel_foldl ?_ hstart h.encounters
    exact fun _ _ hround _ _ he => hround.share he.1 he.2
  rw [gossipOnce_eq, gossipOnce_eq]
  refine ⟨?_, hrounds.mesh⟩
  rw [hrounds.transfers, hrounds.mesh.snapshotMap]

/-- So does an injection. -/
theorem Mesh.Alike.inject (h : mesh.Alike C mesh') (home : String)
    (hpacket : packet.Alike C packet') :
    Outcomes Eq (Mesh.Alike C) (mesh.inject home packet) (mesh'.inject home packet') := by
  have hget := h.get home
  unfold Mesh.inject
  generalize mesh.get home = found at hget ⊢
  generalize mesh'.get home = found' at hget ⊢
  cases hget with
  | none => exact .error rfl
  | some hd => exact .ok (h.set (hd.hold hpacket))

theorem Mesh.Alike.resetMesh (h : mesh.Alike C mesh') : mesh.resetMesh.Alike C mesh'.resetMesh :=
  List.rel_map (fun _ _ hd => { hd with heldPackets := .empty }) h

/-- The bridges upload on the same ways. -/
theorem Mesh.Alike.collectBridgeUploads (h : mesh.Alike C mesh') :
    List.Forall₂ (Upload.Alike C) mesh.collectBridgeUploads mesh'.collectBridgeUploads := by
  refine List.rel_flatMap h fun d d' hd => ?_
  rw [hd.hasInternet]
  split
  case isTrue => exact List.rel_map (fun _ _ hpkt => ⟨hd.deviceId, hpkt⟩) hd.heldPackets
  case isFalse => exact .nil

/-- The phones are shown alike. -/
theorem Mesh.Alike.devices {state state' : AppState} (h : state.mesh.Alike C state'.mesh) :
    state.meshState.devices = state'.meshState.devices := by
  refine List.forall₂_eq_eq_eq ▸ List.rel_map (fun d d' hd => ?_) h
  have hids : d.getHeldPackets.map (fun p => String.ofList (p.packetId.toList.take 8)) =
      d'.getHeldPackets.map fun p => String.ofList (p.packetId.toList.take 8) :=
    List.forall₂_eq_eq_eq ▸
      List.rel_map (fun _ _ hpkt => by rw [hpkt.packetId]) hd.heldPackets
  rw [hd.deviceId, hd.hasInternet, VirtualDevice.packetCount, VirtualDevice.packetCount,
    hd.heldPackets.size, hids]

/-- **One event does the same to meshes that look alike.** -/
theorem meshMachine_alike {event event' : MeshEvent} (h : mesh.Alike C mesh')
    (hevent : event.Alike C event') :
    (meshMachine.step mesh event).1 = (meshMachine.step mesh' event').1 ∧
      (meshMachine.next mesh event).Alike C (meshMachine.next mesh' event') := by
  cases hevent with
  | gossip => exact ⟨congrArg (Except.ok ∘ some) h.gossipOnce.1, h.gossipOnce.2⟩
  | reset => exact ⟨rfl, h.resetMesh⟩
  | @inject home packet packet' hpacket =>
    have hinject := h.inject home hpacket
    simp only [Machine.next, meshMachine]
    generalize mesh.inject home packet = result at hinject ⊢
    generalize mesh'.inject home packet' = result' at hinject ⊢
    cases hinject with
    | ok hnext => exact ⟨rfl, hnext⟩
    | error herr => exact ⟨congrArg Except.error herr, h⟩

end

end UpiOfflineMesh
