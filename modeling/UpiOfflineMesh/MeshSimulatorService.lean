import UpiOfflineMesh.Js.KeyedMap
import UpiOfflineMesh.Machine
import UpiOfflineMesh.Models

/-!
# Virtual devices and gossip rounds

The simulated phones of `src/services/virtualDevice.js` and the gossip of
`src/services/meshSimulatorService.js`. A round shares what the phones held when it
started, but checks and fills their memories while it goes on. It is the fold of
`share` over its encounters, and from that comes what every phone holds
afterwards: what it held before, and of each other packet the first copy offered.
-/

namespace UpiOfflineMesh

open Js

/-! ### Devices -/

/-- A simulated phone. -/
structure VirtualDevice where
  deviceId : String
  /-- Mobile data or Wi-Fi: the phone can reach the server. -/
  hasInternet : Bool
  heldPackets : KeyedMap MeshPacket.packetId

namespace VirtualDevice

/-- `new VirtualDevice(deviceId, hasInternet)`. -/
def new (deviceId : String) (hasInternet : Bool) : VirtualDevice := ⟨deviceId, hasInternet, .empty⟩

/-- Stores a newly received packet unless one with this id is held. -/
def hold (device : VirtualDevice) (packet : MeshPacket) : VirtualDevice :=
  if device.heldPackets.has packet.packetId then device
  else { device with heldPackets := device.heldPackets.set packet }

/-- All packets held, in the order in which they came. -/
def getHeldPackets (device : VirtualDevice) : List MeshPacket := device.heldPackets.values

def holds (device : VirtualDevice) (packetId : String) : Bool := device.heldPackets.has packetId

def packetCount (device : VirtualDevice) : ℕ := device.heldPackets.size

/-- Erases all held packets. -/
def clear (device : VirtualDevice) : VirtualDevice := { device with heldPackets := .empty }

@[simp] theorem deviceId_hold (device : VirtualDevice) (packet : MeshPacket) :
    (device.hold packet).deviceId = device.deviceId := by
  unfold hold
  split <;> rfl

@[simp] theorem hasInternet_hold (device : VirtualDevice) (packet : MeshPacket) :
    (device.hold packet).hasInternet = device.hasInternet := by
  unfold hold
  split <;> rfl

@[simp] theorem heldPackets_hold (device : VirtualDevice) (packet : MeshPacket) :
    (device.hold packet).heldPackets = device.heldPackets.add packet := by
  unfold hold KeyedMap.add
  split <;> rfl

@[simp] theorem deviceId_clear (device : VirtualDevice) :
    device.clear.deviceId = device.deviceId := rfl

/-- Holding packets one after the other adds them to the memory. -/
theorem heldPackets_foldl_hold (device : VirtualDevice) (packets : List MeshPacket) :
    (packets.foldl hold device).heldPackets = packets.foldl KeyedMap.add device.heldPackets := by
  induction packets generalizing device with
  | nil => rfl
  | cons packet packets ih => rw [List.foldl_cons, ih, heldPackets_hold, List.foldl_cons]

end VirtualDevice

/-! ### The mesh -/

/-- The map `devices`. -/
abbrev Mesh := KeyedMap VirtualDevice.deviceId

/-- The copy that a peer receives, with one hop less to go. -/
def MeshPacket.copy (pkt : MeshPacket) : MeshPacket := { pkt with ttl := pkt.ttl.sub (.fin 1) }

/-- A packet with hops left is forwarded, one whose TTL has expired is not. -/
def MeshPacket.forwardable (pkt : MeshPacket) : Bool := !pkt.ttl.le (.fin 0)

@[simp] theorem MeshPacket.packetId_copy (pkt : MeshPacket) : pkt.copy.packetId = pkt.packetId :=
  rfl

/-- The counter and the devices while a round goes on. -/
structure GossipRound where
  transfers : ℕ
  mesh : Mesh

/-- A peer stores a copy of the packet unless it holds the packet by now. -/
def GossipRound.share (round : GossipRound) (pkt : MeshPacket) (dst : VirtualDevice) :
    GossipRound :=
  match round.mesh.get dst.deviceId with
  | none => round
  | some peer =>
    if peer.holds pkt.packetId then round
    else ⟨round.transfers + 1, round.mesh.set (peer.hold pkt.copy)⟩

/-- The result of a round. -/
structure GossipResult where
  transfers : ℕ
  deviceCounts : List (String × ℕ)
  deriving DecidableEq, Repr

/-- A packet that a bridge device uploads. -/
structure Upload where
  bridgeNodeId : String
  packet : MeshPacket
  deriving DecidableEq

namespace Mesh

/-- The default topology: four offline phones and one bridge. -/
def seedDefaultDevices (mesh : Mesh) : Mesh :=
  ((((mesh.set (.new "phone-alice" false)).set (.new "phone-stranger1" false)).set
    (.new "phone-stranger2" false)).set (.new "phone-stranger3" false)).set (.new "phone-bridge" true)

/-- The sender's phone stores a packet of its own. -/
def inject (mesh : Mesh) (senderDeviceId : String) (packet : MeshPacket) : Except Error Mesh :=
  match mesh.get senderDeviceId with
  | none => .error ⟨"Unknown device: " ++ senderDeviceId⟩
  | some sender => .ok (mesh.set (sender.hold packet))

/-- What every device holds at the start of a round. -/
def snapshot (mesh : Mesh) : KeyedMap (Prod.fst : String × List MeshPacket → String) :=
  mesh.values.foldl (fun snapshot d => snapshot.set (d.deviceId, d.getHeldPackets)) .empty

/-- The number of packets on every device. -/
def snapshotMap (mesh : Mesh) : List (String × ℕ) :=
  mesh.values.map fun d => (d.deviceId, d.packetCount)

/-- One round: every device shares the packets that it held at the start with all others. -/
def gossipOnce (mesh : Mesh) : GossipResult × Mesh :=
  let deviceList := mesh.values
  let snapshot := mesh.snapshot
  let round : GossipRound := deviceList.foldl (fun round src =>
    let packets := ((snapshot.get src.deviceId).map Prod.snd).getD []
    packets.foldl (fun (round : GossipRound) pkt =>
      if pkt.ttl.le (.fin 0) then round
      else deviceList.foldl (fun (round : GossipRound) dst =>
        if dst.deviceId = src.deviceId then round else round.share pkt dst) round) round)
    ⟨0, mesh⟩
  (⟨round.transfers, round.mesh.snapshotMap⟩, round.mesh)

/-- The packets that the phones with internet would upload. -/
def collectBridgeUploads (mesh : Mesh) : List Upload :=
  mesh.values.flatMap fun d =>
    if d.hasInternet then d.getHeldPackets.map fun pkt => ⟨d.deviceId, pkt⟩ else []

/-- Clears all devices. -/
def resetMesh (mesh : Mesh) : Mesh := mesh.mapValues .clear VirtualDevice.deviceId_clear

/-! ### What a device holds -/

/-- The copy of a packet on a device. -/
def held (mesh : Mesh) (deviceId packetId : String) : Option MeshPacket :=
  (mesh.get deviceId).bind fun d => d.heldPackets.get packetId

/-- The devices without their packets. -/
def roster (mesh : Mesh) : List (String × Bool) :=
  mesh.values.map fun d => (d.deviceId, d.hasInternet)

section

variable {mesh mesh' : Mesh} {deviceId senderDeviceId packetId : String} {packet pkt : MeshPacket}

theorem held_of_get {d : VirtualDevice} (h : mesh.get deviceId = some d) :
    mesh.held deviceId packetId = d.heldPackets.get packetId := by
  rw [held, h, Option.bind_some]

/-- A held copy is stored under its own packet id. -/
theorem packetId_of_held (h : mesh.held deviceId packetId = some pkt) : pkt.packetId = packetId := by
  obtain ⟨d, _, hget⟩ := Option.bind_eq_some_iff.mp h
  exact KeyedMap.key_of_get hget

/-- Held copies are the values of the memory. -/
theorem held_iff_mem {d : VirtualDevice} (hd : d ∈ mesh.values) :
    mesh.held d.deviceId pkt.packetId = some pkt ↔ pkt ∈ d.heldPackets.values := by
  rw [held_of_get (mesh.get_key_of_mem hd), KeyedMap.get_eq_some_iff]
  simp

/-- The roster decides which devices exist. -/
theorem has_iff_mem_roster :
    mesh.has deviceId = true ↔ deviceId ∈ mesh.roster.map Prod.fst := by
  simp [KeyedMap.has_iff_mem, roster]

theorem has_eq_of_roster_eq (h : mesh'.roster = mesh.roster) (deviceId : String) :
    mesh'.has deviceId = mesh.has deviceId := by
  rw [Bool.eq_iff_iff, has_iff_mem_roster, has_iff_mem_roster, h]

/-- Filling a memory keeps the roster. -/
theorem roster_set_hold {d : VirtualDevice} (h : mesh.get deviceId = some d) (packet : MeshPacket) :
    roster (mesh.set (d.hold packet)) = mesh.roster := by
  have hget : mesh.get (d.hold packet).deviceId = some d := by
    rw [VirtualDevice.deviceId_hold, KeyedMap.key_of_get h, h]
  exact KeyedMap.map_values_set_of_get _ hget (by simp)

/-- Filling a memory, seen from every device. -/
theorem get_set_hold {d : VirtualDevice} (h : mesh.get senderDeviceId = some d)
    (packet : MeshPacket) (deviceId : String) :
    (mesh.set (d.hold packet)).get deviceId =
      (mesh.get deviceId).map fun other =>
        if senderDeviceId = deviceId then other.hold packet else other := by
  rw [KeyedMap.get_set, VirtualDevice.deviceId_hold, KeyedMap.key_of_get h]
  by_cases hsame : senderDeviceId = deviceId
  · rw [← hsame, h]
    simp
  · simp [hsame]

/-! ### Injection and reset -/

/-- An injection succeeds on the known devices. -/
theorem inject_of_get {d : VirtualDevice} (h : mesh.get senderDeviceId = some d) :
    mesh.inject senderDeviceId packet = .ok (mesh.set (d.hold packet)) := by
  rw [inject, h]

/-- An injection fills the memory of its device and no other. -/
theorem held_set_hold {d : VirtualDevice} (h : mesh.get senderDeviceId = some d)
    (packet : MeshPacket) (deviceId packetId : String) :
    held (mesh.set (d.hold packet)) deviceId packetId =
      if senderDeviceId = deviceId then
        (mesh.held deviceId packetId).or (if packet.packetId = packetId then some packet else none)
      else mesh.held deviceId packetId := by
  rw [held, get_set_hold h, Option.bind_map, held]
  by_cases hsame : senderDeviceId = deviceId
  · rw [← hsame, h]
    simp [KeyedMap.get_add]
  · simp [hsame]

@[simp] theorem held_resetMesh : mesh.resetMesh.held deviceId packetId = none := by
  rw [held, resetMesh, KeyedMap.get_mapValues]
  cases mesh.get deviceId <;> rfl

@[simp] theorem roster_resetMesh : mesh.resetMesh.roster = mesh.roster := by
  simp [resetMesh, KeyedMap.mapValues, roster, VirtualDevice.clear]

/-! ### Gossip -/

/-- The encounters of a round, in their order: a device offers a packet that it held
at the start and may forward to a peer. -/
def encounters (mesh : Mesh) : List (MeshPacket × VirtualDevice) :=
  mesh.values.flatMap fun src =>
    (src.getHeldPackets.filter MeshPacket.forwardable).flatMap fun pkt =>
      (mesh.values.filter fun dst => dst.deviceId ≠ src.deviceId).map fun dst => (pkt, dst)

/-- The state of a round after some encounters. -/
def shareAll (round : GossipRound) (encounters : List (MeshPacket × VirtualDevice)) : GossipRound :=
  encounters.foldl (fun round e => round.share e.1 e.2) round

/-- The snapshot has the packets of every device under its id. -/
theorem get_snapshot {d : VirtualDevice} (hd : d ∈ mesh.values) :
    mesh.snapshot.get d.deviceId = some (d.deviceId, d.getHeldPackets) := by
  have hnodup : (((KeyedMap.empty : KeyedMap (Prod.fst : String × List MeshPacket → String)).values ++
      mesh.values.map fun d => (d.deviceId, d.getHeldPackets)).map Prod.fst).Nodup := by
    simpa [Function.comp_def] using mesh.nodup
  have hvalues := KeyedMap.values_foldl_set _ hnodup
  rw [List.foldl_map] at hvalues
  rw [KeyedMap.get_eq_some_iff, snapshot, hvalues]
  exact ⟨by simpa using ⟨d, hd, rfl, rfl⟩, rfl⟩

/-- **A round is the fold of `share` over its encounters.** -/
theorem gossipOnce_eq (mesh : Mesh) :
    mesh.gossipOnce =
      (⟨(shareAll ⟨0, mesh⟩ mesh.encounters).transfers,
        snapshotMap (shareAll ⟨0, mesh⟩ mesh.encounters).mesh⟩,
        (shareAll ⟨0, mesh⟩ mesh.encounters).mesh) := by
  have hloop : ∀ start : GossipRound,
      mesh.values.foldl (fun round src =>
        (((mesh.snapshot.get src.deviceId).map Prod.snd).getD []).foldl
          (fun (round : GossipRound) pkt =>
            if pkt.ttl.le (.fin 0) then round
            else mesh.values.foldl (fun (round : GossipRound) dst =>
              if dst.deviceId = src.deviceId then round else round.share pkt dst) round) round)
        start =
      shareAll start mesh.encounters := by
    intro start
    rw [shareAll, encounters, List.foldl_flatMap]
    refine List.foldl_ext _ _ _ fun round src hsrc => ?_
    rw [get_snapshot hsrc, Option.map_some, Option.getD_some, List.foldl_flatMap, List.foldl_filter]
    refine List.foldl_ext _ _ _ fun round pkt _ => ?_
    rw [List.foldl_map, List.foldl_filter, MeshPacket.forwardable]
    cases pkt.ttl.le (.fin 0) with
    | true => rfl
    | false =>
      refine List.foldl_ext _ _ _ fun round dst _ => ?_
      by_cases hsame : dst.deviceId = src.deviceId
      · simp [hsame]
      · simp [hsame]
  unfold gossipOnce
  simp only [hloop]

/-- A share keeps the roster. -/
theorem roster_share (round : GossipRound) (pkt : MeshPacket) (dst : VirtualDevice) :
    roster (round.share pkt dst).mesh = roster round.mesh := by
  unfold GossipRound.share
  cases hpeer : round.mesh.get dst.deviceId with
  | none => rfl
  | some peer =>
    simp only
    split
    case isTrue => rfl
    case isFalse => exact roster_set_hold hpeer _

/-- After a share the peer holds the packet, and nothing else has changed. -/
theorem get_share (round : GossipRound) (pkt : MeshPacket) (dst : VirtualDevice)
    (deviceId : String) :
    (round.share pkt dst).mesh.get deviceId =
      (round.mesh.get deviceId).map fun d => if dst.deviceId = deviceId then d.hold pkt.copy else d := by
  unfold GossipRound.share
  cases hpeer : round.mesh.get dst.deviceId with
  | none =>
    by_cases hsame : dst.deviceId = deviceId
    · rw [← hsame, hpeer]
      rfl
    · simp [hsame]
  | some peer =>
    simp only
    split
    case isFalse => exact get_set_hold hpeer _ _
    case isTrue hholds =>
      by_cases hsame : dst.deviceId = deviceId
      · have hkept : peer.hold pkt.copy = peer := by
          rw [VirtualDevice.hold, if_pos (by exact hholds)]
        rw [← hsame, hpeer, Option.map_some, if_pos rfl, hkept]
      · simp [hsame]

/-- The copies offered to a device, in the order of the encounters. -/
def offers (encounters : List (MeshPacket × VirtualDevice)) (deviceId : String) :
    List MeshPacket :=
  (encounters.filter fun e => e.2.deviceId = deviceId).map fun e => e.1.copy

/-- Over a list of encounters a device holds the copies offered to it. -/
theorem get_shareAll (round : GossipRound) (encounters : List (MeshPacket × VirtualDevice))
    (deviceId : String) :
    (shareAll round encounters).mesh.get deviceId =
      (round.mesh.get deviceId).map fun d => (offers encounters deviceId).foldl .hold d := by
  induction encounters generalizing round with
  | nil => simp [shareAll, offers]
  | cons e encounters ih =>
    rw [shareAll, List.foldl_cons, ← shareAll, ih, get_share, Option.map_map]
    congr 1
    funext d
    by_cases hsame : e.2.deviceId = deviceId
    · simp [offers, hsame]
    · simp [offers, hsame]

theorem roster_shareAll (round : GossipRound) (encounters : List (MeshPacket × VirtualDevice)) :
    roster (shareAll round encounters).mesh = roster round.mesh := by
  induction encounters generalizing round with
  | nil => rfl
  | cons e encounters ih => exact (ih _).trans (roster_share round e.1 e.2)

@[simp] theorem roster_gossipOnce (mesh : Mesh) : roster mesh.gossipOnce.2 = mesh.roster := by
  rw [gossipOnce_eq]
  exact roster_shareAll _ _

/-- **What a device holds after a round:** what it held before, or else the first copy
of the packet that was offered to it. -/
theorem held_gossipOnce (mesh : Mesh) (deviceId packetId : String) (hknown : mesh.has deviceId = true) :
    held mesh.gossipOnce.2 deviceId packetId = (mesh.held deviceId packetId).or
      ((offers mesh.encounters deviceId).find? fun pkt => pkt.packetId = packetId) := by
  obtain ⟨d, hd⟩ := mesh.has_iff_get.mp hknown
  have hafter : mesh.gossipOnce.2.get deviceId =
      some ((offers mesh.encounters deviceId).foldl .hold d) := by
    rw [gossipOnce_eq]
    simp only [get_shareAll, hd, Option.map_some]
  rw [held_of_get hafter, held_of_get hd, VirtualDevice.heldPackets_foldl_hold,
    KeyedMap.get_foldl_add]

/-- A device is offered the copies of what the others held and may forward. -/
theorem mem_offers {copy : MeshPacket} (hknown : mesh.has deviceId = true) :
    copy ∈ offers mesh.encounters deviceId ↔
      ∃ src pkt, src ≠ deviceId ∧ mesh.held src pkt.packetId = some pkt ∧
        pkt.forwardable = true ∧ pkt.copy = copy := by
  obtain ⟨dst, hdst, rfl⟩ := mesh.has_iff_mem.mp hknown
  simp only [offers, encounters, List.mem_map, List.mem_filter, List.mem_flatMap,
    decide_eq_true_eq]
  constructor
  · rintro ⟨⟨pkt, peer⟩, ⟨⟨src, hsrc, pkt', ⟨hheld, hforward⟩, peer', ⟨hpeer, hne⟩, heq⟩, hsame⟩, rfl⟩
    obtain ⟨rfl, rfl⟩ := Prod.mk.inj heq
    exact ⟨src.deviceId, pkt', fun h => hne (hsame.trans h.symm), (held_iff_mem hsrc).mpr hheld,
      hforward, rfl⟩
  · rintro ⟨src, pkt, hne, hheld, hforward, rfl⟩
    obtain ⟨d, hd, hget⟩ := Option.bind_eq_some_iff.mp hheld
    obtain ⟨hmem, rfl⟩ := mesh.get_eq_some_iff.mp hd
    exact ⟨(pkt, dst), ⟨⟨d, hmem, pkt, ⟨KeyedMap.mem_of_get hget, hforward⟩, dst,
      ⟨hdst, by simpa using Ne.symm hne⟩, rfl⟩, rfl⟩, rfl⟩

theorem held_eq_none_of_not_has (h : mesh.has deviceId = false) :
    mesh.held deviceId packetId = none := by
  rw [held, mesh.has_eq_false_iff.mp h, Option.bind_none]

/-- What a round does to one packet on one device: the copy stays, or a forwardable
copy of another device comes over, or there is none to come. -/
inductive GossipEffect (mesh : Mesh) (deviceId packetId : String) : Option MeshPacket → Prop
  | kept (pkt : MeshPacket) (hheld : mesh.held deviceId packetId = some pkt) :
      GossipEffect mesh deviceId packetId (some pkt)
  | received (src : String) (pkt : MeshPacket) (hnew : mesh.held deviceId packetId = none)
      (hheld : mesh.held src packetId = some pkt) (hforward : pkt.forwardable = true) :
      GossipEffect mesh deviceId packetId (some pkt.copy)
  | nothing (hnew : mesh.held deviceId packetId = none)
      (hnone : mesh.has deviceId = true →
        ∀ src pkt, mesh.held src packetId = some pkt → pkt.forwardable = false) :
      GossipEffect mesh deviceId packetId none

/-- **Effect of a round,** for every mesh, device and packet. -/
theorem gossip_effect (mesh : Mesh) (deviceId packetId : String) :
    GossipEffect mesh deviceId packetId (held mesh.gossipOnce.2 deviceId packetId) := by
  cases hknown : mesh.has deviceId with
  | false =>
    have hafter := (has_eq_of_roster_eq (roster_gossipOnce mesh) deviceId).trans hknown
    rw [held_eq_none_of_not_has hafter]
    refine .nothing (held_eq_none_of_not_has hknown) fun htrue => ?_
    rw [hknown] at htrue
    cases htrue
  | true =>
  rw [held_gossipOnce mesh deviceId packetId hknown]
  cases hheld : mesh.held deviceId packetId with
  | some pkt => exact .kept pkt hheld
  | none =>
  cases hfind : (offers mesh.encounters deviceId).find? fun pkt => pkt.packetId = packetId with
  | some copy =>
    obtain ⟨src, pkt, -, hsrc, hforward, rfl⟩ := (mem_offers hknown).mp (List.mem_of_find?_eq_some hfind)
    have hfound := List.find?_some hfind
    have hid : pkt.packetId = packetId := of_decide_eq_true hfound
    rw [hid] at hsrc
    exact .received src pkt hheld hsrc hforward
  | none =>
    refine .nothing hheld fun _ src pkt hsrc => ?_
    by_contra hforward
    have hne : src ≠ deviceId := by
      rintro rfl
      rw [hheld] at hsrc
      cases hsrc
    have hid := packetId_of_held hsrc
    have hoffered : pkt.copy ∈ offers mesh.encounters deviceId :=
      (mem_offers hknown).mpr ⟨src, pkt, hne, by rw [hid, hsrc], by simpa using hforward, rfl⟩
    exact List.find?_eq_none.mp hfind _ hoffered (decide_eq_true hid)

/-! ### Uploads -/

/-- The devices with internet. -/
def bridges (mesh : Mesh) : List String :=
  (mesh.values.filter VirtualDevice.hasInternet).map VirtualDevice.deviceId

theorem nodup_bridges (mesh : Mesh) : mesh.bridges.Nodup :=
  (List.Sublist.map VirtualDevice.deviceId List.filter_sublist).nodup mesh.nodup

/-- The roster decides which devices are bridges. -/
theorem mem_bridges : deviceId ∈ mesh.bridges ↔ (deviceId, true) ∈ mesh.roster := by
  simp only [bridges, roster, List.mem_map, List.mem_filter, Prod.mk.injEq]
  constructor
  · rintro ⟨d, ⟨hd, hinternet⟩, rfl⟩
    exact ⟨d, hd, rfl, hinternet⟩
  · rintro ⟨d, hd, rfl, hinternet⟩
    exact ⟨d, ⟨hd, hinternet⟩, rfl⟩

theorem has_of_mem_bridges (h : deviceId ∈ mesh.bridges) : mesh.has deviceId = true :=
  has_iff_mem_roster.mpr (List.mem_map_of_mem (mem_bridges.mp h))

/-- The uploads are what the bridges hold. -/
theorem mem_collectBridgeUploads {up : Upload} :
    up ∈ mesh.collectBridgeUploads ↔
      up.bridgeNodeId ∈ mesh.bridges ∧
        mesh.held up.bridgeNodeId up.packet.packetId = some up.packet := by
  simp only [collectBridgeUploads, List.mem_flatMap, bridges, List.mem_map, List.mem_filter]
  constructor
  · rintro ⟨d, hd, hup⟩
    split at hup
    case isFalse => cases hup
    case isTrue hinternet =>
      obtain ⟨pkt, hpkt, rfl⟩ := List.mem_map.mp hup
      exact ⟨⟨d, ⟨hd, hinternet⟩, rfl⟩, (held_iff_mem hd).mpr hpkt⟩
  · rintro ⟨⟨d, ⟨hd, hinternet⟩, hid⟩, hheld⟩
    rw [← hid, held_iff_mem hd] at hheld
    refine ⟨d, hd, ?_⟩
    rw [if_pos hinternet, hid]
    exact List.mem_map.mpr ⟨up.packet, hheld, rfl⟩

/-- No bridge uploads two packets of one id. -/
theorem nodup_collectBridgeUploads (mesh : Mesh) :
    (mesh.collectBridgeUploads.map fun up => (up.bridgeNodeId, up.packet.packetId)).Nodup := by
  rw [collectBridgeUploads, List.map_flatMap, List.nodup_flatMap]
  constructor
  · intro d _
    split
    case isFalse => exact List.nodup_nil
    case isTrue =>
      have hids := d.heldPackets.nodup.map (Prod.mk_right_injective d.deviceId)
      rwa [List.map_map] at hids ⊢
  · have hdifferent := List.pairwise_map.mp mesh.nodup
    refine hdifferent.imp fun {d e} hne => ?_
    intro entry hd he
    beta_reduce at hd he
    split at hd
    case isFalse => cases hd
    case isTrue =>
    split at he
    case isFalse => cases he
    case isTrue =>
      simp only [List.map_map, List.mem_map, Function.comp_apply] at hd he
      obtain ⟨_, _, rfl⟩ := hd
      obtain ⟨_, _, heq⟩ := he
      exact hne (Prod.mk.inj heq).1.symm

end

end Mesh

end UpiOfflineMesh
