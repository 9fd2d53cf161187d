import UpiOfflineMesh.GossipSpread

/-!
# The trail of a copy

A copy does not say where it comes from, only how many hops it has left. Its trail is
kept beside the mesh: the device and the packet of the injection and the devices that
have handed it on since. The trail of a new copy is that of the first device to offer
it, with this device added. What the copy has lost of its TTL is the length of its
route, and only a copy with hops to go is handed on.
-/

namespace UpiOfflineMesh

open Js

/-! ### The device a copy comes from -/

namespace Mesh

/-- The first device to offer the packet to this one in a round, with its copy. -/
def firstOffer (mesh : Mesh) (deviceId packetId : String) : Option (String × MeshPacket) :=
  mesh.values.findSome? fun src =>
    if src.deviceId = deviceId then none
    else ((src.heldPackets.get packetId).filter MeshPacket.forwardable).map fun pkt =>
      (src.deviceId, pkt)

section

variable {mesh : Mesh} {deviceId packetId src : String} {pkt : MeshPacket}

/-- What is offered is held by another device and can be forwarded. -/
theorem held_of_firstOffer (h : mesh.firstOffer deviceId packetId = some (src, pkt)) :
    src ≠ deviceId ∧ mesh.held src packetId = some pkt ∧ pkt.forwardable = true := by
  obtain ⟨d, hd, hoffer⟩ := List.exists_of_findSome?_eq_some h
  by_cases hsame : d.deviceId = deviceId
  · simp [hsame] at hoffer
  · rw [if_neg hsame, Option.map_eq_some_iff] at hoffer
    obtain ⟨pkt', hpkt, heq⟩ := hoffer
    obtain ⟨rfl, rfl⟩ := Prod.mk.inj heq
    rw [Option.filter_eq_some_iff] at hpkt
    refine ⟨hsame, ?_, hpkt.2⟩
    rw [held_of_get (mesh.get_key_of_mem hd), hpkt.1]

/-- One device offers another a copy of each of its packets, and nothing to itself. -/
theorem offers_of_device (hknown : mesh.has deviceId = true) (d : VirtualDevice)
    (pkts : List MeshPacket) :
    offers (pkts.flatMap fun pkt =>
        (mesh.values.filter fun dst => dst.deviceId ≠ d.deviceId).map fun dst => (pkt, dst))
      deviceId = if d.deviceId = deviceId then [] else pkts.map MeshPacket.copy := by
  have hpeers : (mesh.values.filter fun dst => dst.deviceId ≠ d.deviceId).filter
      (fun dst => dst.deviceId = deviceId) =
        (mesh.get deviceId).toList.filter fun dst => dst.deviceId ≠ d.deviceId := by
    rw [List.filter_comm, KeyedMap.filter_key]
  obtain ⟨peer, hpeer⟩ := mesh.has_iff_get.mp hknown
  have hid := KeyedMap.key_of_get hpeer
  rw [offers, List.filter_flatMap, List.map_flatMap]
  simp only [List.filter_map, List.map_map, Function.comp_def, hpeers, hpeer, Option.toList_some]
  by_cases hsame : d.deviceId = deviceId
  · simp [hsame, hid]
  · simp [hsame, hid, Ne.symm hsame, List.map_eq_flatMap]

/-- The first copy of the packet among the offers of one device to another. -/
theorem find?_offers_of_device (hknown : mesh.has deviceId = true) (d : VirtualDevice) :
    (offers ((d.getHeldPackets.filter MeshPacket.forwardable).flatMap fun pkt =>
        (mesh.values.filter fun dst => dst.deviceId ≠ d.deviceId).map fun dst => (pkt, dst))
      deviceId).find? (fun pkt => pkt.packetId = packetId) =
    if d.deviceId = deviceId then none
    else ((d.heldPackets.get packetId).filter MeshPacket.forwardable).map MeshPacket.copy := by
  rw [offers_of_device hknown]
  split
  case isTrue => rfl
  case isFalse =>
    rw [List.find?_map, ← KeyedMap.get_filter]
    rfl

/-- **A new copy is that of the first device to offer it.** -/
theorem held_gossipOnce_firstOffer (hknown : mesh.has deviceId = true) :
    held mesh.gossipOnce.2 deviceId packetId = (mesh.held deviceId packetId).or
      ((mesh.firstOffer deviceId packetId).map fun offer => offer.2.copy) := by
  rw [held_gossipOnce mesh deviceId packetId hknown]
  congr 1
  have hoffers : offers mesh.encounters deviceId = mesh.values.flatMap fun d =>
      offers ((d.getHeldPackets.filter MeshPacket.forwardable).flatMap fun pkt =>
        (mesh.values.filter fun dst => dst.deviceId ≠ d.deviceId).map fun dst => (pkt, dst))
      deviceId := by
    rw [offers, encounters, List.filter_flatMap, List.map_flatMap]
    rfl
  rw [hoffers, List.find?_flatMap, firstOffer, List.map_findSome?]
  simp only [find?_offers_of_device hknown]
  congr 1
  funext d
  by_cases hsame : d.deviceId = deviceId
  · simp [hsame]
  · simp [hsame, Function.comp_def]

end

end Mesh

open Mesh

/-! ### Trails -/

/-- How a copy has come to its device. -/
structure Trail where
  /-- The device at which it was injected. -/
  home : String
  /-- The packet as it was injected. -/
  sent : MeshPacket
  /-- The devices that have handed it on, one for each transfer. -/
  route : List String

/-- The copy at the end of a trail: every transfer has cost one hop. -/
def Trail.copy (trail : Trail) : MeshPacket :=
  { trail.sent with ttl := trail.sent.ttl.sub (.fin (trail.route.length : ℚ)) }

/-- The trail of the copy that this device hands on. -/
def Trail.handedOn (trail : Trail) (src : String) : Trail :=
  { trail with route := trail.route ++ [src] }

/-- The trail of a copy, by its device and packet id. -/
abbrev Trails := String → String → Option Trail

/-- An event of the mesh, seen from the trails: an injection starts the trail of a packet
that is new to the device, and a transfer in a round extends the trail of the copy that
was handed over. -/
def Trails.next (trails : Trails) (mesh : Mesh) : MeshEvent → Trails
  | .inject home packet => fun deviceId packetId =>
    if mesh.has home = true ∧ home = deviceId ∧ packet.packetId = packetId then
      (trails deviceId packetId).or (some ⟨home, packet, []⟩)
    else trails deviceId packetId
  | .gossip => fun deviceId packetId =>
    if mesh.has deviceId = true then
      (trails deviceId packetId).or ((mesh.firstOffer deviceId packetId).bind fun offer =>
        (trails offer.1 packetId).map fun trail => trail.handedOn offer.1)
    else trails deviceId packetId
  | .reset => fun _ _ => none

section

variable {trails : Trails} {mesh : Mesh} {deviceId packetId home : String} {packet : MeshPacket}

theorem Trails.next_inject : trails.next mesh (.inject home packet) deviceId packetId =
    if mesh.has home = true ∧ home = deviceId ∧ packet.packetId = packetId then
      (trails deviceId packetId).or (some ⟨home, packet, []⟩)
    else trails deviceId packetId := rfl

theorem Trails.next_gossip : trails.next mesh .gossip deviceId packetId =
    if mesh.has deviceId = true then
      (trails deviceId packetId).or ((mesh.firstOffer deviceId packetId).bind fun offer =>
        (trails offer.1 packetId).map fun trail => trail.handedOn offer.1)
    else trails deviceId packetId := rfl

end

/-- The simulator with the trails of its copies. -/
def trackedMesh : Machine (Mesh × Trails) MeshEvent (Except Error (Option GossipResult)) where
  step state event :=
    ((meshMachine.step state.1 event).1, meshMachine.next state.1 event, state.2.next state.1 event)

/-- The trails after some events on devices that were empty. -/
def trailsAfter (start : Mesh) (events : List MeshEvent) : Trails :=
  (trackedMesh.final (start, fun _ _ => none) events).2

theorem fst_final_trackedMesh (state : Mesh × Trails) (events : List MeshEvent) :
    (trackedMesh.final state events).1 = meshMachine.final state.1 events := by
  induction events generalizing state with
  | nil => rfl
  | cons event events ih => exact ih _

/-- The copies are those at the ends of the trails. -/
def Tracked (state : Mesh × Trails) : Prop :=
  ∀ deviceId packetId, state.1.held deviceId packetId =
    (state.2 deviceId packetId).map Trail.copy

/-- A fresh packet has lost no hop. -/
theorem Trail.copy_injected (home : String) (packet : MeshPacket) :
    (Trail.mk home packet []).copy = packet := by
  rw [Trail.copy, List.length_nil, Nat.cast_zero, Number.sub_zero]

/-- Handing a copy on costs it one hop. -/
theorem Trail.copy_handedOn (trail : Trail) (src : String) :
    (trail.handedOn src).copy = trail.copy.copy := by
  rw [Trail.copy, Trail.copy, Trail.handedOn, MeshPacket.copy, List.length_append,
    List.length_singleton, Nat.cast_add, Nat.cast_one, Number.sub_sub]

/-- **Trails keep up with the copies,** whatever happens to the mesh. -/
theorem Tracked.next {state : Mesh × Trails} (h : Tracked state) (event : MeshEvent) :
    Tracked (trackedMesh.next state event) := by
  obtain ⟨mesh, trails⟩ := state
  have hbefore : ∀ deviceId packetId,
      mesh.held deviceId packetId = (trails deviceId packetId).map Trail.copy := h
  intro deviceId packetId
  change held (meshMachine.next mesh event) deviceId packetId =
    (trails.next mesh event deviceId packetId).map Trail.copy
  cases event with
  | reset => exact held_resetMesh
  | inject home packet =>
    rw [held_next_inject, Trails.next_inject, hbefore]
    split
    case isFalse => rfl
    case isTrue =>
      cases trails deviceId packetId with
      | none => simp [Trail.copy_injected]
      | some trail => rfl
  | gossip =>
    rw [next_gossip, Trails.next_gossip]
    split
    case isFalse hunknown =>
      have hbefore' := Bool.eq_false_of_not_eq_true hunknown
      have hafter := (has_eq_of_roster_eq (roster_gossipOnce mesh) deviceId).trans hbefore'
      rw [held_eq_none_of_not_has hafter, ← hbefore, held_eq_none_of_not_has hbefore']
    case isTrue hknown =>
      rw [held_gossipOnce_firstOffer hknown, hbefore]
      cases trails deviceId packetId with
      | some trail => rfl
      | none =>
        cases hoffer : mesh.firstOffer deviceId packetId with
        | none => rfl
        | some offer =>
          -- The sender's copy is at the end of the sender's trail.
          have hheld := (held_of_firstOffer hoffer).2.1
          rw [hbefore, Option.map_eq_some_iff] at hheld
          obtain ⟨trail, htrail, hcopy⟩ := hheld
          simp [htrail, Trail.copy_handedOn, hcopy]

/-- Empty devices have no trails. -/
theorem tracked_of_empty {start : Mesh}
    (hempty : ∀ device ∈ start.values, device.heldPackets = .empty) :
    Tracked (start, fun _ _ => none) :=
  fun deviceId packetId => nowhere_of_empty hempty packetId deviceId

/-! ### Where trails come from -/

/-- How a device has come to a trail: it had it before, or an injection began it there,
or the first device to offer the packet handed its own on. -/
inductive TrailStep (mesh : Mesh) (trails : Trails) (event : MeshEvent)
    (deviceId packetId : String) : Trail → Prop
  | kept (trail : Trail) (hbefore : trails deviceId packetId = some trail) :
      TrailStep mesh trails event deviceId packetId trail
  | injected (packet : MeshPacket) (hevent : event = .inject deviceId packet)
      (hid : packet.packetId = packetId) :
      TrailStep mesh trails event deviceId packetId ⟨deviceId, packet, []⟩
  | handedOn (src : String) (pkt : MeshPacket) (trail : Trail) (hevent : event = .gossip)
      (hoffer : mesh.firstOffer deviceId packetId = some (src, pkt))
      (hsender : trails src packetId = some trail) :
      TrailStep mesh trails event deviceId packetId (trail.handedOn src)

theorem Trails.step {mesh : Mesh} {trails : Trails} {event : MeshEvent} {deviceId packetId : String}
    {trail : Trail} (h : trails.next mesh event deviceId packetId = some trail) :
    TrailStep mesh trails event deviceId packetId trail := by
  cases event with
  | reset => cases h
  | inject home packet =>
    rw [Trails.next_inject] at h
    split at h
    case isFalse => exact .kept trail h
    case isTrue hinjected =>
      obtain ⟨-, rfl, hid⟩ := hinjected
      rcases Option.or_eq_some_iff.mp h with hbefore | ⟨-, hnew⟩
      · exact .kept trail hbefore
      · obtain rfl := Option.some.inj hnew
        exact .injected packet rfl hid
  | gossip =>
    rw [Trails.next_gossip] at h
    split at h
    case isFalse => exact .kept trail h
    case isTrue =>
      rcases Option.or_eq_some_iff.mp h with hbefore | ⟨-, hnew⟩
      · exact .kept trail hbefore
      · obtain ⟨⟨src, pkt⟩, hoffer, hmap⟩ := Option.bind_eq_some_iff.mp hnew
        obtain ⟨old, hsender, rfl⟩ := Option.map_eq_some_iff.mp hmap
        exact .handedOn src pkt old rfl hoffer hsender

/-- A trail begins at an injection among these events, and a TTL of whole hops is enough
for its route. -/
structure Grounded (events : List MeshEvent) (trail : Trail) : Prop where
  injected : .inject trail.home trail.sent ∈ events
  covered : ∀ T : ℤ, trail.sent.ttl = .fin (T : ℚ) → trail.route ≠ [] → trail.route.length ≤ T

/-- The mesh with its trails, in a run of these events. -/
structure WellTracked (events : List MeshEvent) (state : Mesh × Trails) : Prop where
  tracked : Tracked state
  grounded : ∀ deviceId packetId trail, state.2 deviceId packetId = some trail →
    Grounded events trail

/-- A trail is handed on only while hops are left. -/
theorem WellTracked.next {events : List MeshEvent} {state : Mesh × Trails}
    (h : WellTracked events state) {event : MeshEvent} (hevent : event ∈ events) :
    WellTracked events (trackedMesh.next state event) := by
  refine ⟨h.tracked.next event, fun deviceId packetId trail htrail => ?_⟩
  cases Trails.step htrail with
  | kept trail hbefore => exact h.grounded deviceId packetId trail hbefore
  | injected packet heq hid =>
    subst heq
    exact ⟨hevent, fun T _ hroute => absurd rfl hroute⟩
  | handedOn src pkt trail heq hoffer hsender =>
    obtain ⟨hinjected, -⟩ := h.grounded src packetId trail hsender
    refine ⟨hinjected, fun T httl _ => ?_⟩
    -- The copy at the sender has what is left after the route so far.
    obtain ⟨-, hheld, hforward⟩ := held_of_firstOffer hoffer
    have hcopy : pkt = trail.copy := by
      have hend := h.tracked src packetId
      rw [hheld, hsender, Option.map_some] at hend
      exact Option.some.inj hend
    have hleft : pkt.ttl = .fin ((T - trail.route.length : ℤ) : ℚ) := by
      have httl' : trail.sent.ttl = .fin (T : ℚ) := httl
      rw [hcopy, Trail.copy, httl', Number.sub_fin]
      push_cast
      rfl
    have hhops := (MeshPacket.forwardable_iff hleft).mp hforward
    change ((trail.route ++ [src]).length : ℤ) ≤ T
    rw [List.length_append, List.length_singleton]
    omega

/-- **Every copy has a trail.** A copy held in a run from empty devices is at the end of
its trail, which begins at an injection of the run and is no longer than its TTL. -/
theorem exists_trail {start : Mesh} (hempty : ∀ device ∈ start.values, device.heldPackets = .empty)
    {events : List MeshEvent} {deviceId packetId : String} {copy : MeshPacket}
    (hheld : (meshMachine.final start events).held deviceId packetId = some copy) :
    ∃ trail, trailsAfter start events deviceId packetId = some trail ∧ copy = trail.copy ∧
      Grounded events trail := by
  have hinit : WellTracked events (start, fun _ _ => none) :=
    ⟨tracked_of_empty hempty, fun deviceId packetId trail htrail => by cases htrail⟩
  have hrun := Machine.invariant (I := WellTracked events)
    (fun state event hevent h => h.next hevent) hinit fun event hevent => hevent
  have hmesh := fst_final_trackedMesh (start, fun _ _ => none) events
  have hend := hrun.tracked deviceId packetId
  rw [hmesh, hheld, eq_comm, Option.map_eq_some_iff] at hend
  obtain ⟨trail, htrail, hcopy⟩ := hend
  exact ⟨trail, htrail, hcopy.symm, hrun.grounded deviceId packetId trail htrail⟩

end UpiOfflineMesh
