import UpiOfflineMesh.MeshSimulatorService

/-!
# Where a packet can be

After its injection a packet sits on its own phone until a round finds it
forwardable and puts a copy on every other phone; later rounds add nothing, and
only a reset takes it away. The three situations are an invariant of all events
that do not inject a packet of the same id.
-/

namespace UpiOfflineMesh

open Js Mesh

/-- What can happen to the mesh. -/
inductive MeshEvent where
  | inject (senderDeviceId : String) (packet : MeshPacket)
  | gossip
  | reset

/-- The packet of an injection. -/
def MeshEvent.injected : MeshEvent → Option MeshPacket
  | .inject _ packet => some packet
  | _ => none

/-- The packets injected by some events. -/
def injections (events : List MeshEvent) : List MeshPacket := events.filterMap MeshEvent.injected

/-- The simulator as a machine. An injection at an unknown device throws. -/
def meshMachine : Machine Mesh MeshEvent (Except Error (Option GossipResult)) where
  step mesh
    | .inject senderDeviceId packet =>
      match mesh.inject senderDeviceId packet with
      | .error err => (.error err, mesh)
      | .ok mesh => (.ok none, mesh)
    | .gossip =>
      let (result, mesh) := mesh.gossipOnce
      (.ok (some result), mesh)
    | .reset => (.ok none, mesh.resetMesh)

section

variable {mesh : Mesh} {home packetId : String} {packet : MeshPacket} {event : MeshEvent}

@[simp] theorem next_gossip : meshMachine.next mesh .gossip = mesh.gossipOnce.2 := rfl

@[simp] theorem next_reset : meshMachine.next mesh .reset = mesh.resetMesh := rfl

/-- What a device holds after an injection. -/
theorem held_next_inject (deviceId : String) :
    held (meshMachine.next mesh (.inject home packet)) deviceId packetId =
      if mesh.has home = true ∧ home = deviceId ∧ packet.packetId = packetId then
        (mesh.held deviceId packetId).or (some packet)
      else mesh.held deviceId packetId := by
  cases hget : mesh.get home with
  | none =>
    have hunknown : mesh.has home = false := mesh.has_eq_false_iff.mpr hget
    simp [Machine.next, meshMachine, inject, hget, hunknown]
  | some d =>
    have hknown : mesh.has home = true := KeyedMap.has_of_get hget
    have hnext : meshMachine.next mesh (.inject home packet) = mesh.set (d.hold packet) := by
      simp [Machine.next, meshMachine, inject_of_get hget]
    rw [hnext, held_set_hold hget]
    by_cases hsame : home = deviceId
    · by_cases hid : packet.packetId = packetId
      · simp [hsame, hid, ← hknown]
      · simp [hsame, hid]
    · simp [hsame]

/-- No event changes the devices themselves. -/
theorem roster_next (mesh : Mesh) (event : MeshEvent) :
    roster (meshMachine.next mesh event) = mesh.roster := by
  cases event with
  | gossip => exact roster_gossipOnce mesh
  | reset => exact roster_resetMesh
  | inject home packet =>
    cases hget : mesh.get home with
    | none => simp [Machine.next, meshMachine, inject, hget]
    | some d =>
      simp only [Machine.next, meshMachine, inject_of_get hget]
      exact roster_set_hold hget packet

theorem roster_final (mesh : Mesh) (events : List MeshEvent) :
    roster (meshMachine.final mesh events) = mesh.roster :=
  Machine.invariant_all (I := fun later => roster later = mesh.roster)
    (fun later event h => (roster_next later event).trans h) rfl events

/-- The bridges stay the same. -/
theorem mem_bridges_final {bridgeNodeId : String} {events : List MeshEvent} :
    bridgeNodeId ∈ (meshMachine.final mesh events).bridges ↔ bridgeNodeId ∈ mesh.bridges := by
  rw [mem_bridges, mem_bridges, roster_final]

/-! ### Situations -/

/-- No device holds the packet. -/
def Nowhere (mesh : Mesh) (packetId : String) : Prop :=
  ∀ deviceId, mesh.held deviceId packetId = none

/-- Its own device holds the packet and no other does. -/
def Alone (mesh : Mesh) (home : String) (packet : MeshPacket) : Prop :=
  ∀ deviceId, mesh.held deviceId packet.packetId = if deviceId = home then some packet else none

/-- Its own device holds the packet and all others hold a copy with one hop less. -/
def Everywhere (mesh : Mesh) (home : String) (packet : MeshPacket) : Prop :=
  packet.forwardable = true ∧ ∀ deviceId, mesh.has deviceId = true →
    mesh.held deviceId packet.packetId = some (if deviceId = home then packet else packet.copy)

/-- The event injects no packet of this id. -/
def MeshEvent.Spares (packetId : String) (event : MeshEvent) : Prop :=
  ∀ packet, event.injected = some packet → packet.packetId ≠ packetId

/-- Injecting another packet changes nothing for this one. -/
theorem held_next_inject_of_spares {senderDeviceId : String}
    (h : (MeshEvent.inject senderDeviceId packet).Spares packetId) (deviceId : String) :
    held (meshMachine.next mesh (.inject senderDeviceId packet)) deviceId packetId =
      mesh.held deviceId packetId := by
  rw [held_next_inject, if_neg fun hsame => h packet rfl hsame.2.2]

/-- What is nowhere stays nowhere. -/
theorem Nowhere.next (h : Nowhere mesh packetId) (hspares : event.Spares packetId) :
    Nowhere (meshMachine.next mesh event) packetId := by
  intro deviceId
  cases event with
  | inject senderDeviceId packet => rw [held_next_inject_of_spares hspares, h]
  | reset => exact held_resetMesh
  | gossip =>
    have heffect := gossip_effect mesh deviceId packetId
    rw [next_gossip]
    generalize held mesh.gossipOnce.2 deviceId packetId = after at heffect ⊢
    cases heffect with
    | kept pkt hheld => simp [h deviceId] at hheld
    | received src pkt hnew hheld => simp [h src] at hheld
    | nothing => rfl

/-- A round brings a forwardable packet everywhere and leaves any other alone. -/
theorem Alone.gossip (h : Alone mesh home packet) :
    (packet.forwardable = true → Everywhere mesh.gossipOnce.2 home packet) ∧
      (packet.forwardable = false → Alone mesh.gossipOnce.2 home packet) := by
  -- The only copy there is is the packet itself, at home.
  have hsource : ∀ src pkt, mesh.held src packet.packetId = some pkt → src = home ∧ pkt = packet := by
    intro src pkt hheld
    rw [h src] at hheld
    split at hheld
    case isTrue hsame => exact ⟨hsame, (Option.some.inj hheld).symm⟩
    case isFalse => cases hheld
  have hhome : mesh.held home packet.packetId = some packet := by rw [h home, if_pos rfl]
  constructor
  · intro hforward
    refine ⟨hforward, fun deviceId hknown => ?_⟩
    rw [has_eq_of_roster_eq (roster_gossipOnce mesh)] at hknown
    have heffect := gossip_effect mesh deviceId packet.packetId
    generalize held mesh.gossipOnce.2 deviceId packet.packetId = after at heffect ⊢
    cases heffect with
    | kept pkt hheld =>
      obtain ⟨rfl, rfl⟩ := hsource deviceId pkt hheld
      rw [if_pos rfl]
    | received src pkt hnew hheld =>
      obtain ⟨rfl, rfl⟩ := hsource src pkt hheld
      rw [if_neg (by rintro rfl; simp [hhome] at hnew)]
    | nothing hnew hnone =>
      rw [hnone hknown home packet hhome] at hforward
      cases hforward
  · intro hforward deviceId
    have heffect := gossip_effect mesh deviceId packet.packetId
    generalize held mesh.gossipOnce.2 deviceId packet.packetId = after at heffect ⊢
    cases heffect with
    | kept pkt hheld => rw [← h deviceId, hheld]
    | received src pkt hnew hheld hcopy =>
      rw [(hsource src pkt hheld).2, hforward] at hcopy
      cases hcopy
    | nothing hnew => rw [← h deviceId, hnew]

/-- What is everywhere stays there, copies and all, until a reset. -/
theorem Everywhere.next (h : Everywhere mesh home packet) (hspares : event.Spares packet.packetId)
    (hreset : event ≠ .reset) : Everywhere (meshMachine.next mesh event) home packet := by
  refine ⟨h.1, fun deviceId hknown => ?_⟩
  rw [has_eq_of_roster_eq (roster_next mesh event)] at hknown
  have hheld := h.2 deviceId hknown
  cases event with
  | inject senderDeviceId other => rw [held_next_inject_of_spares hspares, hheld]
  | reset => exact absurd rfl hreset
  | gossip =>
    have heffect := gossip_effect mesh deviceId packet.packetId
    rw [next_gossip, ← hheld]
    generalize held mesh.gossipOnce.2 deviceId packet.packetId = after at heffect ⊢
    cases heffect with
    | kept pkt hkept => exact hkept.symm
    | received src pkt hnew => simp [hnew] at hheld
    | nothing hnew => exact hnew.symm

/-- The packet is still in the mesh. -/
def Spread (mesh : Mesh) (home : String) (packet : MeshPacket) : Prop :=
  Alone mesh home packet ∨ Everywhere mesh home packet

theorem Spread.next (h : Spread mesh home packet) (hspares : event.Spares packet.packetId)
    (hreset : event ≠ .reset) : Spread (meshMachine.next mesh event) home packet := by
  rcases h with halone | heverywhere
  · cases event with
    | inject senderDeviceId other =>
      exact Or.inl fun deviceId => by rw [held_next_inject_of_spares hspares, halone]
    | reset => exact absurd rfl hreset
    | gossip =>
      cases hforward : packet.forwardable with
      | true => exact Or.inr (halone.gossip.1 hforward)
      | false => exact Or.inl (halone.gossip.2 hforward)
  · exact Or.inr (heverywhere.next hspares hreset)

/-- Injecting a new packet at a known device puts it there and nowhere else. -/
theorem Nowhere.inject (h : Nowhere mesh packet.packetId) (hknown : mesh.has home = true) :
    Alone (meshMachine.next mesh (.inject home packet)) home packet := by
  intro deviceId
  rw [held_next_inject, h deviceId]
  by_cases hsame : deviceId = home
  · simp [hsame, hknown]
  · simp [hsame, Ne.symm hsame]

/-! ### Origins -/

/-- Every held copy agrees with one of these packets in all fields but its TTL. -/
def StemsFrom (packets : List MeshPacket) (mesh : Mesh) : Prop :=
  ∀ deviceId packetId copy, mesh.held deviceId packetId = some copy →
    ∃ packet ∈ packets, copy = { packet with ttl := copy.ttl }

/-- Rounds copy what is there, and an injection adds its packet. -/
theorem StemsFrom.next {packets : List MeshPacket} (h : StemsFrom packets mesh)
    (hinjected : ∀ packet, event.injected = some packet → packet ∈ packets) :
    StemsFrom packets (meshMachine.next mesh event) := by
  intro deviceId packetId copy hcopy
  cases event with
  | reset =>
    rw [next_reset, held_resetMesh] at hcopy
    cases hcopy
  | inject home packet =>
    rw [held_next_inject] at hcopy
    split at hcopy
    case isFalse => exact h deviceId packetId copy hcopy
    case isTrue =>
      cases hheld : mesh.held deviceId packetId with
      | none =>
        rw [hheld, Option.none_or, Option.some.injEq] at hcopy
        rw [← hcopy]
        exact ⟨packet, hinjected packet rfl, rfl⟩
      | some old =>
        rw [hheld, Option.some_or, Option.some.injEq] at hcopy
        rw [← hcopy]
        exact h deviceId packetId old hheld
  | gossip =>
    have heffect := gossip_effect mesh deviceId packetId
    rw [next_gossip] at hcopy
    rw [hcopy] at heffect
    cases heffect with
    | kept pkt hheld => exact h deviceId packetId _ hheld
    | received src pkt hnew hheld =>
      obtain ⟨packet, hpacket, heq⟩ := h src packetId pkt hheld
      refine ⟨packet, hpacket, ?_⟩
      rw [MeshPacket.copy, heq]

end

/-! ### Runs -/

section

variable {start : Mesh} {before after events : List MeshEvent} {home : String}
  {packet : MeshPacket}

/-- Empty devices hold nothing. -/
theorem nowhere_of_empty (hempty : ∀ device ∈ start.values, device.heldPackets = .empty)
    (packetId : String) : Nowhere start packetId := by
  intro deviceId
  rw [held, Option.bind_eq_none_iff]
  intro device hdevice
  rw [hempty device (KeyedMap.mem_of_get hdevice), KeyedMap.get_empty]

/-- Every copy held during a run from empty devices stems from an injection. -/
theorem stemsFrom_final (hempty : ∀ device ∈ start.values, device.heldPackets = .empty)
    (events : List MeshEvent) : StemsFrom (injections events) (meshMachine.final start events) := by
  have hstep : ∀ (mesh : Mesh) (event : MeshEvent), event ∈ events →
      StemsFrom (injections events) mesh →
        StemsFrom (injections events) (meshMachine.next mesh event) :=
    fun mesh event hevent h => h.next fun packet hpacket =>
      List.mem_filterMap.mpr ⟨event, hevent, hpacket⟩
  refine Machine.invariant hstep ?_ fun _ h => h
  intro deviceId packetId copy hcopy
  rw [nowhere_of_empty hempty packetId deviceId] at hcopy
  cases hcopy

/-- Distinct ids, seen from one injection of the run. -/
theorem spares_of_distinct
    (hdistinct : ((injections (before ++ .inject home packet :: after)).map
      MeshPacket.packetId).Nodup) :
    (∀ other ∈ injections before, other.packetId ≠ packet.packetId) ∧
      ∀ event ∈ after, event.Spares packet.packetId := by
  have hsplit : injections (before ++ .inject home packet :: after) =
      injections before ++ packet :: injections after := by
    rw [injections, List.filterMap_append, List.filterMap_cons]
    rfl
  rw [hsplit, List.map_append, List.map_cons] at hdistinct
  obtain ⟨hnew, -⟩ := List.nodup_cons.mp (List.nodup_middle.mp hdistinct)
  rw [← List.map_append] at hnew
  constructor
  · intro other hother heq
    exact hnew (List.mem_map.mpr ⟨other, List.mem_append_left _ hother, heq⟩)
  · intro event hevent other hother heq
    exact hnew (List.mem_map.mpr
      ⟨other, List.mem_append_right _ (List.mem_filterMap.mpr ⟨event, hevent, hother⟩), heq⟩)

/-- Right after its injection a packet is alone. -/
theorem alone_of_injected (hempty : ∀ device ∈ start.values, device.heldPackets = .empty)
    (hnew : ∀ other ∈ injections before, other.packetId ≠ packet.packetId)
    (hknown : start.has home = true) :
    Alone (meshMachine.next (meshMachine.final start before) (.inject home packet)) home packet := by
  apply Nowhere.inject _ ((has_eq_of_roster_eq (roster_final start before) home).trans hknown)
  intro deviceId
  rw [Option.eq_none_iff_forall_ne_some]
  intro copy hcopy
  obtain ⟨other, hother, heq⟩ := stemsFrom_final hempty before deviceId packet.packetId copy hcopy
  have hid := packetId_of_held hcopy
  rw [heq] at hid
  exact hnew other hother hid

/-- Without a reset an injected packet stays in the mesh. -/
theorem spread_of_injected (hempty : ∀ device ∈ start.values, device.heldPackets = .empty)
    (hdistinct : ((injections (before ++ .inject home packet :: after)).map
      MeshPacket.packetId).Nodup)
    (hknown : start.has home = true) (hreset : .reset ∉ after) :
    Spread (meshMachine.final start (before ++ .inject home packet :: after)) home packet := by
  obtain ⟨hnew, hspares⟩ := spares_of_distinct hdistinct
  rw [Machine.final_append, Machine.final_cons]
  have hstep : ∀ (mesh : Mesh) (event : MeshEvent),
      event.Spares packet.packetId ∧ event ≠ .reset → Spread mesh home packet →
        Spread (meshMachine.next mesh event) home packet :=
    fun mesh event hevent h => h.next hevent.1 hevent.2
  refine Machine.invariant hstep (Or.inl (alone_of_injected hempty hnew hknown))
    fun event hevent => ⟨hspares event hevent, ?_⟩
  rintro rfl
  exact hreset hevent

end

/-- The default devices at start-up. -/
def defaultMesh : Mesh := seedDefaultDevices .empty

theorem defaultMesh_empty : ∀ device ∈ defaultMesh.values, device.heldPackets = .empty := by
  decide +kernel

end UpiOfflineMesh
