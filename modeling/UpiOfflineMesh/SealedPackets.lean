import UpiOfflineMesh.AlikeMeshes
import UpiOfflineMesh.HopCount

/-!
# Sealed packets

The mesh looks at the outside of a packet, its id and its hops to go, and never at what is
inside. Two runs whose packets differ only inside are therefore the same from outside: the
rounds report the same, the phones show the same, and the bridges upload on the same ways.
-/

namespace UpiOfflineMesh

open Js Mesh

/-! ### The outside -/

/-- A packet as it looks from outside: without contents and date. -/
def MeshPacket.outside (packet : MeshPacket) : MeshPacket :=
  { packet with createdAt := .nan, ciphertext := "" }

@[simp] theorem MeshPacket.packetId_outside (packet : MeshPacket) :
    packet.outside.packetId = packet.packetId := rfl

/-- A phone with the outsides of its packets. -/
def VirtualDevice.outside (device : VirtualDevice) : VirtualDevice :=
  { device with
    heldPackets := device.heldPackets.mapValues MeshPacket.outside MeshPacket.packetId_outside }

@[simp] theorem VirtualDevice.deviceId_outside (device : VirtualDevice) :
    device.outside.deviceId = device.deviceId := rfl

/-- The mesh with the outsides of all packets. -/
def Mesh.outside (mesh : Mesh) : Mesh :=
  mesh.mapValues VirtualDevice.outside VirtualDevice.deviceId_outside

/-- An event with the outside of the packet that it injects. -/
def MeshEvent.outside : MeshEvent → MeshEvent
  | .inject senderDeviceId packet => .inject senderDeviceId packet.outside
  | .gossip => .gossip
  | .reset => .reset

/-- What a client is told about an upload before the server has looked at it. -/
def Upload.way (up : Upload) : String × String × Number :=
  (up.bridgeNodeId, up.packet.packetId, up.hopCount)

section

variable {mesh mesh' : Mesh}

/-- From the outside one knows id and hops to go. -/
theorem MeshPacket.alike_of_outside {packet packet' : MeshPacket}
    (h : packet.outside = packet'.outside) : packet.Alike (fun _ _ => True) packet' := by
  obtain ⟨hid, httl, -, -⟩ := MeshPacket.mk.inj h
  exact ⟨hid, httl, trivial⟩

/-- Equal pictures of two lists are equal pictures one by one. -/
theorem forall₂_of_map_eq {α β : Type} {f : α → β} {l l' : List α} (h : l.map f = l'.map f) :
    List.Forall₂ (fun a a' => f a = f a') l l' := by
  rw [← List.forall₂_eq_eq_eq, List.forall₂_map_left_iff, List.forall₂_map_right_iff] at h
  exact h

theorem VirtualDevice.alike_of_outside {d d' : VirtualDevice} (h : d.outside = d'.outside) :
    d.Alike (fun _ _ => True) d' := by
  obtain ⟨hid, hinternet, hheld⟩ := VirtualDevice.mk.inj h
  have hvalues : d.heldPackets.values.map MeshPacket.outside =
      d'.heldPackets.values.map MeshPacket.outside := congrArg KeyedMap.values hheld
  exact ⟨hid, hinternet,
    (forall₂_of_map_eq hvalues).imp fun _ _ => MeshPacket.alike_of_outside⟩

/-- Meshes that look the same from outside look alike. -/
theorem Mesh.alike_of_outside (h : mesh.outside = mesh'.outside) :
    mesh.Alike (fun _ _ => True) mesh' := by
  have hvalues : mesh.values.map VirtualDevice.outside = mesh'.values.map VirtualDevice.outside :=
    congrArg KeyedMap.values h
  exact (forall₂_of_map_eq hvalues).imp fun _ _ => VirtualDevice.alike_of_outside

/-- So do events. -/
theorem MeshEvent.alike_of_outside {event event' : MeshEvent} (h : event.outside = event'.outside) :
    event.Alike (fun _ _ => True) event' := by
  cases event with
  | inject home packet =>
    cases event' with
    | inject home' packet' =>
      obtain ⟨rfl, hpacket⟩ := MeshEvent.inject.inj h
      exact .inject home (MeshPacket.alike_of_outside hpacket)
    | gossip => cases h
    | reset => cases h
  | gossip =>
    cases event' with
    | inject home' packet' => cases h
    | gossip => exact .gossip
    | reset => cases h
  | reset =>
    cases event' with
    | inject home' packet' => cases h
    | gossip => cases h
    | reset => exact .reset

/-! ### What is seen from outside -/

/-- What a response tells about a round. -/
def AppResponse.rounds : AppResponse → List GossipResult
  | .gossip result => [result]
  | _ => []

/-- What the simulator tells about a round. -/
def roundsOf : Except Error (Option GossipResult) → List GossipResult
  | .ok (some result) => [result]
  | _ => []

/-- The rounds of the application are those of the simulator. -/
theorem rounds_transitions (api : Api) (state : AppState) (events : List AppEvent) :
    (api.machine.transitions state events).flatMap (fun t => t.output.rounds) =
      (meshMachine.transitions state.mesh (events.flatMap api.meshEvents)).flatMap
        fun t => roundsOf t.output := by
  refine @Machine.projection_answers _ _ _ _ _ _ _ api.machine meshMachine AppState.mesh
    api.meshEvents AppResponse.rounds roundsOf ?_ ?_ state events
  · intro state event
    have hmesh := @Api.mesh_final api state [event]
    rw [List.flatMap_singleton] at hmesh
    exact hmesh
  · intro state event
    cases event with
    | demoSend body draw =>
      change [] = (meshMachine.transitions state.mesh (Api.sendEvents
        (api.prepareSend body draw))).flatMap fun t => roundsOf t.output
      generalize api.prepareSend body draw = prepared
      unfold Api.sendEvents
      split
      case h_1 senderDeviceId packet =>
        simp only [Machine.transitions_cons, Machine.transitions_nil, List.flatMap_cons,
          List.flatMap_nil, Machine.output_transition, meshMachine]
        cases inject state.mesh senderDeviceId packet with
        | error err => rfl
        | ok mesh => rfl
      case h_2 => rfl
    | _ => rfl

/-- Uploads that look alike go the same way. -/
theorem Upload.way_eq {C : String → String → Prop} {up up' : Upload} (h : up.Alike C up') :
    up.way = up'.way := by
  rw [Upload.way, Upload.way, Upload.hopCount, Upload.hopCount, h.bridgeNodeId, h.packet.packetId,
    h.packet.ttl]

end

/-- **Contents stay sealed.** In two runs of the application, with whatever primitives and
server requests, let the meshes at the start look the same from outside, and let the
injections, rounds and resets be the same but for the insides of the packets. Then the
rounds report the same, one by one; afterwards `/mesh/state` shows the same phones; and the
bridges upload packets with the same ids and hop counts in the same order. -/
theorem contents_sealed (api api' : Api) (state state' : AppState) (events events' : List AppEvent)
    (hstart : state.mesh.outside = state'.mesh.outside)
    (hevents : (events.flatMap api.meshEvents).map MeshEvent.outside =
      (events'.flatMap api'.meshEvents).map MeshEvent.outside) :
    (api.machine.transitions state events).flatMap (fun t => t.output.rounds) =
      (api'.machine.transitions state' events').flatMap (fun t => t.output.rounds) ∧
    (api.machine.final state events).meshState.devices =
      (api'.machine.final state' events').meshState.devices ∧
    (api.machine.final state events).mesh.collectBridgeUploads.map Upload.way =
      (api'.machine.final state' events').mesh.collectBridgeUploads.map Upload.way := by
  have hevents' := (forall₂_of_map_eq hevents).imp fun _ _ => MeshEvent.alike_of_outside
  obtain ⟨hanswers, hfinal⟩ := Machine.simulation (O := Eq)
    (fun _ _ _ _ hmesh hevent => meshMachine_alike hmesh hevent) (Mesh.alike_of_outside hstart)
    hevents'
  rw [← Api.mesh_final, ← Api.mesh_final] at hfinal
  refine ⟨?_, hfinal.devices, ?_⟩
  · rw [List.forall₂_eq_eq_eq] at hanswers
    have hrounds := congrArg (fun answers => answers.flatMap roundsOf) hanswers
    simp only [List.flatMap_map] at hrounds
    rw [rounds_transitions, rounds_transitions]
    exact hrounds
  · rw [← List.forall₂_eq_eq_eq]
    exact List.rel_map (fun _ _ hup => Upload.way_eq hup) hfinal.collectBridgeUploads

/-- A request makes a packet with whatever the phone draws, and only the id shows outside. -/
theorem Api.prepareSend_redraw {api : Api} {body : Value} {draw : Draw} {deviceName : Value}
    {packet : MeshPacket} (h : api.prepareSend body draw = .ok (deviceName, packet))
    (other : Draw) :
    ∃ packet', api.prepareSend body other = .ok (deviceName, packet') ∧
      packet'.outside = { packet.outside with packetId := other.packetId } := by
  obtain ⟨request, amount, pin, hmakes⟩ := Api.prepareSend_eq_ok_iff.mp h
  refine ⟨createPacket api.node other request.senderVpa request.receiverVpa amount pin packet.ttl,
    Api.prepareSend_eq_ok_iff.mpr ⟨request, amount, pin, ?_⟩, rfl⟩
  exact ⟨hmakes.request_of, hmakes.complete, hmakes.device, hmakes.amount_read, hmakes.pin_read,
    hmakes.hops_read, rfl⟩

/-- The same request with another nonce, so with other contents, and a refused post. -/
theorem contents_sealed_otherNonce :
    (plainApi.machine.final ⟨defaultMesh, seeded⟩
      [.demoSend (aliceSends "phone-alice" 5) aliceDraw, .meshGossip]).meshState.devices =
    (plainApi.machine.final ⟨defaultMesh, seeded⟩
      [.demoSend (aliceSends "phone-alice" 5) { aliceDraw with nonce := "n-2" },
        .bridgeIngest .null none none ⟨2000, 2000, 2000⟩, .meshGossip]).meshState.devices := by
  have hprepared := prepareSend_aliceSends "phone-alice" (by decide) 5
  obtain ⟨packet, hother, houtside⟩ :=
    Api.prepareSend_redraw hprepared { aliceDraw with nonce := "n-2" }
  refine (contents_sealed plainApi plainApi ⟨defaultMesh, seeded⟩ ⟨defaultMesh, seeded⟩ _ _ rfl
    ?_).2.1
  simp only [List.flatMap_cons, List.flatMap_nil, Api.meshEvents, hprepared, hother,
    Api.sendEvents, List.map_append, List.map_cons, List.map_nil, MeshEvent.outside, houtside]
  rfl

end UpiOfflineMesh
