import UpiOfflineMesh.DemoService
import UpiOfflineMesh.MeshToLedger
import UpiOfflineMesh.Respelling

/-!
# The routes that change something

The handlers of `src/routes/apiRoutes.js` that move the mesh or the server: sending,
gossip, flushing, resetting and the ingestion endpoint. Together they are a machine
whose mesh follows the simulator and whose server follows the pipeline. Only one of the
two ways to the pipeline goes through `MeshPacket.validate`.
-/

namespace UpiOfflineMesh

open Js Mesh

/-- What the routes run on: the platform, the primitives with the server's keys, and the
configured windows. -/
structure Api where
  platform : Platform
  node : NodeCrypto
  ttlSeconds : ℚ
  maxAgeSeconds : ℚ
  clockSkewTolerance : ℚ

/-- The pipeline behind the routes. -/
def Api.backend (api : Api) : Backend :=
  nodeBackend api.platform api.node api.ttlSeconds api.maxAgeSeconds api.clockSkewTolerance

/-! ### `/demo/send` -/

/-- The fields of a body that the handler destructures. -/
structure SendRequest where
  senderVpa : Value
  receiverVpa : Value
  amount : Value
  pin : Value
  ttl : Value
  startDevice : Value

/-- `const { senderVpa, … } = req.body`. -/
def SendRequest.of (body : Value) : Except Error SendRequest := do
  let senderVpa ← body.property "senderVpa"
  let receiverVpa ← body.property "receiverVpa"
  let amount ← body.property "amount"
  let pin ← body.property "pin"
  let ttl ← body.property "ttl"
  let startDevice ← body.property "startDevice"
  return ⟨senderVpa, receiverVpa, amount, pin, ttl, startDevice⟩

/-- The input validation: all four of these fields are there. The TTL is not looked at. -/
def SendRequest.complete (request : SendRequest) : Bool :=
  request.senderVpa.truthy && request.receiverVpa.truthy && request.amount.truthy &&
    request.pin.truthy

/-- `ttl == null ? 5 : parseInt(ttl, 10)`. -/
def SendRequest.hops (platform : Platform) (request : SendRequest) : Except Error Number :=
  match request.ttl with
  | .undefined => .ok (.fin 5)
  | .null => .ok (.fin 5)
  | ttl => ttl.parseInt platform

/-- `startDevice || 'phone-alice'`. -/
def SendRequest.deviceName (request : SendRequest) : Value :=
  request.startDevice.orElse (.str "phone-alice")

/-- What `/demo/send` answers. -/
inductive SendResponse where
  | sent (packetId ciphertextPreview : String) (ttl : Number) (injectedAt : Value)
  /-- Status 400. -/
  | badRequest (error : String)
  /-- Status 500. -/
  | failed (error : String)

/-- `meshSimulatorService.inject(deviceName, packet)`; only a string is the id of a device. -/
def injectAt (platform : Platform) (mesh : Mesh) (deviceName : Value) (packet : MeshPacket) :
    Except Error Mesh :=
  match deviceName with
  | .str senderDeviceId => mesh.inject senderDeviceId packet
  | other => do
    let text ← other.toText platform
    throw ⟨"Unknown device: " ++ text⟩

namespace Api

/-- The packet that the sender's phone makes of a request. -/
def packetOf (api : Api) (draw : Draw) (request : SendRequest) : Except Error MeshPacket := do
  let amount ← request.amount.parseFloat api.platform
  let pin ← request.pin.toText api.platform
  let ttl ← request.hops api.platform
  return createPacket api.node draw request.senderVpa request.receiverVpa amount pin ttl

/-- The handler up to the injection: the packet and the name of its device, or the answer
with which the request ends. -/
def prepareSend (api : Api) (body : Value) (draw : Draw) :
    Except SendResponse (Value × MeshPacket) :=
  match SendRequest.of body with
  | .error err => .error (.failed err.message)
  | .ok request =>
    if request.complete then
      match api.packetOf draw request with
      | .error err => .error (.failed err.message)
      | .ok packet => .ok (request.deviceName, packet)
    else .error (.badRequest "senderVpa, receiverVpa, amount, and pin are required")

/-- `/demo/send`. -/
def demoSend (api : Api) (mesh : Mesh) (body : Value) (draw : Draw) : SendResponse × Mesh :=
  match api.prepareSend body draw with
  | .error response => (response, mesh)
  | .ok (deviceName, packet) =>
    match injectAt api.platform mesh deviceName packet with
    | .error err => (.failed err.message, mesh)
    | .ok mesh =>
      let ciphertextPreview := String.ofList (packet.ciphertext.toList.take 64) ++ "..."
      (.sent packet.packetId ciphertextPreview packet.ttl deviceName, mesh)

/-- A packet and the name of its device, made of the request in a body. -/
structure Makes (api : Api) (body : Value) (draw : Draw) (deviceName : Value) (packet : MeshPacket)
    (request : SendRequest) (amount : Number) (pin : String) : Prop where
  request_of : SendRequest.of body = .ok request
  complete : request.complete = true
  device : deviceName = request.deviceName
  amount_read : request.amount.parseFloat api.platform = .ok amount
  pin_read : request.pin.toText api.platform = .ok pin
  hops_read : request.hops api.platform = .ok packet.ttl
  made : packet =
    createPacket api.node draw request.senderVpa request.receiverVpa amount pin packet.ttl

end Api

/-- The TTL that a body asks for. -/
def Api.requestedHops (api : Api) (body : Value) : Except Error Number := do
  let request ← SendRequest.of body
  request.hops api.platform

/-! ### `/bridge/ingest` -/

/-- What `/bridge/ingest` answers. -/
inductive IngestResponse where
  | result (result : IngestResult)
  /-- Status 400, with outcome `INVALID`, packet hash `?` and no transaction. -/
  | badRequest (reason : String)

/-- `req.header(name) || fallback`. -/
def headerOr (header : Option String) (fallback : String) : String :=
  match header with
  | some text => if text = "" then fallback else text
  | none => fallback

/-- `/bridge/ingest` with its two headers. -/
def bridgeIngest (backend : Backend) (server : Server) (body : Value)
    (bridgeHeader hopHeader : Option String) (clock : Clock) : IngestResponse × Server :=
  match MeshPacket.validate body with
  | .error err => (.badRequest err.message, server)
  | .ok packet =>
    let bridgeNodeId := headerOr bridgeHeader "unknown"
    let hopCount := parseInt (headerOr hopHeader "0")
    let (result, server) := backend.ingest server packet bridgeNodeId hopCount clock
    (.result result, server)

/-! ### The application -/

/-- The state behind the routes. -/
structure AppState where
  mesh : Mesh
  server : Server

/-- A request that may change the state, or the cleanup timer. -/
inductive AppEvent where
  | demoSend (body : Value) (draw : Draw)
  | meshGossip
  | meshFlush (clocks : ℕ → Clock)
  | meshReset
  | bridgeIngest (body : Value) (bridgeHeader hopHeader : Option String) (clock : Clock)
  | evictExpired (now : ℤ)

/-- The response to an event. -/
inductive AppResponse where
  | send (response : SendResponse)
  | gossip (result : GossipResult)
  | flush (response : FlushResponse)
  | ingest (response : IngestResponse)
  | empty

/-- What an event is for the server, in the state in which it happens. -/
def AppState.serverEvents (state : AppState) : AppEvent → List Event
  | .meshFlush clocks => (clockedUploads state.mesh clocks).map fun e => e.1.event e.2
  | .meshReset => [.clear]
  | .bridgeIngest body bridgeHeader hopHeader clock =>
    match MeshPacket.validate body with
    | .error _ => []
    | .ok packet =>
      [.ingest packet (headerOr bridgeHeader "unknown") (parseInt (headerOr hopHeader "0")) clock]
  | .evictExpired now => [.evictExpired now]
  | _ => []

namespace Api

/-- The application. -/
def machine (api : Api) : Machine AppState AppEvent AppResponse where
  step state
    | .demoSend body draw =>
      let (response, mesh) := api.demoSend state.mesh body draw
      (.send response, { state with mesh })
    | .meshGossip =>
      let (result, mesh) := state.mesh.gossipOnce
      (.gossip result, { state with mesh })
    | .meshFlush clocks =>
      let (response, server) := flush api.backend state.server state.mesh clocks
      (.flush response, { state with server })
    | .meshReset => (.empty, ⟨state.mesh.resetMesh, { state.server with seen := .empty }⟩)
    | .bridgeIngest body bridgeHeader hopHeader clock =>
      let (response, server) :=
        UpiOfflineMesh.bridgeIngest api.backend state.server body bridgeHeader hopHeader clock
      (.ingest response, { state with server })
    | .evictExpired now => (.empty, { state with
        server.seen := state.server.seen.evictExpired api.ttlSeconds now })

/-- The injection of a prepared packet; only a string is the id of a device. -/
def sendEvents : Except SendResponse (Value × MeshPacket) → List MeshEvent
  | .ok (.str senderDeviceId, packet) => [.inject senderDeviceId packet]
  | _ => []

/-- What an event is for the mesh. -/
def meshEvents (api : Api) : AppEvent → List MeshEvent
  | .demoSend body draw => sendEvents (api.prepareSend body draw)
  | .meshGossip => [.gossip]
  | .meshReset => [.reset]
  | _ => []

/-- What a run of the application is for the server. -/
def serverRun (api : Api) (state : AppState) (events : List AppEvent) : List Event :=
  api.machine.trace AppState.serverEvents state events

section

variable {api : Api} {state : AppState} {mesh : Mesh} {body : Value} {draw : Draw}
  {deviceName : Value} {packet : MeshPacket} {request : SendRequest}

/-- Only strings are the ids of devices. -/
theorem injectAt_of_asText_eq_none (h : deviceName.asText = none) :
    ∃ err, injectAt api.platform mesh deviceName packet = .error err := by
  have hthrows : ∀ v : Value, ∃ err : Error, (do
      let text ← v.toText api.platform
      throw ⟨"Unknown device: " ++ text⟩ : Except Error Mesh) = .error err := by
    intro v
    cases v.toText api.platform with
    | error err => exact ⟨err, rfl⟩
    | ok text => exact ⟨_, rfl⟩
  cases deviceName with
  | str s => cases h
  | _ => exact hthrows _

/-- A request to send is an injection, or nothing, for the mesh. -/
theorem mesh_demoSend : (api.demoSend mesh body draw).2 =
    meshMachine.final mesh (sendEvents (api.prepareSend body draw)) := by
  unfold demoSend
  generalize api.prepareSend body draw = prepared
  cases prepared with
  | error response => rfl
  | ok prepared =>
    obtain ⟨deviceName, packet⟩ := prepared
    cases hname : deviceName.asText with
    | none =>
      obtain ⟨err, herr⟩ := @injectAt_of_asText_eq_none api mesh deviceName packet hname
      simp only [herr]
      cases deviceName with
      | str s => cases hname
      | _ => rfl
    | some senderDeviceId =>
      obtain rfl := Value.asText_eq_some_iff.mp hname
      simp only [injectAt, sendEvents, Machine.final_cons, Machine.final_nil, Machine.next,
        meshMachine]
      cases mesh.inject senderDeviceId packet with
      | error err => rfl
      | ok mesh => rfl

/-- **The mesh behind the routes is the simulator,** in every run of the application. -/
theorem mesh_final (events : List AppEvent) : (api.machine.final state events).mesh =
    meshMachine.final state.mesh (events.flatMap api.meshEvents) := by
  apply Machine.projection
  intro state event
  cases event with
  | demoSend body draw => exact mesh_demoSend
  | _ => rfl

/-- One event is a run of the server. -/
theorem server_next (event : AppEvent) : (api.machine.next state event).server =
    api.backend.machine.final state.server (state.serverEvents event) := by
  cases event with
  | meshFlush clocks => exact server_ingestUploads _ _ _
  | bridgeIngest body bridgeHeader hopHeader clock =>
    change (UpiOfflineMesh.bridgeIngest api.backend state.server body bridgeHeader hopHeader
      clock).2 = _
    unfold UpiOfflineMesh.bridgeIngest
    cases hvalid : MeshPacket.validate body with
    | error err => simp [AppState.serverEvents, hvalid]
    | ok packet => simp [AppState.serverEvents, hvalid]
  | _ => rfl

/-- **The server behind the routes is the pipeline:** what the application does to it is
a run of deliveries, evictions and resets. -/
theorem server_final (events : List AppEvent) : (api.machine.final state events).server =
    api.backend.machine.final state.server (api.serverRun state events) :=
  Machine.final_trace (fun _ event => server_next event) state events

/-- **Accepted requests:** the handler prepares a packet exactly for a complete request whose
amount, PIN and TTL have texts, and makes it as the request says. -/
theorem prepareSend_eq_ok_iff : api.prepareSend body draw = .ok (deviceName, packet) ↔
    ∃ request amount pin, api.Makes body draw deviceName packet request amount pin := by
  constructor
  · intro h
    unfold prepareSend at h
    cases hrequest : SendRequest.of body with
    | error err => simp [hrequest] at h
    | ok request =>
      simp only [hrequest] at h
      split at h
      case isFalse => cases h
      case isTrue hcomplete =>
        cases hpacket : api.packetOf draw request with
        | error err => simp [hpacket] at h
        | ok made =>
          simp only [hpacket, Except.ok.injEq, Prod.mk.injEq] at h
          obtain ⟨hname, rfl⟩ := h
          simp only [packetOf, bind_eq_ok_iff] at hpacket
          obtain ⟨amount, hamount, pin, hpin, ttl, httl, hmade⟩ := hpacket
          obtain rfl := Except.ok.inj hmade
          exact ⟨request, amount, pin, hrequest, hcomplete, hname.symm, hamount, hpin, httl, rfl⟩
  · rintro ⟨request, amount, pin, h⟩
    have hpacket : api.packetOf draw request = .ok packet := by
      simp only [packetOf, bind_eq_ok_iff]
      exact ⟨amount, h.amount_read, pin, h.pin_read, packet.ttl, h.hops_read,
        congrArg Except.ok h.made.symm⟩
    simp only [prepareSend, h.request_of, h.complete, if_true, hpacket, h.device]

/-- What gets past the input validation is made as the request says. -/
theorem exists_of_prepareSend (h : api.prepareSend body draw = .ok (deviceName, packet)) :
    ∃ request amount pin ttl, SendRequest.of body = .ok request ∧ request.complete = true ∧
      deviceName = request.deviceName ∧ request.hops api.platform = .ok ttl ∧
      packet = createPacket api.node draw request.senderVpa request.receiverVpa amount pin ttl := by
  obtain ⟨request, amount, pin, hmakes⟩ := prepareSend_eq_ok_iff.mp h
  exact ⟨request, amount, pin, packet.ttl, hmakes.request_of, hmakes.complete, hmakes.device,
    hmakes.hops_read, hmakes.made⟩

/-- The packet has the requested TTL, whatever that is. -/
theorem requestedHops_of_prepareSend (h : api.prepareSend body draw = .ok (deviceName, packet)) :
    api.requestedHops body = .ok packet.ttl := by
  obtain ⟨request, amount, pin, ttl, hrequest, -, -, httl, rfl⟩ := exists_of_prepareSend h
  rw [requestedHops, hrequest]
  exact httl

/-- A packet like it is well formed exactly when it has no negative TTL. -/
theorem wellFormed_of_prepareSend (h : api.prepareSend body draw = .ok (deviceName, packet))
    (hops : Number) :
    MeshPacket.WellFormed { packet with ttl := hops } ↔ hops.lt (.fin 0) = false := by
  obtain ⟨request, amount, pin, ttl, -, -, -, -, rfl⟩ := exists_of_prepareSend h
  exact wellFormed_createPacket

/-- Only a request to send injects a packet. -/
theorem mem_meshEvents_iff {home : String} {event : AppEvent} :
    .inject home packet ∈ api.meshEvents event ↔ ∃ body draw, event = .demoSend body draw ∧
      api.prepareSend body draw = .ok (.str home, packet) := by
  constructor
  · intro h
    cases event with
    | demoSend body draw =>
      change _ ∈ sendEvents (api.prepareSend body draw) at h
      generalize hprepared : api.prepareSend body draw = prepared at h
      unfold sendEvents at h
      split at h
      case h_1 senderDeviceId made =>
        obtain ⟨rfl, rfl⟩ := MeshEvent.inject.inj (List.mem_singleton.mp h)
        exact ⟨body, draw, rfl, hprepared⟩
      case h_2 => cases h
    | meshGossip => simp [meshEvents] at h
    | meshReset => simp [meshEvents] at h
    | _ => cases h
  · rintro ⟨body, draw, rfl, hprepared⟩
    change _ ∈ sendEvents (api.prepareSend body draw)
    rw [hprepared]
    exact List.mem_singleton_self _

end

end Api

/-! ### A request for concrete runs -/

/-- The routes over primitives that keep nothing secret. -/
def plainApi : Api := ⟨utcPlatform, plainNode, 86400, 86400, 300⟩

/-- Alice sends Bob a payment with this many hops to go. -/
def aliceSends (startDevice : String) (ttl : ℤ) : Value :=
  .obj [("senderVpa", .str "alice@demo"), ("receiverVpa", .str "bob@demo"),
    ("amount", .num (.fin 500)), ("pin", .str "8f434346"), ("ttl", .num (.fin (ttl : ℚ))),
    ("startDevice", .str startDevice)]

/-- What her phone draws. -/
def aliceDraw : Draw where
  nonce := "n-1"
  signedAt := 1000
  randomness := []
  aesKey := List.replicate 32 7
  iv := List.replicate 12 9
  packetId := "packet-1"
  createdAt := 1000
  aesKey_length := List.length_replicate
  iv_length := List.length_replicate
  packetId_ne_empty := by decide

/-- The packet that her phone sends. -/
def alicePacket (ttl : ℤ) : MeshPacket :=
  ⟨"packet-1", .fin (ttl : ℚ), .fin (1000 : ℤ), plainCiphertext⟩

/-- The text of an integer is read back. -/
theorem parseInt_num (ttl : ℤ) :
    (Value.num (.fin (ttl : ℚ))).parseInt utcPlatform = .ok (.fin (ttl : ℚ)) := by
  have htext : utcPlatform.numberText (.fin (ttl : ℚ)) = toString ttl := by
    simp [utcPlatform]
  rw [Value.parseInt, Value.toText, htext, ← parseInt_toString ttl]
  rfl

theorem prepareSend_aliceSends (startDevice : String) (hname : startDevice ≠ "") (ttl : ℤ) :
    plainApi.prepareSend (aliceSends startDevice ttl) aliceDraw =
      .ok (.str startDevice, alicePacket ttl) := by
  generalize hrequest : (⟨.str "alice@demo", .str "bob@demo", .num (.fin 500), .str "8f434346",
    .num (.fin (ttl : ℚ)), .str startDevice⟩ : SendRequest) = request
  have hof : SendRequest.of (aliceSends startDevice ttl) = .ok request := by
    rw [← hrequest]
    rfl
  have hcomplete : request.complete = true := by
    rw [← hrequest]
    simp [SendRequest.complete, Value.truthy]
  have hdevice : request.deviceName = .str startDevice := by
    rw [← hrequest]
    simp [SendRequest.deviceName, Value.orElse, Value.truthy, hname]
  have hpacket : plainApi.packetOf aliceDraw request = .ok (alicePacket ttl) := by
    have hhops : request.hops utcPlatform = .ok (.fin (ttl : ℚ)) := by
      rw [← hrequest]
      exact parseInt_num ttl
    simp only [Api.packetOf, bind_eq_ok_iff, ← hrequest]
    rw [← hrequest] at hhops
    exact ⟨_, rfl, _, rfl, _, hhops, rfl⟩
  rw [Api.prepareSend, hof]
  simp only [hcomplete, if_true, hpacket, hdevice]

theorem meshEvents_aliceSends (startDevice : String) (hname : startDevice ≠ "") (ttl : ℤ) :
    plainApi.meshEvents (.demoSend (aliceSends startDevice ttl) aliceDraw) =
      [.inject startDevice (alicePacket ttl)] := by
  rw [Api.meshEvents, prepareSend_aliceSends startDevice hname ttl, Api.sendEvents]

end UpiOfflineMesh
