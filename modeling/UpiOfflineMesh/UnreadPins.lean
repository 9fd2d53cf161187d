import UpiOfflineMesh.AlikeServers
import UpiOfflineMesh.Provenance

/-!
# PINs and nonces are not read

A request to send carries a PIN, and the phone adds a nonce. Both end up inside the
ciphertext, the PIN as a hash; the server opens them and never looks at them. So two runs of
the application whose requests differ in nothing but PINs, nonces and encryption go the same
way, as long as the hashes of their ciphertexts agree in the same places.
-/

namespace UpiOfflineMesh

open Js

/-! ### What a client is told -/

/-- The same answer but for the preview of the ciphertext. -/
inductive SendResponse.Alike : SendResponse → SendResponse → Prop
  | sent (packetId preview preview' : String) (ttl : Number) (injectedAt : Value) :
      Alike (.sent packetId preview ttl injectedAt) (.sent packetId preview' ttl injectedAt)
  | badRequest (error : String) : Alike (.badRequest error) (.badRequest error)
  | failed (error : String) : Alike (.failed error) (.failed error)

/-- The same entry but for a packet hash that the reason may name. -/
structure FlushResult.Alike (H : String → String → Prop) (entry entry' : FlushResult) : Prop where
  bridgeNode : entry.bridgeNode = entry'.bridgeNode
  packetId : entry.packetId = entry'.packetId
  outcome : entry.outcome = entry'.outcome
  reason : ∃ reason reason', Option.Rel (Reason.Alike H) reason reason' ∧
    entry.reason = (reason.map Reason.text).getD "" ∧
    entry'.reason = (reason'.map Reason.text).getD ""
  transactionId : entry.transactionId = entry'.transactionId

/-- The same response but for packet hashes and previews. -/
inductive AppResponse.Alike (H : String → String → Prop) : AppResponse → AppResponse → Prop
  | send {response response' : SendResponse} (h : response.Alike response') :
      Alike H (.send response) (.send response')
  | gossip (result : GossipResult) : Alike H (.gossip result) (.gossip result)
  | flush (uploadsAttempted : ℕ) {results results' : List FlushResult}
      (h : List.Forall₂ (FlushResult.Alike H) results results') :
      Alike H (.flush ⟨uploadsAttempted, results⟩) (.flush ⟨uploadsAttempted, results'⟩)
  | refused (reason : String) :
      Alike H (.ingest (.badRequest reason)) (.ingest (.badRequest reason))
  | ingested {result result' : IngestResult} (h : result.Alike H result') :
      Alike H (.ingest (.result result)) (.ingest (.result result'))
  | empty : Alike H .empty .empty

/-! ### Runs with related ciphertexts -/

/-- States that differ at most in related ciphertexts and their hashes. -/
structure AppState.Alike (api : Api) (C : String → String → Prop) (state state' : AppState) :
    Prop where
  mesh : state.mesh.Alike C state'.mesh
  server : state.server.Alike (api.backend.Hashes C) state'.server

/-- The same event, but for a packet that the phone makes or a body carries. -/
inductive AppEvent.Alike (api : Api) (C : String → String → Prop) : AppEvent → AppEvent → Prop
  | demoSend {body body' : Value} {draw draw' : Draw}
      (h : Outcomes Eq (fun made made' => made.1 = made'.1 ∧ made.2.Alike C made'.2)
        (api.prepareSend body draw) (api.prepareSend body' draw')) :
      Alike api C (.demoSend body draw) (.demoSend body' draw')
  | meshGossip : Alike api C .meshGossip .meshGossip
  | meshFlush (clocks : ℕ → Clock) : Alike api C (.meshFlush clocks) (.meshFlush clocks)
  | meshReset : Alike api C .meshReset .meshReset
  | bridgeIngest {body body' : Value} (bridgeHeader hopHeader : Option String) (clock : Clock)
      (h : Outcomes Eq (MeshPacket.Alike C) (MeshPacket.validate body)
        (MeshPacket.validate body')) :
      Alike api C (.bridgeIngest body bridgeHeader hopHeader clock)
        (.bridgeIngest body' bridgeHeader hopHeader clock)
  | evictExpired (now : ℤ) : Alike api C (.evictExpired now) (.evictExpired now)

section

variable {api : Api} {C : String → String → Prop} {state state' : AppState}

/-- A request to send goes alike. -/
theorem demoSend_alike {mesh mesh' : Mesh} {body body' : Value} {draw draw' : Draw}
    (h : mesh.Alike C mesh')
    (hmade : Outcomes Eq (fun made made' => made.1 = made'.1 ∧ made.2.Alike C made'.2)
      (api.prepareSend body draw) (api.prepareSend body' draw')) :
    (api.demoSend mesh body draw).1.Alike (api.demoSend mesh' body' draw').1 ∧
      (api.demoSend mesh body draw).2.Alike C (api.demoSend mesh' body' draw').2 := by
  have hself : ∀ response : SendResponse, response.Alike response := by
    intro response
    cases response with
    | sent packetId preview ttl injectedAt => exact .sent packetId preview preview ttl injectedAt
    | badRequest error => exact .badRequest error
    | failed error => exact .failed error
  unfold Api.demoSend
  generalize api.prepareSend body draw = made at hmade ⊢
  generalize api.prepareSend body' draw' = made' at hmade ⊢
  cases hmade with
  | @error response response' hresponse =>
    subst hresponse
    exact ⟨hself response, h⟩
  | @ok made made' hmade =>
    obtain ⟨deviceName, packet⟩ := made
    obtain ⟨_, packet'⟩ := made'
    obtain ⟨hname, hpacket⟩ := hmade
    obtain rfl : deviceName = _ := hname
    have hinject : Outcomes Eq (Mesh.Alike C) (injectAt api.platform mesh deviceName packet)
        (injectAt api.platform mesh' deviceName packet') := by
      cases deviceName with
      | str home => exact h.inject home hpacket
      | _ => exact Outcomes.bind .refl fun _ _ htext => htext ▸ .error rfl
    simp only
    generalize injectAt api.platform mesh deviceName packet = injected at hinject ⊢
    generalize injectAt api.platform mesh' deviceName packet' = injected' at hinject ⊢
    cases hinject with
    | @error err err' herr =>
      subst herr
      exact ⟨hself _, h⟩
    | ok hmesh =>
      simp only
      rw [hpacket.packetId, hpacket.ttl]
      exact ⟨.sent _ _ _ _ _, hmesh⟩

/-- Numbering related uploads. -/
theorem clockedUploads_alike {mesh mesh' : Mesh} (h : mesh.Alike C mesh') (clocks : ℕ → Clock) :
    List.Forall₂ (fun e e' => e.1.Alike C e'.1 ∧ e.2 = e'.2) (clockedUploads mesh clocks)
      (clockedUploads mesh' clocks) := by
  have hzip : ∀ {uploads uploads' : List Upload}, List.Forall₂ (Upload.Alike C) uploads uploads' →
      ∀ n, List.Forall₂ (fun e e' => e.1.Alike C e'.1 ∧ e.2 = e'.2) (uploads.zipIdx n)
        (uploads'.zipIdx n) := by
    intro uploads uploads' huploads
    induction huploads with
    | nil => exact fun _ => .nil
    | cons hup _ ih => exact fun n => .cons ⟨hup, rfl⟩ (ih (n + 1))
  refine List.rel_map (fun e e' he => ⟨he.1, ?_⟩) (hzip h.collectBridgeUploads 0)
  rw [he.2]

/-- The uploads of a flush are answered alike. -/
theorem ingestUploads_alike {backend : Backend} (hblind : backend.Blind C)
    {entries entries' : List (Upload × Clock)}
    (hentries : List.Forall₂ (fun e e' => e.1.Alike C e'.1 ∧ e.2 = e'.2) entries entries')
    {server server' : Server} (h : server.Alike (backend.Hashes C) server') :
    List.Forall₂ (FlushResult.Alike (backend.Hashes C)) (ingestUploads backend server entries).1
        (ingestUploads backend server' entries').1 ∧
      (ingestUploads backend server entries).2.Alike (backend.Hashes C)
        (ingestUploads backend server' entries').2 := by
  induction hentries generalizing server server' with
  | nil => exact ⟨.nil, h⟩
  | @cons entry entry' _ _ hentry _ ih =>
    obtain ⟨up, clock⟩ := entry
    obtain ⟨up', _⟩ := entry'
    obtain ⟨hup, hclock⟩ := hentry
    replace hup : up.Alike C up' := hup
    obtain rfl : clock = _ := hclock
    obtain ⟨hresult, hafter⟩ := @ingest_alike up.bridgeNodeId
      ((Number.fin 5).sub up.packet.ttl) _ _ _ _ _ _ clock hblind h hup.packet.ciphertext
    have hrest := ih hafter
    simp only [ingestUploads]
    rw [← hup.bridgeNodeId, ← hup.packet.ttl]
    refine ⟨.cons ⟨hup.bridgeNodeId, ?_, hresult.outcome, ⟨_, _, hresult.reason, rfl, rfl⟩, ?_⟩
      hrest.1, hrest.2⟩
    · simp only [FlushResult.of, hup.packet.packetId]
    · simp only [FlushResult.of, hresult.transactionId]

/-- **One event is answered alike** and leaves the states alike. -/
theorem machine_alike (hblind : api.backend.Blind C) {event event' : AppEvent}
    (h : state.Alike api C state') (hevent : event.Alike api C event') :
    (api.machine.step state event).1.Alike (api.backend.Hashes C)
        (api.machine.step state' event').1 ∧
      (api.machine.next state event).Alike api C (api.machine.next state' event') := by
  cases hevent with
  | demoSend hmade =>
    obtain ⟨hresponse, hmesh⟩ := demoSend_alike h.mesh hmade
    exact ⟨.send hresponse, hmesh, h.server⟩
  | meshGossip =>
    obtain ⟨hresult, hmesh⟩ := h.mesh.gossipOnce
    simp only [Machine.next, Api.machine, hresult]
    exact ⟨.gossip _, hmesh, h.server⟩
  | meshFlush clocks =>
    obtain ⟨hresults, hserver⟩ := ingestUploads_alike hblind (clockedUploads_alike h.mesh clocks)
      h.server
    have hlength := h.mesh.collectBridgeUploads.length_eq
    refine ⟨?_, h.mesh, hserver⟩
    change AppResponse.Alike _ (.flush ⟨state.mesh.collectBridgeUploads.length, _⟩) _
    rw [hlength]
    exact .flush _ hresults
  | meshReset => exact ⟨.empty, h.mesh.resetMesh, .empty, h.server.db⟩
  | evictExpired now => exact ⟨.empty, h.mesh, evictExpired_alike h.server.seen _, h.server.db⟩
  | @bridgeIngest body body' bridgeHeader hopHeader clock hvalid =>
    simp only [Machine.next, Api.machine, bridgeIngest]
    generalize MeshPacket.validate body = packet at hvalid ⊢
    generalize MeshPacket.validate body' = packet' at hvalid ⊢
    cases hvalid with
    | @error err err' herr =>
      subst herr
      exact ⟨.refused _, h⟩
    | ok hpacket =>
      obtain ⟨hresult, hserver⟩ := @ingest_alike (headerOr bridgeHeader "unknown")
        (parseInt (headerOr hopHeader "0")) _ _ _ _ _ _ clock hblind h.server hpacket.ciphertext
      exact ⟨.ingested hresult, h.mesh, hserver⟩

end

/-! ### Requests that differ in PINs -/

/-- The phone draws the same ids and reads the same clock; all else may differ. -/
structure Draw.Redrawn (draw draw' : Draw) : Prop where
  packetId : draw.packetId = draw'.packetId
  signedAt : draw.signedAt = draw'.signedAt

/-- Requests that are the same but for the PIN, which is there or has a text in both or in
neither. -/
structure SendRequest.Repinned (platform : Platform) (request request' : SendRequest) : Prop where
  others : request' = { request with pin := request'.pin }
  truthy : request.pin.truthy = request'.pin.truthy
  toText : Outcomes Eq (fun _ _ => True) (request.pin.toText platform)
    (request'.pin.toText platform)

/-- The same event but for PIN, nonce and encryption of a request to send. -/
inductive AppEvent.Repinned (platform : Platform) : AppEvent → AppEvent → Prop
  | demoSend {body body' : Value} {draw draw' : Draw}
      (hbody : Outcomes Eq (SendRequest.Repinned platform) (SendRequest.of body)
        (SendRequest.of body')) (hdraw : draw.Redrawn draw') :
      Repinned platform (.demoSend body draw) (.demoSend body' draw')
  | same (event : AppEvent) (h : ∀ body draw, event ≠ .demoSend body draw) :
      Repinned platform event event

/-- The ciphertext that an event brings. -/
def Api.ciphertexts (api : Api) : AppEvent → List String
  | .demoSend body draw => (api.prepareSend body draw).toOption.toList.map (·.2.ciphertext)
  | .bridgeIngest body _ _ _ => (MeshPacket.validate body).toOption.toList.map MeshPacket.ciphertext
  | _ => []

/-- The ciphertexts that two runs bring at the same places. -/
def Api.corresponding (api : Api) (events events' : List AppEvent) : List (String × String) :=
  (events.zip events').flatMap fun e => (api.ciphertexts e.1).zip (api.ciphertexts e.2)

/-- The hashes of the ciphertexts of two runs agree in the same places. -/
def Api.SamePattern (api : Api) (events events' : List AppEvent) : Prop :=
  ∀ c ∈ api.corresponding events events', ∀ d ∈ api.corresponding events events',
    api.node.sha256Hex c.1 = api.node.sha256Hex d.1 ↔
      api.node.sha256Hex c.2 = api.node.sha256Hex d.2

/-- The hashes of corresponding ciphertexts. -/
def Api.CorrespondingHashes (api : Api) (events events' : List AppEvent) : String → String → Prop :=
  api.backend.Hashes fun c c' => (c, c') ∈ api.corresponding events events'

section

variable {api : Api} {events events' : List AppEvent} {event event' : AppEvent}
  {body body' : Value} {draw draw' : Draw}

/-- The phone makes packets that look alike. -/
theorem packetOf_repinned {request request' : SendRequest}
    (h : request.Repinned api.platform request') (hdraw : draw.Redrawn draw') :
    Outcomes Eq (MeshPacket.Alike fun _ _ => True) (api.packetOf draw request)
      (api.packetOf draw' request') := by
  rw [h.others]
  refine Outcomes.bind .refl fun amount _ hamount => ?_
  refine Outcomes.bind h.toText fun pin pin' _ => ?_
  refine Outcomes.bind .refl fun ttl _ httl => ?_
  exact .ok ⟨hdraw.packetId, httl, trivial⟩

/-- The handler comes to the same answer, or to packets that look alike for the same phone. -/
theorem prepareSend_repinned
    (hbody : Outcomes Eq (SendRequest.Repinned api.platform) (SendRequest.of body)
      (SendRequest.of body')) (hdraw : draw.Redrawn draw') :
    Outcomes Eq (fun made made' => made.1 = made'.1 ∧ made.2.Alike (fun _ _ => True) made'.2)
      (api.prepareSend body draw) (api.prepareSend body' draw') := by
  unfold Api.prepareSend
  generalize SendRequest.of body = request at hbody ⊢
  generalize SendRequest.of body' = request' at hbody ⊢
  cases hbody with
  | @error err err' herr =>
    subst herr
    exact .error rfl
  | @ok request request' h =>
    have hpacket := @packetOf_repinned api draw draw' request request' h hdraw
    have hcomplete : request.complete = request'.complete := by
      rw [h.others, SendRequest.complete, SendRequest.complete, h.truthy]
    have hdevice : request.deviceName = request'.deviceName := by
      rw [h.others]
      rfl
    simp only [hcomplete, hdevice]
    generalize api.packetOf draw request = packet at hpacket ⊢
    generalize api.packetOf draw' request' = packet' at hpacket ⊢
    split
    case isFalse => exact .error rfl
    case isTrue =>
      cases hpacket with
      | error herr => exact .error (congrArg (SendResponse.failed ∘ Error.message) herr)
      | ok halike => exact .ok ⟨rfl, halike⟩

/-- What both runs read is the same payment. -/
theorem decrypt_repinned (hnode : api.node.Lawful) (hjson : api.ReadsBack events)
    (hjson' : api.ReadsBack events') (hmem : .demoSend body draw ∈ events)
    (hmem' : .demoSend body' draw' ∈ events')
    (hbody : Outcomes Eq (SendRequest.Repinned api.platform) (SendRequest.of body)
      (SendRequest.of body')) (hdraw : draw.Redrawn draw') {deviceName deviceName' : Value}
    {packet packet' : MeshPacket} (h : api.prepareSend body draw = .ok (deviceName, packet))
    (h' : api.prepareSend body' draw' = .ok (deviceName', packet')) :
    Outcomes (fun _ _ => True) PaymentInstruction.SamePayment
      (decrypt api.node packet.ciphertext) (decrypt api.node packet'.ciphertext) := by
  obtain ⟨request, amount, pin, hmakes⟩ := Api.prepareSend_eq_ok_iff.mp h
  obtain ⟨request', amount', pin', hmakes'⟩ := Api.prepareSend_eq_ok_iff.mp h'
  rw [hmakes.request_of, hmakes'.request_of] at hbody
  cases hbody with
  | ok hrequest =>
  have hread := hjson _ _ _ _ _ _ _ hmem hmakes
  have hread' := hjson' _ _ _ _ _ _ _ hmem' hmakes'
  have hamount : amount = amount' := by
    have hboth := hmakes'.amount_read
    rw [hrequest.others] at hboth
    exact Except.ok.inj (hmakes.amount_read.symm.trans hboth)
  rw [hmakes.made, hmakes'.made, decrypt_createPacket hnode hread,
    decrypt_createPacket hnode hread']
  refine .ok ⟨?_, ?_, ?_, ?_⟩
  · rw [hrequest.others]
    rfl
  · rw [hrequest.others]
    rfl
  · rw [hamount]
    rfl
  · change Value.num (.fin draw.signedAt) = .num (.fin draw'.signedAt)
    rw [hdraw.signedAt]

/-- Ciphertexts correspond when two events at the same place bring them. -/
theorem mem_corresponding_iff {c c' : String} : (c, c') ∈ api.corresponding events events' ↔
    ∃ event event', (event, event') ∈ events.zip events' ∧
      (c, c') ∈ (api.ciphertexts event).zip (api.ciphertexts event') := by
  simp [Api.corresponding, List.mem_flatMap]

/-- Two requests to send at the same place bring the packets that the phones make. -/
theorem mem_zip_ciphertexts_demoSend {c c' : String} :
    (c, c') ∈ (api.ciphertexts (.demoSend body draw)).zip
        (api.ciphertexts (.demoSend body' draw')) ↔
      ∃ made made', api.prepareSend body draw = .ok made ∧
        api.prepareSend body' draw' = .ok made' ∧ c = made.2.ciphertext ∧
          c' = made'.2.ciphertext := by
  simp only [Api.ciphertexts]
  cases api.prepareSend body draw with
  | error response => simp [Except.toOption]
  | ok made =>
    cases api.prepareSend body' draw' with
    | error response => simp [Except.toOption]
    | ok made' => simp [Except.toOption]

/-- An event that is the same in both runs brings the same ciphertext. -/
theorem eq_of_mem_zip_self {c c' : String} {texts : List String} (h : (c, c') ∈ texts.zip texts) :
    c = c' :=
  List.forall₂_zip (List.forall₂_same.mpr fun _ _ => rfl) h

/-- **The server is blind for the difference:** corresponding ciphertexts have hashes that
agree in the same places and open to the same payment. -/
theorem blind_corresponding (hnode : api.node.Lawful)
    (hevents : List.Forall₂ (AppEvent.Repinned api.platform) events events')
    (hjson : api.ReadsBack events) (hjson' : api.ReadsBack events')
    (hpattern : api.SamePattern events events') :
    api.backend.Blind fun c c' => (c, c') ∈ api.corresponding events events' where
  hashes hc hd := hpattern _ hc _ hd
  opens := by
    intro c c' hmem
    obtain ⟨event, event', hpair, hzip⟩ := mem_corresponding_iff.mp hmem
    obtain ⟨hevent, hevent'⟩ := List.of_mem_zip hpair
    cases List.forall₂_zip hevents hpair with
    | demoSend hbody hdraw =>
      obtain ⟨made, made', hmade, hmade', rfl, rfl⟩ := mem_zip_ciphertexts_demoSend.mp hzip
      exact decrypt_repinned hnode hjson hjson' hevent hevent' hbody hdraw hmade hmade'
    | same =>
      obtain rfl := eq_of_mem_zip_self hzip
      exact Outcomes.refl.mono (fun _ _ _ => trivial) fun _ _ hsame => hsame ▸ ⟨rfl, rfl, rfl, rfl⟩

/-- The events at the same place bring packets that look alike. -/
theorem alike_of_repinned (hpair : (event, event') ∈ events.zip events')
    (h : event.Repinned api.platform event') :
    event.Alike api (fun c c' => (c, c') ∈ api.corresponding events events') event' := by
  have hbrings : ∀ c c', (c, c') ∈ (api.ciphertexts event).zip (api.ciphertexts event') →
      (c, c') ∈ api.corresponding events events' :=
    fun c c' hzip => mem_corresponding_iff.mpr ⟨event, event', hpair, hzip⟩
  cases h with
  | @demoSend body body' draw draw' hbody hdraw =>
    refine .demoSend ?_
    refine (prepareSend_repinned hbody hdraw).and_eq.mono (fun _ _ hresponse => hresponse) ?_
    rintro made made' ⟨⟨hname, hpacket⟩, hmade, hmade'⟩
    refine ⟨hname, { hpacket with ciphertext := hbrings _ _ ?_ }⟩
    exact mem_zip_ciphertexts_demoSend.mpr ⟨made, made', hmade, hmade', rfl, rfl⟩
  | same _ hother =>
    cases event with
    | demoSend body draw => exact absurd rfl (hother body draw)
    | meshGossip => exact .meshGossip
    | meshFlush clocks => exact .meshFlush clocks
    | meshReset => exact .meshReset
    | evictExpired now => exact .evictExpired now
    | bridgeIngest body bridgeHeader hopHeader clock =>
      refine .bridgeIngest _ _ _ ?_
      refine Outcomes.refl.and_eq.mono (fun _ _ herr => herr) ?_
      rintro packet _ ⟨rfl, hvalid, -⟩
      refine ⟨rfl, rfl, hbrings _ _ ?_⟩
      simp [Api.ciphertexts, hvalid, Except.toOption]

/-- Both runs start alike. -/
theorem start_alike (C : String → String → Prop) :
    AppState.Alike api C ⟨defaultMesh, seeded⟩ ⟨defaultMesh, seeded⟩ where
  mesh := by
    refine List.forall₂_same.mpr fun d hd => ⟨rfl, rfl, ?_⟩
    rw [defaultMesh_empty d hd]
    exact .nil
  server := ⟨.empty, ⟨rfl, .nil, .nil, rfl⟩⟩

end

/-- **PINs and nonces are not read.** Take two runs of the application from the start whose
requests differ in nothing but PINs, nonces and encryption, so that the hashes of their
ciphertexts agree in the same places. Then the responses are the same one by one, but for
previews and packet hashes; and afterwards the accounts are the same, `/mesh/state` shows
the same, and the ledger has the same rows but for their packet hashes. -/
theorem pins_unread (api : Api) (hnode : api.node.Lawful) (events events' : List AppEvent)
    (hevents : List.Forall₂ (AppEvent.Repinned api.platform) events events')
    (hjson : api.ReadsBack events) (hjson' : api.ReadsBack events')
    (hpattern : api.SamePattern events events') :
    List.Forall₂ (AppResponse.Alike (api.CorrespondingHashes events events'))
      ((api.machine.transitions ⟨defaultMesh, seeded⟩ events).map Transition.output)
      ((api.machine.transitions ⟨defaultMesh, seeded⟩ events').map Transition.output) ∧
    (api.machine.final ⟨defaultMesh, seeded⟩ events).accounts =
      (api.machine.final ⟨defaultMesh, seeded⟩ events').accounts ∧
    (api.machine.final ⟨defaultMesh, seeded⟩ events).meshState =
      (api.machine.final ⟨defaultMesh, seeded⟩ events').meshState ∧
    List.Forall₂ (Transaction.Alike (api.CorrespondingHashes events events'))
      (api.machine.final ⟨defaultMesh, seeded⟩ events).server.db.rows
      (api.machine.final ⟨defaultMesh, seeded⟩ events').server.db.rows := by
  have hblind := blind_corresponding hnode hevents hjson hjson' hpattern
  have halike : List.Forall₂
      (AppEvent.Alike api fun c c' => (c, c') ∈ api.corresponding events events') events events' :=
    List.forall₂_iff_zip.mpr ⟨hevents.length_eq,
      fun hpair => alike_of_repinned hpair (List.forall₂_zip hevents hpair)⟩
  obtain ⟨houtputs, hfinal⟩ := Machine.simulation
    (fun state state' event event' hstate hevent => machine_alike hblind hstate hevent)
    (start_alike _) halike
  refine ⟨houtputs, ?_, ?_, ?_⟩
  · rw [AppState.accounts, AppState.accounts, InMemoryDb.run_findAllAccounts,
      InMemoryDb.run_findAllAccounts, hfinal.server.db.accounts]
  · have hshown : ∀ state : AppState, state.meshState =
        ⟨state.meshState.devices, state.server.seen.size⟩ := fun _ => rfl
    rw [hshown, hfinal.mesh.devices, hfinal.server.seen.size, ← hshown]
  · exact List.rel_filterMap (fun _ _ hslot => hslot) hfinal.server.db.transactions

/-! ### One payment with two PINs -/

/-- The text of Alice's payment with a PIN hash. -/
def pinJson (pinHash : String) : String :=
  "\x7b\"senderVpa\":\"alice@demo\",\"receiverVpa\":\"bob@demo\",\"amount\":\"500.00\"," ++
    "\"pinHash\":\"" ++ pinHash ++ "\",\"nonce\":\"n-1\",\"signedAt\":1000\x7d"

/-- What that text parses to. -/
def pinFields (pinHash : String) : Value :=
  .obj [("senderVpa", .str "alice@demo"), ("receiverVpa", .str "bob@demo"),
    ("amount", .str "500.00"), ("pinHash", .str pinHash), ("nonce", .str "n-1"),
    ("signedAt", .num (.fin 1000))]

/-- Primitives that keep nothing secret, for that payment with two PINs. -/
def pinNode : NodeCrypto :=
  { plainNode with
    stringify := fun v =>
      match v.property "pinHash" with
      | .ok (.str pinHash) => pinJson pinHash
      | _ => "null"
    parseJson := fun text =>
      if text = pinJson "1234" then .ok (pinFields "1234")
      else if text = pinJson "0000" then .ok (pinFields "0000")
      else .error ⟨"Unexpected token in JSON"⟩ }

/-- The routes over these primitives. -/
def pinApi : Api := { plainApi with node := pinNode }

/-- Alice asks for a payment to Bob with a PIN, from her phone and with the default TTL. -/
def aliceSendsWith (pin : String) : Value :=
  .obj [("senderVpa", .str "alice@demo"), ("receiverVpa", .str "bob@demo"),
    ("amount", .num (.fin 500)), ("pin", .str pin)]

/-- The payment is sent, gossiped and uploaded. -/
def alicePaysWith (pin : String) : List AppEvent :=
  [.demoSend (aliceSendsWith pin) aliceDraw, .meshGossip, .meshFlush fun _ => ⟨2000, 2000, 2000⟩]

theorem readsBack_alicePaysWith {pin : String}
    (hparse : pinNode.parseJson (pinJson pin) = .ok (pinFields pin)) :
    pinApi.ReadsBack (alicePaysWith pin) := by
  intro body draw deviceName packet request amount text hsent hmakes
  obtain ⟨rfl, rfl⟩ : body = aliceSendsWith pin ∧ draw = aliceDraw := by
    simpa [alicePaysWith] using hsent
  obtain rfl : request = ⟨.str "alice@demo", .str "bob@demo", .num (.fin 500), .str pin,
    .undefined, .undefined⟩ := (Except.ok.inj hmakes.request_of).symm
  have hread : (Value.num (.fin 500)).parseFloat utcPlatform = .ok (.fin 500) := by decide +kernel
  obtain rfl : amount = .fin 500 := Except.ok.inj (hmakes.amount_read.symm.trans hread)
  obtain rfl : pin = text := Except.ok.inj hmakes.pin_read
  have htext : (Number.fin 500).toFixed2 = "500.00" := by decide +kernel
  have hrecord : (instructionOf pinNode aliceDraw (.str "alice@demo") (.str "bob@demo") (.fin 500)
      pin).record = pinFields pin := by
    simp [instructionOf, PaymentInstruction.record, PaymentInstruction.ofFields, writeAmount,
      htext, pinFields, pinNode, plainNode, aliceDraw]
  exact (congrArg (pinNode.parseJson ∘ pinNode.stringify) hrecord).trans
    (hparse.trans (congrArg Except.ok hrecord.symm))

/-- Only her request brings a ciphertext. -/
theorem mem_corresponding_alicePaysWith {pin pin' : String} {c : String × String}
    (h : c ∈ pinApi.corresponding (alicePaysWith pin) (alicePaysWith pin')) : ∃ made made',
      pinApi.prepareSend (aliceSendsWith pin) aliceDraw = .ok made ∧
        pinApi.prepareSend (aliceSendsWith pin') aliceDraw = .ok made' ∧
          c.1 = made.2.ciphertext ∧ c.2 = made'.2.ciphertext := by
  rw [← mem_zip_ciphertexts_demoSend]
  simpa [Api.corresponding, alicePaysWith, Api.ciphertexts] using h

/-- Alice's account is charged the same with one PIN and with another. -/
theorem pins_unread_twoPins :
    (pinApi.machine.final ⟨defaultMesh, seeded⟩ (alicePaysWith "1234")).accounts =
      (pinApi.machine.final ⟨defaultMesh, seeded⟩ (alicePaysWith "0000")).accounts := by
  refine (pins_unread pinApi ⟨plainNode_lawful.1, plainNode_lawful.2, plainNode_lawful.3,
    plainNode_lawful.4⟩ (alicePaysWith "1234") (alicePaysWith "0000") ?_
    (readsBack_alicePaysWith ?_) (readsBack_alicePaysWith ?_) ?_).2.1
  · refine .cons (.demoSend (.ok ⟨rfl, rfl, .ok trivial⟩) ⟨rfl, rfl⟩) (.cons ?_ (.cons ?_ .nil))
    · exact .same _ fun _ _ => nofun
    · exact .same _ fun _ _ => nofun
  · simp [pinNode]
  · have hother : pinJson "0000" ≠ pinJson "1234" := by decide
    simp [pinNode, hother]
  · intro c hc d hd
    obtain ⟨made, made', hmade, hmade', hcmade, hcmade'⟩ := mem_corresponding_alicePaysWith hc
    obtain ⟨other, other', hother, hother', hdmade, hdmade'⟩ := mem_corresponding_alicePaysWith hd
    obtain rfl := Except.ok.inj (hmade.symm.trans hother)
    obtain rfl := Except.ok.inj (hmade'.symm.trans hother')
    rw [hcmade, hcmade', hdmade, hdmade']
    exact iff_of_true rfl rfl

end UpiOfflineMesh
