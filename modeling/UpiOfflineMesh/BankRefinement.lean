import UpiOfflineMesh.Bank
import UpiOfflineMesh.Conservation
import UpiOfflineMesh.LedgerIndex
import UpiOfflineMesh.Reconciliation

/-!
# The server is a bank with whole balances

What the texts of the server come to as long as senders write whole paise. A stored balance
is a number of paise, a delivery opens to an order in paise or to none, and the server then
does what the bank does: the same keys, the same ledger, the same answers, step by step.
-/

namespace UpiOfflineMesh

open Js InMemoryDb

/-! ### The books of the server -/

/-- The balance in paise. -/
def Account.paise (account : Account) : ℕ :=
  Number.roundHundredths account.getBalanceAsNumber.toRat

/-- Balances in paise, ledger entries and claims. -/
def Server.books (server : Server) : Bank.Books String String where
  balance vpa := (server.db.accounts.get vpa).map Account.paise
  ledger := server.db.rows.map fun row => (row.packetHash, row.status = .settled)
  claims hash := (server.seen.get hash).map Prod.snd

/-- An amount in paise; only an infinite one has no number of them. -/
def paiseOf : Number → ℕ∞
  | .fin a => Number.roundHundredths a
  | _ => ⊤

/-- A payment of this amount as an order in paise. -/
def orderIn (sender receiver : String) (amount : Number) : Bank.Order String where
  payer := sender
  payee := receiver
  amount := paiseOf amount

/-- The order that a packet opens to at an instant: it decrypts to a fresh payment of a
positive amount between texts, with a valid date. -/
def Backend.orderOf (backend : Backend) (packet : MeshPacket) (now : ℤ) :
    Option (Bank.Order String) := do
  let instruction ← (backend.crypto.decrypt packet.ciphertext).toOption
  let refusal ← (backend.freshness now instruction).toOption
  let sender ← instruction.senderVpa.asText
  let receiver ← instruction.receiverVpa.asText
  let amount ← (instruction.amount.parseFloat backend.platform).toOption
  let date ← (newDate backend.platform instruction.signedAt).toOption
  if refusal.isNone ∧ amount.isNaN = false ∧ amount.le (.fin 0) = false ∧ date.isSome then
    some (orderIn sender receiver amount)
  else none

/-- What an event is for the bank. -/
def Backend.request (backend : Backend) : Event → Bank.Request String String
  | .ingest packet _ _ clock =>
    .deliver (backend.hashOf packet) clock.claimed (backend.orderOf packet clock.checked)
  | .evictExpired now => .forget fun instant => instant < SeenCache.cutoff backend.ttlSeconds now
  | .clear => .forget fun _ => true

/-- The outcome with which the server reports an answer of the bank: a declined payment
is reported like a paid one. -/
def outcomeOf : Bank.Answer → Outcome
  | .dropped => .duplicateDropped
  | .refused => .invalid
  | .declined => .settled
  | .paid => .settled

/-- What the packet has to open to for an order. -/
structure Backend.Opens (backend : Backend) (packet : MeshPacket) (now : ℤ)
    (instruction : PaymentInstruction) (sender receiver : String) (amount : Number)
    (signedAt : ℤ) : Prop where
  accepts : backend.Accepts now packet instruction
  senderVpa_eq : instruction.senderVpa = .str sender
  receiverVpa_eq : instruction.receiverVpa = .str receiver
  amount_read : instruction.amount.parseFloat backend.platform = .ok amount
  amount_isNumber : amount.isNaN = false
  amount_positive : amount.le (.fin 0) = false
  signedAt_valid : newDate backend.platform instruction.signedAt = .ok (some signedAt)

theorem toOption_eq_some_iff {α : Type} {x : Except Error α} {a : α} :
    x.toOption = some a ↔ x = .ok a := by
  cases x with
  | error err => simp [Except.toOption]
  | ok b => simp [Except.toOption]

theorem Backend.orderOf_eq_some_iff {backend : Backend} {packet : MeshPacket} {now : ℤ}
    {order : Bank.Order String} : backend.orderOf packet now = some order ↔
      ∃ instruction sender receiver amount signedAt,
        backend.Opens packet now instruction sender receiver amount signedAt ∧
          order = orderIn sender receiver amount := by
  simp only [orderOf, Option.bind_eq_bind, Option.bind_eq_some_iff, toOption_eq_some_iff,
    Value.asText_eq_some_iff, Option.ite_none_right_eq_some, Option.some.injEq]
  constructor
  · rintro ⟨instruction, hdecrypted, refusal, hfresh, sender, hsender, receiver, hreceiver, amount,
      hread, date, hdate, ⟨hnone, hnumber, hpositive, hvalid⟩, horder⟩
    obtain rfl := Option.isNone_iff_eq_none.mp hnone
    obtain ⟨signedAt, rfl⟩ := Option.isSome_iff_exists.mp hvalid
    exact ⟨instruction, sender, receiver, amount, signedAt, ⟨⟨hdecrypted, hfresh⟩, hsender,
      hreceiver, hread, hnumber, hpositive, hdate⟩, horder.symm⟩
  · rintro ⟨instruction, sender, receiver, amount, signedAt, h, rfl⟩
    exact ⟨instruction, h.accepts.decrypted, none, h.accepts.fresh, sender, h.senderVpa_eq,
      receiver, h.receiverVpa_eq, amount, h.amount_read, some signedAt, h.signedAt_valid,
      ⟨rfl, h.amount_isNumber, h.amount_positive, rfl⟩, rfl⟩

/-! ### One step -/

section

variable {backend : Backend} {server : Server} {db : InMemoryDb} {packet : MeshPacket}
  {instruction : PaymentInstruction} {sender receiver : Account} {amount : Number} {signedAt : ℤ}
  {n : ℕ} {a : ℚ}

theorem Account.Holds.paise_eq {account : Account} (h : account.Holds n) : account.paise = n := by
  rw [Account.paise, h.getBalanceAsNumber, Number.toRat_fin, Number.roundHundredths_div]

/-- The comparison of whole paise is that of the numbers. -/
theorem lt_amount_iff {account : Account} (h : account.Holds n) (hnumber : amount.isNaN = false)
    (hpositive : amount.le (.fin 0) = false)
    (hwhole : ∀ a, amount = .fin a → Number.IsHundredths a) :
    account.getBalanceAsNumber.lt amount = true ↔ (n : ℕ∞) < paiseOf amount := by
  rw [h.getBalanceAsNumber]
  cases amount with
  | nan => cases hnumber
  | negInfinity => cases hpositive
  | infinity => exact iff_of_true rfl (ENat.natCast_lt_top n)
  | fin a =>
    rw [Number.le_fin, decide_eq_false_iff_not, not_le] at hpositive
    have hpaise := (hwhole a rfl).roundHundredths_div hpositive.le
    rw [Number.lt_fin, decide_eq_true_iff, paiseOf, Nat.cast_lt, ← hpaise,
      div_lt_div_iff_of_pos_right (by norm_num), Nat.cast_lt, hpaise]

theorem Account.Holds.paise_debited {account : Account} (h : account.Holds n) (hpos : 0 < a)
    (hwhole : Number.IsHundredths a) (hcovered : a ≤ (n : ℚ) / 100) :
    (account.debited (.fin a)).paise = n - Number.roundHundredths a := by
  rw [(h.debited hcovered).paise_eq]
  have hpaise := hwhole.roundHundredths_div hpos.le
  have hrest := ((Number.isHundredths_natCast_div n).sub hwhole).roundHundredths_div
    (sub_nonneg.mpr hcovered)
  have hsum : (Number.roundHundredths ((n : ℚ) / 100 - a) : ℚ) + Number.roundHundredths a = n := by
    linarith
  have hnat : Number.roundHundredths ((n : ℚ) / 100 - a) + Number.roundHundredths a = n := by
    exact_mod_cast hsum
  omega

theorem Account.Holds.paise_credited {account : Account} (h : account.Holds n) (hpos : 0 < a) :
    (account.credited (.fin a)).paise = n + Number.roundHundredths a := by
  rw [(h.credited hpos.le).paise_eq, Number.roundHundredths_add hpos.le]

theorem claims_isSome (server : Server) (hash : String) :
    (server.books.claims hash).isSome = server.seen.has hash := by
  rw [Server.books, Option.isSome_map]
  cases hget : server.seen.get hash with
  | none => exact (KeyedMap.has_eq_false_iff _ |>.mpr hget).symm
  | some entry => exact (KeyedMap.has_of_get hget).symm

/-- Claiming a hash is claiming a key. -/
theorem books_claim (server : Server) (hash : String) (instant : ℤ) :
    (server.claim hash instant).books = server.books.claim hash instant := by
  have hclaims : (fun key => ((server.seen.set (hash, instant)).get key).map Prod.snd) =
      Function.update (fun key => (server.seen.get key).map Prod.snd) hash (some instant) := by
    funext key
    rw [KeyedMap.get_set, Function.update_apply]
    by_cases hkey : hash = key
    · simp [hkey]
    · rw [if_neg hkey, if_neg (Ne.symm hkey)]
  exact congrArg (Bank.Books.mk _ _) hclaims

/-- A new row is a new entry of the ledger. -/
theorem books_insertRow (seen : SeenCache) (db : InMemoryDb) (row : Transaction) :
    (Server.mk seen (db.insertRow row)).books =
      (Server.mk seen db).books.enter row.packetHash (row.status = .settled) := by
  simp [Server.books, Bank.Books.enter, rows_insertRow]

/-- Rewriting both balances of a covered payment is moving its paise. -/
theorem books_transfer (seen : SeenCache) (hsound : db.Sound)
    (h : CoveredPayment db sender receiver a) (hwhole : Number.IsHundredths a) :
    (Server.mk seen (db.transfer sender receiver (.fin a))).books =
      (Server.mk seen db).books.move (orderIn sender.vpa receiver.vpa (.fin a)) sender.paise
        receiver.paise := by
  obtain ⟨n, m, hn, hm, hcovered⟩ := h.exists_holds hsound
  have hbalance : (fun vpa => ((db.transfer sender receiver (.fin a)).accounts.get vpa).map
      Account.paise) = ((Server.mk seen db).books.move (orderIn sender.vpa receiver.vpa (.fin a))
        sender.paise receiver.paise).balance := by
    funext vpa
    have hpayer : (orderIn sender.vpa receiver.vpa (.fin a)).payer = sender.vpa := rfl
    have hpayee : (orderIn sender.vpa receiver.vpa (.fin a)).payee = receiver.vpa := rfl
    have hamount : (orderIn sender.vpa receiver.vpa (.fin a)).amount.toNat =
        Number.roundHundredths a := ENat.toNat_natCast _
    rw [Bank.balance_move, get_transfer, hn.paise_eq, hm.paise_eq, hamount]
    generalize orderIn sender.vpa receiver.vpa (.fin a) = order at hpayer hpayee
    rw [hpayer, hpayee]
    by_cases hreceiver : receiver.vpa = vpa
    · rw [if_pos hreceiver, if_pos hreceiver.symm, Option.map_some, hm.paise_credited h.positive]
    rw [if_neg hreceiver, if_neg (Ne.symm hreceiver)]
    by_cases hsender : sender.vpa = vpa
    · rw [if_pos hsender, if_pos hsender.symm, Option.map_some,
        hn.paise_debited h.positive hwhole hcovered]
    · rw [if_neg hsender, if_neg (Ne.symm hsender)]
      rfl
  exact congrArg (fun balance => Bank.Books.mk balance _ _) hbalance

theorem balance_of_accountOf {vpa : Value} {account : Account}
    (h : server.db.accountOf vpa = some account) :
    server.books.balance account.vpa = some account.paise :=
  Option.map_eq_some_iff.mpr ⟨account, get_of_accountOf h, rfl⟩

theorem mem_ledger_iff (hindexed : server.db.Indexed) {hash : String} :
    hash ∈ server.books.ledger.map Prod.fst ↔ server.db.txPacketHashes.has hash = true := by
  rw [hindexed.has_iff, Server.books, List.map_map, List.mem_map]
  rfl

/-- What an admissible delivery opens to. -/
theorem orderOf_of_admissible {clock : Clock}
    (haccepts : backend.Accepts clock.checked packet instruction)
    (h : Admissible backend.platform server.db instruction (backend.hashOf packet) sender receiver
      amount signedAt) :
    backend.orderOf packet clock.checked = some (orderIn sender.vpa receiver.vpa amount) :=
  Backend.orderOf_eq_some_iff.mpr ⟨instruction, sender.vpa, receiver.vpa, amount, signedAt,
    ⟨haccepts, eq_str_of_accountOf h.sender_known, eq_str_of_accountOf h.receiver_known,
      h.amount_read, h.amount_isNumber, h.amount_positive, h.signedAt_valid⟩, rfl⟩

/-- Its key is not in the ledger, claimed or not. -/
theorem unrecorded_of_admissible {instant : ℤ} (hindexed : server.db.Indexed)
    (h : Admissible backend.platform server.db instruction (backend.hashOf packet) sender receiver
      amount signedAt) :
    backend.hashOf packet ∉
      (server.claim (backend.hashOf packet) instant).books.ledger.map Prod.fst := by
  rw [@mem_ledger_iff (server.claim _ _) hindexed, Bool.not_eq_true]
  exact h.hash_fresh

/-- The bank finds a payment uncovered when the server does. -/
theorem uncovered_iff (hsound : server.db.Sound)
    (hsender : server.db.accounts.get sender.vpa = some sender) (hnumber : amount.isNaN = false)
    (hpositive : amount.le (.fin 0) = false)
    (hwhole : ∀ a, amount = .fin a → Number.IsHundredths a) :
    (sender.paise : ℕ∞) < paiseOf amount ↔ sender.getBalanceAsNumber.lt amount = true := by
  obtain ⟨n, hn⟩ := hsound sender (KeyedMap.mem_of_get hsender)
  rw [hn.paise_eq, lt_amount_iff hn hnumber hpositive hwhole]

/-- A delivery in whole hundredths reads no other finite amount. -/
theorem Event.InHundredths.of_read {bridgeNodeId : String} {hopCount : Number} {clock : Clock}
    (h : (Event.ingest packet bridgeNodeId hopCount clock).InHundredths backend)
    (hdecrypted : backend.crypto.decrypt packet.ciphertext = .ok instruction)
    (hread : instruction.amount.parseFloat backend.platform = .ok amount) :
    ∀ a, amount = .fin a → Number.IsHundredths a :=
  fun a ha => h a ⟨instruction, hdecrypted, ha ▸ hread⟩

/-- What the server refuses, the bank refuses. -/
theorem deliver_of_refused {bridgeNodeId : String} {hopCount : Number} {clock : Clock}
    (hsound : server.db.Sound) (hindexed : server.db.Indexed)
    (hwhole : (Event.ingest packet bridgeNodeId hopCount clock).InHundredths backend)
    (hnew : server.seen.has (backend.hashOf packet) = false)
    (hwhy : ∀ instruction sender receiver amount signedAt,
      backend.Accepts clock.checked packet instruction →
      Admissible backend.platform server.db instruction (backend.hashOf packet) sender receiver
          amount signedAt →
        sender.getBalanceAsNumber.lt amount = false ∧ sender.vpa = receiver.vpa) :
    server.books.deliver (backend.hashOf packet) clock.claimed
        (backend.orderOf packet clock.checked) =
      (.refused, (server.claim (backend.hashOf packet) clock.claimed).books) := by
  have hclaimed := (claims_isSome server (backend.hashOf packet)).trans hnew
  rw [books_claim]
  cases horder : backend.orderOf packet clock.checked with
  | none => rw [Bank.deliver_none hclaimed]
  | some order =>
    obtain ⟨instruction, payer, payee, amount, signedAt, hopens, rfl⟩ :=
      Backend.orderOf_eq_some_iff.mp horder
    rw [Bank.deliver_some hclaimed, ← books_claim]
    refine Bank.execute_refused fun hunrecorded available held hpayer hpayee => ?_
    obtain ⟨sender, hsender, rfl⟩ := Option.map_eq_some_iff.mp hpayer
    obtain ⟨receiver, hreceiver, rfl⟩ := Option.map_eq_some_iff.mp hpayee
    obtain rfl : sender.vpa = payer := KeyedMap.key_of_get hsender
    obtain rfl : receiver.vpa = payee := KeyedMap.key_of_get hreceiver
    rw [@mem_ledger_iff (server.claim _ _) hindexed, Bool.not_eq_true] at hunrecorded
    obtain ⟨hcovered, hsame⟩ := hwhy instruction sender receiver amount signedAt hopens.accepts
      ⟨by rw [hopens.senderVpa_eq]; exact hsender, by rw [hopens.receiverVpa_eq]; exact hreceiver,
        hopens.amount_read, hopens.amount_isNumber, hopens.amount_positive,
        hopens.signedAt_valid, hunrecorded⟩
    refine ⟨?_, hsame⟩
    change ¬(sender.paise : ℕ∞) < paiseOf amount
    rw [uncovered_iff hsound hsender hopens.amount_isNumber hopens.amount_positive
      (hwhole.of_read hopens.accepts.decrypted hopens.amount_read), hcovered]
    exact Bool.false_ne_true

/-- **A delivery is a delivery to the bank,** with the same outcome and the same books after
it. -/
theorem books_ingest {bridgeNodeId : String} {hopCount : Number} {clock : Clock}
    (hsound : server.db.Sound) (hindexed : server.db.Indexed)
    (hwhole : (Event.ingest packet bridgeNodeId hopCount clock).InHundredths backend) :
    ∃ answer, server.books.deliver (backend.hashOf packet) clock.claimed
        (backend.orderOf packet clock.checked) =
          (answer, (backend.ingest server packet bridgeNodeId hopCount clock).2.books) ∧
      outcomeOf answer = (backend.ingest server packet bridgeNodeId hopCount clock).1.outcome := by
  have heffect := @Backend.ingest_effect backend server packet bridgeNodeId hopCount clock
  generalize backend.ingest server packet bridgeNodeId hopCount clock = result at heffect ⊢
  obtain ⟨result, after⟩ := result
  have hclaimed := claims_isSome server (backend.hashOf packet)
  have hbooks := books_claim server (backend.hashOf packet) clock.claimed
  cases heffect with
  | duplicate hseen =>
    rw [hseen] at hclaimed
    exact ⟨.dropped, Bank.deliver_of_claimed hclaimed, rfl⟩
  | refused hash reason hnew hwhy =>
    exact ⟨.refused, deliver_of_refused hsound hindexed hwhole hnew hwhy, rfl⟩
  | @rejected instruction sender receiver amount signedAt hnew haccepts hadmissible hfunds row
      hrow =>
    have hpaise := (uncovered_iff hsound (get_of_accountOf hadmissible.sender_known)
      hadmissible.amount_isNumber hadmissible.amount_positive
      (hwhole.of_read haccepts.decrypted hadmissible.amount_read)).mpr hfunds
    have hexecute : (server.claim (backend.hashOf packet) clock.claimed).books.execute
        (backend.hashOf packet) (orderIn sender.vpa receiver.vpa amount) = (.declined, _) :=
      Bank.execute_declined (unrecorded_of_admissible hindexed hadmissible)
        (balance_of_accountOf hadmissible.sender_known)
        (balance_of_accountOf hadmissible.receiver_known) hpaise
    rw [hnew] at hclaimed
    refine ⟨.declined, ?_, rfl⟩
    rw [orderOf_of_admissible haccepts hadmissible, Bank.deliver_some hclaimed, ← hbooks, hexecute,
      books_insertRow, hrow]
    rfl
  | @settled instruction sender receiver amount signedAt hnew haccepts hadmissible hfunds hne row
      hrow =>
    have hread := hwhole.of_read haccepts.decrypted hadmissible.amount_read
    have hpaise := (uncovered_iff hsound (get_of_accountOf hadmissible.sender_known)
      hadmissible.amount_isNumber hadmissible.amount_positive hread).not.mpr (by simp [hfunds])
    obtain ⟨a, rfl, hpayment⟩ := hsound.exists_coveredPayment
      (get_of_accountOf hadmissible.sender_known) (get_of_accountOf hadmissible.receiver_known) hne
      hadmissible.amount_isNumber hadmissible.amount_positive hfunds
    have hexecute : (server.claim (backend.hashOf packet) clock.claimed).books.execute
        (backend.hashOf packet) (orderIn sender.vpa receiver.vpa (.fin a)) = (.paid, _) :=
      Bank.execute_paid (unrecorded_of_admissible hindexed hadmissible)
        (balance_of_accountOf hadmissible.sender_known)
        (balance_of_accountOf hadmissible.receiver_known) hpaise hne
    rw [hnew] at hclaimed
    refine ⟨.paid, ?_, rfl⟩
    rw [orderOf_of_admissible haccepts hadmissible, Bank.deliver_some hclaimed, ← hbooks, hexecute,
      books_insertRow, books_transfer _ hsound hpayment (hread a rfl), hrow]
    rfl

end

/-- **One step of the server is one step of the bank,** when it delivers whole hundredths. -/
theorem books_next {backend : Backend} {server : Server} (hsound : server.db.Sound)
    (hindexed : server.db.Indexed) {event : Event} (hwhole : event.InHundredths backend) :
    Bank.machine.next server.books (backend.request event) =
        (backend.machine.next server event).books ∧
      (Bank.machine.step server.books (backend.request event)).1.map outcomeOf =
        (backend.machine.step server event).1.map IngestResult.outcome := by
  cases event with
  | ingest packet bridgeNodeId hopCount clock =>
    obtain ⟨answer, hdeliver, houtcome⟩ :=
      @books_ingest backend server packet bridgeNodeId hopCount clock hsound hindexed hwhole
    simp only [Machine.next, Bank.machine, Backend.request, hdeliver]
    exact ⟨rfl, congrArg some houtcome⟩
  | evictExpired now =>
    refine ⟨?_, rfl⟩
    have hclaims : (server.books.forget fun instant =>
        instant < SeenCache.cutoff backend.ttlSeconds now).claims =
          fun hash => ((server.seen.evictExpired backend.ttlSeconds now).get hash).map Prod.snd := by
      funext hash
      change ((server.seen.get hash).map Prod.snd).filter (fun instant : ℤ =>
        !decide ((instant : ℚ) < SeenCache.cutoff backend.ttlSeconds now)) = _
      rw [SeenCache.get_evictExpired]
      cases server.seen.get hash with
      | none => rfl
      | some entry =>
        by_cases hold : (entry.2 : ℚ) < SeenCache.cutoff backend.ttlSeconds now
        · simp [Option.filter, hold]
        · simp [Option.filter, hold, not_lt.mp hold]
    exact congrArg (Bank.Books.mk _ _) hclaims
  | clear =>
    refine ⟨?_, rfl⟩
    have hclaims : (server.books.forget fun _ => true).claims = fun _ => none := by
      funext hash
      change (server.books.claims hash).filter (fun _ => !true) = none
      cases server.books.claims hash with
      | none => rfl
      | some instant => rfl
    exact congrArg (Bank.Books.mk _ _) hclaims

/-- A run in whole hundredths, from any sound state, is a run of the bank. -/
theorem books_final {backend : Backend} {server : Server} (hsound : server.db.Sound)
    (hindexed : server.db.Indexed) {events : List Event}
    (hwhole : ∀ event ∈ events, event.InHundredths backend) :
    (backend.machine.final server events).books =
        Bank.machine.final server.books (events.map backend.request) ∧
      (backend.machine.transitions server events).map
          (fun t => t.output.map IngestResult.outcome) =
        (Bank.machine.transitions server.books (events.map backend.request)).map
          fun t => t.output.map outcomeOf := by
  have hevents : List.Forall₂ (fun event request => event.InHundredths backend ∧
      request = backend.request event) events (events.map backend.request) := by
    rw [List.forall₂_map_right_iff]
    exact List.forall₂_same.mpr fun event hevent => ⟨hwhole event hevent, rfl⟩
  have hstep : ∀ (server : Server) (books : Bank.Books String String) (event : Event)
      (request : Bank.Request String String),
      (server.db.Sound ∧ server.db.Indexed ∧ books = server.books) →
        (event.InHundredths backend ∧ request = backend.request event) →
          ((backend.machine.step server event).1.map IngestResult.outcome =
              (Bank.machine.step books request).1.map outcomeOf) ∧
            (backend.machine.next server event).db.Sound ∧
              (backend.machine.next server event).db.Indexed ∧
                Bank.machine.next books request = (backend.machine.next server event).books := by
    rintro server _ event _ ⟨hsound, hindexed, rfl⟩ ⟨hevent, rfl⟩
    obtain ⟨hbooks, houtcome⟩ := books_next hsound hindexed hevent
    exact ⟨houtcome.symm, (sound_next hsound event).1, indexed_next hindexed event, hbooks⟩
  obtain ⟨houtputs, -, -, hbooks⟩ := Machine.simulation
    (O := fun (output : Option IngestResult) (answer : Option Bank.Answer) =>
      output.map IngestResult.outcome = answer.map outcomeOf) hstep ⟨hsound, hindexed, rfl⟩ hevents
  refine ⟨hbooks.symm, ?_⟩
  rw [← List.forall₂_eq_eq_eq, List.forall₂_map_left_iff, List.forall₂_map_right_iff]
  rw [List.forall₂_map_left_iff, List.forall₂_map_right_iff] at houtputs
  exact houtputs

/-- **The server refines the bank.** In every run whose delivered amounts are whole paise its
books are those of the bank after the same requests, and each delivery has the outcome of the
bank's answer. -/
theorem server_refines_bank (backend : Backend) (events : List Event)
    (hwhole : ∀ event ∈ events, event.InHundredths backend) :
    (backend.machine.final seeded events).books =
        Bank.machine.final seeded.books (events.map backend.request) ∧
      (backend.machine.transitions seeded events).map
          (fun t => t.output.map IngestResult.outcome) =
        (Bank.machine.transitions seeded.books (events.map backend.request)).map
          fun t => t.output.map outcomeOf :=
  books_final sound_seededDb indexed_seededDb hwhole

/-- The bank after Alice's payment of 500 was delivered twice. -/
theorem server_refines_bank_twice_delivered :
    (Bank.machine.transitions seeded.books ([deliver "c1" 2000, deliver "c1" 3000].map
      (backendPaying (.num (.fin 500)) (.num (.fin 1000))).request)).map
        (fun t => t.output.map outcomeOf) = [some .settled, some .duplicateDropped] := by
  rw [← (server_refines_bank (backendPaying (.num (.fin 500)) (.num (.fin 1000)))
    [deliver "c1" 2000, deliver "c1" 3000] (by
      intro event hevent
      simp only [List.mem_cons, List.not_mem_nil, or_false] at hevent
      rcases hevent with rfl | rfl
      · exact inHundredths_deliver 2000
      · exact inHundredths_deliver 3000)).2]
  decide +kernel

/-! ### The total of the server -/

/-- The registered addresses. -/
def InMemoryDb.addresses (db : InMemoryDb) : Finset String :=
  (db.accounts.values.map Account.vpa).toFinset

section

variable {server : Server}

theorem mem_addresses {vpa : String} :
    vpa ∈ server.db.addresses ↔ (server.books.balance vpa).isSome := by
  rw [InMemoryDb.addresses, List.mem_toFinset, Server.books, Option.isSome_map]
  cases hget : server.db.accounts.get vpa with
  | none =>
    simp only [Option.isSome_none, Bool.false_eq_true, iff_false, List.mem_map, not_exists, not_and]
    exact (KeyedMap.get_eq_none_iff _).mp hget
  | some account =>
    simp only [Option.isSome_some, iff_true, List.mem_map]
    exact ⟨account, KeyedMap.mem_of_get hget, KeyedMap.key_of_get hget⟩

/-- Balances in rupees add up like balances in paise. -/
theorem sum_paise {accounts : List Account} (h : ∀ account ∈ accounts, ∃ n, account.Holds n) :
    (accounts.map (·.getBalanceAsNumber.toRat)).sum =
      ((accounts.map Account.paise).sum : ℚ) / 100 := by
  induction accounts with
  | nil => simp
  | cons account accounts ih =>
    obtain ⟨n, hn⟩ := h account (by simp)
    rw [List.map_cons, List.sum_cons, ih fun other hother => h other (by simp [hother]),
      List.map_cons, List.sum_cons, hn.getBalanceAsNumber, hn.paise_eq, Number.toRat_fin]
    push_cast
    ring

/-- The total in rupees is the total of the books in paise. -/
theorem totalBalance_eq (hsound : server.db.Sound) :
    server.db.totalBalance = .fin ((server.books.total server.db.addresses : ℚ) / 100) := by
  have htotal : server.books.total server.db.addresses =
      (server.db.accounts.values.map Account.paise).sum := by
    rw [Bank.Books.total, InMemoryDb.addresses, List.sum_toFinset _ server.db.accounts.nodup,
      List.map_map]
    refine congrArg List.sum (List.map_congr_left fun account haccount => ?_)
    have hget := server.db.accounts.get_key_of_mem haccount
    simp [Server.books, hget]
  rw [InMemoryDb.totalBalance, sumBalances_of_holds hsound, sum_paise hsound, htotal]

theorem addresses_eq {db db' : InMemoryDb} (h : db.holders = db'.holders) :
    db.addresses = db'.addresses := by
  have hmap : ∀ db : InMemoryDb, db.addresses = (db.holders.map Prod.fst).toFinset := by
    intro db
    rw [InMemoryDb.addresses, InMemoryDb.holders, List.map_map]
    rfl
  rw [hmap, hmap, h]

end

/-- **A run in whole paise conserves the total,** from any sound state. -/
theorem totalBalance_final {backend : Backend} {server : Server} (hsound : server.db.Sound)
    (hindexed : server.db.Indexed) {events : List Event}
    (hwhole : ∀ event ∈ events, event.InHundredths backend) :
    (backend.machine.final server events).db.totalBalance = server.db.totalBalance := by
  have hstep : ∀ (current : Server) (event : Event),
      (current.db.Sound ∧ current.db.holders = server.db.holders) →
        (backend.machine.next current event).db.Sound ∧
          (backend.machine.next current event).db.holders = server.db.holders := by
    rintro current event ⟨hcurrent, hholders⟩
    obtain ⟨hnext, hkept⟩ := sound_next hcurrent event
    exact ⟨hnext, hkept.trans hholders⟩
  obtain ⟨hsound', hholders⟩ := Machine.invariant_all hstep ⟨hsound, rfl⟩ events
  have hover : server.books.Over server.db.addresses := fun vpa => mem_addresses.symm
  have htotal := Bank.total_final hover (events.map backend.request)
  rw [← (books_final hsound hindexed hwhole).1] at htotal
  rw [totalBalance_eq hsound, totalBalance_eq hsound', addresses_eq hholders, htotal]

end UpiOfflineMesh
