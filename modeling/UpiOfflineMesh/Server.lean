import UpiOfflineMesh.BridgeIngestionService
import UpiOfflineMesh.Machine

/-!
# The server as a machine

Deliveries, cache evictions and cache resets are the events that move the
server's state. The server starts with the four demo accounts. What one event
preserves is proved here; the run rules of `Machine` turn it into invariants of
every reachable state.
-/

namespace UpiOfflineMesh

open Js InMemoryDb

/-- What can happen to the server. -/
inductive Event where
  /-- A bridge uploads a packet. -/
  | ingest (packet : MeshPacket) (bridgeNodeId : String) (hopCount : Number) (clock : Clock)
  /-- The cleanup timer fires. -/
  | evictExpired (now : ℤ)
  /-- `/mesh/reset` clears the idempotency cache. -/
  | clear

/-- The server of a backend; only deliveries are answered. -/
def Backend.machine (backend : Backend) : Machine Server Event (Option IngestResult) where
  step server
    | .ingest packet bridgeNodeId hopCount clock =>
      let (result, server) := backend.ingest server packet bridgeNodeId hopCount clock
      (some result, server)
    | .evictExpired now =>
      (none, { server with seen := server.seen.evictExpired backend.ttlSeconds now })
    | .clear => (none, { server with seen := .empty })

/-- Seeds the demo accounts if the database is empty. -/
def seedAccounts : DbM Unit := do
  let db ← get
  if db.countAccounts = 0 then
    let _ ← saveAccount (.new "alice@demo" "Alice" (.inl (.fin 5000)))
    let _ ← saveAccount (.new "bob@demo" "Bob" (.inl (.fin 1000)))
    let _ ← saveAccount (.new "carol@demo" "Carol" (.inl (.fin 2500)))
    let _ ← saveAccount (.new "dave@demo" "Dave" (.inl (.fin 500)))

/-- The database after start-up. -/
def seededDb : InMemoryDb := (seedAccounts.run .empty).2

/-- The server after start-up. -/
def seeded : Server := ⟨.empty, seededDb⟩

theorem seededDb_eq : seededDb = { InMemoryDb.empty with accounts := seededDb.accounts } ∧
    seededDb.accounts.values =
      [⟨"alice@demo", "Alice", "5000.00", 0⟩, ⟨"bob@demo", "Bob", "1000.00", 0⟩,
        ⟨"carol@demo", "Carol", "2500.00", 0⟩, ⟨"dave@demo", "Dave", "500.00", 0⟩] := by
  constructor
  · rfl
  · decide +kernel

@[simp] theorem rows_seededDb : seededDb.rows = [] := by
  rw [seededDb_eq.1]
  rfl

/-! ### The effect of one event -/

/-- The packet hash of a delivery, none for other events. -/
def Event.hash (backend : Backend) : Event → Option String
  | .ingest packet _ _ _ => some (backend.hashOf packet)
  | _ => none

/-- The readings of the clock during an event, in their order. -/
def Event.readings : Event → List ℤ
  | .ingest _ _ _ clock => [clock.claimed, clock.checked, clock.stamped]
  | .evictExpired now => [now]
  | .clear => []

/-- The clock does not run backwards during these events. -/
def ClockOrdered (events : List Event) : Prop := (events.flatMap Event.readings).Pairwise (· ≤ ·)

/-- The event delivers an instruction whose amount reads as this number. -/
def Event.ReadsAmount (backend : Backend) (amount : Number) : Event → Prop
  | .ingest packet _ _ _ => ∃ instruction, backend.crypto.decrypt packet.ciphertext = .ok instruction ∧
      instruction.amount.parseFloat backend.platform = .ok amount
  | _ => False

section

variable {backend : Backend} {server : Server}

@[simp] theorem next_ingest (packet : MeshPacket) (bridgeNodeId : String) (hopCount : Number)
    (clock : Clock) : backend.machine.next server (.ingest packet bridgeNodeId hopCount clock) =
      (backend.ingest server packet bridgeNodeId hopCount clock).2 := rfl

@[simp] theorem output_ingest (packet : MeshPacket) (bridgeNodeId : String) (hopCount : Number)
    (clock : Clock) :
    (backend.machine.step server (.ingest packet bridgeNodeId hopCount clock)).1 =
      some (backend.ingest server packet bridgeNodeId hopCount clock).1 := rfl

@[simp] theorem next_evictExpired (now : ℤ) :
    backend.machine.next server (.evictExpired now) =
      { server with seen := server.seen.evictExpired backend.ttlSeconds now } := rfl

@[simp] theorem next_clear :
    backend.machine.next server .clear = { server with seen := .empty } := rfl

/-- What any event can do to the database: nothing, or one row for the hash of
the delivery, which was not in the index, with the accounts unchanged for a
rejection and both balances rewritten for a settlement. -/
inductive DbEffect (backend : Backend) (server : Server) (event : Event) : InMemoryDb → Prop
  | unchanged : DbEffect backend server event server.db
  | rejected (row : Transaction) (hhash : event.hash backend = some row.packetHash)
      (hfresh : server.db.txPacketHashes.has row.packetHash = false)
      (hstatus : row.status = .rejected) (hid : row.id = server.db.nextTxId) :
      DbEffect backend server event (server.db.insertRow row)
  | settled (row : Transaction) (hhash : event.hash backend = some row.packetHash)
      (hfresh : server.db.txPacketHashes.has row.packetHash = false)
      (hstatus : row.status = .settled) (hid : row.id = server.db.nextTxId)
      (sender receiver : Account) (amount : Number)
      (hsender : server.db.accounts.get sender.vpa = some sender)
      (hreceiver : server.db.accounts.get receiver.vpa = some receiver)
      (hne : sender.vpa ≠ receiver.vpa) (hsent : row.senderVpa = .str sender.vpa)
      (hreceived : row.receiverVpa = .str receiver.vpa) (hamount : row.amount = amount.toFixed2)
      (hisNumber : amount.isNaN = false) (hpositive : amount.le (.fin 0) = false)
      (hfunds : sender.getBalanceAsNumber.lt amount = false)
      (hread : event.ReadsAmount backend amount) :
      DbEffect backend server event ((server.db.transfer sender receiver amount).insertRow row)

/-- **Effect of an event** on the database, from any state. -/
theorem db_effect (event : Event) :
    DbEffect backend server event (backend.machine.next server event).db := by
  cases event with
  | evictExpired now => exact .unchanged
  | clear => exact .unchanged
  | ingest packet bridgeNodeId hopCount clock =>
    have heffect := @Backend.ingest_effect backend server packet bridgeNodeId hopCount clock
    rw [next_ingest]
    generalize backend.ingest server packet bridgeNodeId hopCount clock = answer at heffect
    obtain ⟨result, after⟩ := answer
    cases heffect with
    | duplicate => exact .unchanged
    | refused => exact .unchanged
    | rejected hnew haccepts hadmissible hfunds row hrow =>
      subst hrow
      exact .rejected _ rfl hadmissible.hash_fresh rfl rfl
    | @settled instruction sender receiver amount signedAt hnew haccepts hadmissible hfunds hne row
        hrow =>
      subst hrow
      exact .settled _ rfl hadmissible.hash_fresh rfl rfl sender receiver amount
        (get_of_accountOf hadmissible.sender_known) (get_of_accountOf hadmissible.receiver_known)
        hne (eq_str_of_accountOf hadmissible.sender_known)
        (eq_str_of_accountOf hadmissible.receiver_known) rfl hadmissible.amount_isNumber
        hadmissible.amount_positive hfunds
        ⟨instruction, haccepts.decrypted, hadmissible.amount_read⟩

end

/-! ### A backend for concrete runs -/

/-- A platform in UTC on which only texts in the standard format are dates. -/
def utcPlatform : Platform where
  numberText
    | .nan => "NaN"
    | .infinity => "Infinity"
    | .negInfinity => "-Infinity"
    | .fin q => if q.den = 1 then toString q.num else (Number.fin q).toFixed2
  localToUtc t := t
  parseOtherDate _ := none

/-- A crypto service that opens the listed ciphertexts and refuses all others;
the idempotency key is the text itself. -/
def listedCrypto (opened : List (String × PaymentInstruction)) : CryptoService where
  hashCiphertext text := text
  decrypt text :=
    match opened.find? (fun entry => entry.1 = text) with
    | some entry => .ok entry.2
    | none => .error ⟨"Unsupported state or unable to authenticate data"⟩

/-- The windows of `src/config.js`: a day, a day and five minutes. -/
def shippedBackend (opened : List (String × PaymentInstruction)) : Backend where
  platform := utcPlatform
  crypto := listedCrypto opened
  ttlSeconds := 86400
  maxAgeSeconds := 86400
  clockSkewTolerance := 300

/-- A payment between two addresses. -/
def paymentOf (sender receiver : String) (amount signedAt : Value) : PaymentInstruction :=
  .ofFields (.str sender) (.str receiver) amount (.str "8f434346") (.str "n-1") signedAt

/-- A payment from Alice to Bob. -/
def alicePaysBob (amount signedAt : Value) : PaymentInstruction :=
  paymentOf "alice@demo" "bob@demo" amount signedAt

/-- The shipped backend that opens one ciphertext, to a payment from Alice to Bob. -/
def backendPaying (amount signedAt : Value) : Backend :=
  shippedBackend [("c1", alicePaysBob amount signedAt)]

theorem decrypt_backendPaying (amount signedAt : Value) :
    (backendPaying amount signedAt).crypto.decrypt "c1" = .ok (alicePaysBob amount signedAt) := rfl

/-- A packet with that ciphertext. -/
def packetOf (ciphertext : String) : MeshPacket := ⟨"packet-1", .fin 5, .fin 0, ciphertext⟩

/-- A delivery during which the clock stands still. -/
def deliver (ciphertext : String) (now : ℤ) : Event :=
  .ingest (packetOf ciphertext) "bridge-1" (.fin 2) ⟨now, now, now⟩

theorem next_deliver (backend : Backend) (server : Server) (ciphertext : String) (now : ℤ) :
    backend.machine.next server (deliver ciphertext now) =
      (backend.ingest server (packetOf ciphertext) "bridge-1" (.fin 2) ⟨now, now, now⟩).2 := rfl

end UpiOfflineMesh
