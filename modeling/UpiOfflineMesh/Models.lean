import UpiOfflineMesh.Js.Date

/-!
# Accounts, instructions, ledger rows and packets

The records of `src/models`, field by field. A money amount that arrives as a
number is written down with two decimals at once; an amount that arrives as a
string is kept as it is, whatever it says.
-/

namespace UpiOfflineMesh

open Js

/-- A money field as its caller passes it: a number or a text. -/
abbrev Money := Number ⊕ String

/-- `typeof x === 'number' ? x.toFixed(2) : x`, in the constructors of accounts
and ledger rows. -/
def Money.textWith (arith : Arithmetic) : Money → String
  | .inl x => arith.toFixed2 x
  | .inr s => s

/-- The text of a money field without rounding. -/
def Money.text (money : Money) : String := money.textWith .exact

/-- A bank account. -/
structure Account where
  /-- Virtual payment address, e.g. `alice@demo`. -/
  vpa : String
  holderName : String
  /-- Rupees with two decimals, as text. -/
  balance : String
  /-- Optimistic locking counter. -/
  version : ℕ
  deriving DecidableEq, Repr

/-- `new Account(vpa, holderName, balance, version)`. -/
def Account.new (vpa holderName : String) (balance : Money) (version : ℕ := 0) : Account :=
  ⟨vpa, holderName, balance.text, version⟩

/-- The balance as a number for calculations. -/
def Account.getBalanceAsNumberWith (arith : Arithmetic) (account : Account) : Number :=
  arith.parseFloat account.balance

/-- The balance as an exact number. -/
def Account.getBalanceAsNumber (account : Account) : Number :=
  account.getBalanceAsNumberWith .exact

/-- The account with a calculated balance, formatted to two decimals. -/
def Account.setBalanceFromNumberWith (arith : Arithmetic) (account : Account) (num : Number) :
    Account :=
  { account with balance := arith.toFixed2 num }

/-- The account with an exact new balance. -/
def Account.setBalanceFromNumber (account : Account) (num : Number) : Account :=
  account.setBalanceFromNumberWith .exact num

@[simp] theorem Account.setBalanceFromNumber_vpa (account : Account) (num : Number) :
    (account.setBalanceFromNumber num).vpa = account.vpa := rfl

@[simp] theorem Account.setBalanceFromNumber_version (account : Account) (num : Number) :
    (account.setBalanceFromNumber num).version = account.version := rfl

@[simp] theorem Account.setBalanceFromNumber_holderName (account : Account) (num : Number) :
    (account.setBalanceFromNumber num).holderName = account.holderName := rfl

/-- Copying an account through its constructor, as every read does, copies it exactly. -/
@[simp] theorem Account.new_text (account : Account) :
    Account.new account.vpa account.holderName (.inr account.balance) account.version = account :=
  rfl

/-- How `PaymentInstruction` writes an amount: numbers with two decimals (also those from
`10 ^ 21` on, whose exponent form is read as the same double), everything else as it came. -/
def writeAmount : Value → Value
  | .num x => .str x.toFixed2
  | amount => amount

/-- A decrypted payment. Its fields hold whatever the sender's JSON says, except
that the amount is no longer a number once the constructor has run. -/
structure PaymentInstruction where
  senderVpa : Value
  receiverVpa : Value
  amount : Value
  pinHash : Value
  nonce : Value
  /-- Epoch milliseconds, if the sender keeps to the format. -/
  signedAt : Value
  /-- The constructor has replaced a number by its text. -/
  amount_written : writeAmount amount = amount

theorem writeAmount_writeAmount (amount : Value) :
    writeAmount (writeAmount amount) = writeAmount amount := by
  cases amount <;> rfl

/-- The instruction of six field values, its amount written as the constructor does. -/
def PaymentInstruction.ofFields (senderVpa receiverVpa amount pinHash nonce signedAt : Value) :
    PaymentInstruction :=
  ⟨senderVpa, receiverVpa, writeAmount amount, pinHash, nonce, signedAt,
    writeAmount_writeAmount amount⟩

/-- The instruction as the object that `JSON.stringify` writes. -/
def PaymentInstruction.record (instruction : PaymentInstruction) : Value :=
  .obj [("senderVpa", instruction.senderVpa), ("receiverVpa", instruction.receiverVpa),
    ("amount", instruction.amount), ("pinHash", instruction.pinHash), ("nonce", instruction.nonce),
    ("signedAt", instruction.signedAt)]

/-- `new PaymentInstruction(data)`, which destructures its argument. -/
def PaymentInstruction.new (data : Value) : Except Error PaymentInstruction := do
  let senderVpa ← data.property "senderVpa"
  let receiverVpa ← data.property "receiverVpa"
  let amount ← data.property "amount"
  let pinHash ← data.property "pinHash"
  let nonce ← data.property "nonce"
  let signedAt ← data.property "signedAt"
  return .ofFields senderVpa receiverVpa amount pinHash nonce signedAt

/-- The status of a ledger row. -/
inductive TransactionStatus where
  /-- Funds were debited from the sender and credited to the receiver. -/
  | settled
  /-- The payment failed, e.g. for insufficient funds. -/
  | rejected
  deriving DecidableEq, Repr

/-- What a caller of `saveTransaction` supplies: a ledger row without its id. -/
structure TransactionData where
  packetHash : String
  senderVpa : Value
  receiverVpa : Value
  amount : Money
  /-- The instant of the ISO timestamp at which the sender signed. -/
  signedAt : ℤ
  /-- The instant of the ISO timestamp at which the server settled. -/
  settledAt : ℤ
  bridgeNodeId : String
  hopCount : Number
  status : TransactionStatus

/-- A row of the ledger. -/
structure Transaction where
  /-- Sequential transaction id. -/
  id : ℕ
  packetHash : String
  senderVpa : Value
  receiverVpa : Value
  amount : String
  signedAt : ℤ
  settledAt : ℤ
  bridgeNodeId : String
  hopCount : Number
  status : TransactionStatus

/-- `new Transaction({...txData, id})`. -/
def Transaction.newWith (arith : Arithmetic) (data : TransactionData) (id : ℕ) : Transaction where
  id := id
  packetHash := data.packetHash
  senderVpa := data.senderVpa
  receiverVpa := data.receiverVpa
  amount := data.amount.textWith arith
  signedAt := data.signedAt
  settledAt := data.settledAt
  bridgeNodeId := data.bridgeNodeId
  hopCount := data.hopCount
  status := data.status

/-- The row with its amount written without rounding. -/
def Transaction.new (data : TransactionData) (id : ℕ) : Transaction := .newWith .exact data id

/-- The row names this address as its sender. -/
def Transaction.sentBy (tx : Transaction) (vpa : String) : Bool := tx.senderVpa.asText = some vpa

/-- The row names this address as its receiver. -/
def Transaction.receivedBy (tx : Transaction) (vpa : String) : Bool :=
  tx.receiverVpa.asText = some vpa

/-- The packet that travels from phone to phone: readable header, encrypted payload. -/
structure MeshPacket where
  packetId : String
  /-- Hops remaining. -/
  ttl : Number
  /-- Epoch milliseconds of creation. -/
  createdAt : Number
  /-- Base64 text of the encrypted instruction. -/
  ciphertext : String
  deriving DecidableEq

/-- A required field that holds a non-empty string. -/
def requiredText (data : Value) (name message : String) : Except Error String :=
  match data.field name with
  | .str text => if text = "" then .error ⟨message⟩ else .ok text
  | _ => .error ⟨message⟩

/-- A required field that holds a number, unless the number is refused. -/
def requiredNumber (data : Value) (name message : String) (refused : Number → Bool) :
    Except Error Number :=
  match data.field name with
  | .num x => if refused x then .error ⟨message⟩ else .ok x
  | _ => .error ⟨message⟩

namespace MeshPacket

/-- `MeshPacket.validate(data)`: the packet of a request body. -/
def validate (data : Value) : Except Error MeshPacket := do
  if !(data.truthy && data.isObject) then
    throw ⟨"Packet payload must be a valid JSON object"⟩
  let packetId ← requiredText data "packetId" "Field \"packetId\" (string) is required"
  let ttl ← requiredNumber data "ttl" "Field \"ttl\" must be a non-negative number"
    fun ttl => ttl.lt (.fin 0)
  let createdAt ← requiredNumber data "createdAt"
    "Field \"createdAt\" must be an epoch millisecond number" fun _ => false
  let ciphertext ← requiredText data "ciphertext" "Field \"ciphertext\" (Base64 string) is required"
  return ⟨packetId, ttl, createdAt, ciphertext⟩

/-- The body that posts the fields of a packet. -/
def record (packet : MeshPacket) : Value :=
  .obj [("packetId", .str packet.packetId), ("ttl", .num packet.ttl),
    ("createdAt", .num packet.createdAt), ("ciphertext", .str packet.ciphertext)]

/-- What the checks of `validate` let through. -/
structure WellFormed (packet : MeshPacket) : Prop where
  packetId : packet.packetId ≠ ""
  ttl : packet.ttl.lt (.fin 0) = false
  ciphertext : packet.ciphertext ≠ ""

end MeshPacket

section

variable {data : Value} {name message : String} {packet : MeshPacket}

theorem requiredText_eq_ok_iff {text : String} :
    requiredText data name message = .ok text ↔ data.field name = .str text ∧ text ≠ "" := by
  unfold requiredText
  constructor
  · intro h
    split at h
    case h_1 s hfield =>
      split at h
      case isTrue => cases h
      case isFalse hne =>
        obtain rfl := Except.ok.inj h
        exact ⟨hfield, hne⟩
    case h_2 => cases h
  · rintro ⟨hfield, hne⟩
    simp [hfield, hne]

theorem requiredNumber_eq_ok_iff {refused : Number → Bool} {x : Number} :
    requiredNumber data name message refused = .ok x ↔
      data.field name = .num x ∧ refused x = false := by
  unfold requiredNumber
  constructor
  · intro h
    split at h
    case h_1 y hfield =>
      split at h
      case isTrue => cases h
      case isFalse hallowed =>
        obtain rfl := Except.ok.inj h
        exact ⟨hfield, Bool.eq_false_of_not_eq_true hallowed⟩
    case h_2 => cases h
  · rintro ⟨hfield, hallowed⟩
    simp [hfield, hallowed]

/-- **What `validate` accepts:** an object with the fields of a well-formed packet. -/
theorem MeshPacket.validate_eq_ok_iff :
    validate data = .ok packet ↔ packet.WellFormed ∧ (data.truthy && data.isObject) = true ∧
      data.field "packetId" = .str packet.packetId ∧ data.field "ttl" = .num packet.ttl ∧
      data.field "createdAt" = .num packet.createdAt ∧
      data.field "ciphertext" = .str packet.ciphertext := by
  unfold validate
  cases hobject : data.truthy && data.isObject with
  | false =>
    simp only [Bool.not_false, if_true, Bool.false_eq_true, false_and, and_false, iff_false]
    intro h
    obtain ⟨_, hthrown, -⟩ := bind_eq_ok_iff.mp h
    cases hthrown
  | true =>
    simp only [Bool.not_true, Bool.false_eq_true, if_false, bind_eq_ok_iff,
      requiredText_eq_ok_iff, requiredNumber_eq_ok_iff]
    constructor
    · rintro ⟨packetId, ⟨hpacketId, hid⟩, ttl, ⟨httl, hhops⟩, createdAt, ⟨hcreatedAt, -⟩,
        ciphertext, ⟨hciphertext, htext⟩, hpacket⟩
      obtain rfl := Except.ok.inj hpacket
      exact ⟨⟨hid, hhops, htext⟩, trivial, hpacketId, httl, hcreatedAt, hciphertext⟩
    · rintro ⟨hwell, -, hpacketId, httl, hcreatedAt, hciphertext⟩
      exact ⟨_, ⟨hpacketId, hwell.packetId⟩, _, ⟨httl, hwell.ttl⟩, _, ⟨hcreatedAt, trivial⟩, _,
        ⟨hciphertext, hwell.ciphertext⟩, rfl⟩

/-- Posting the fields of a packet passes the checks exactly when it is well formed. -/
theorem MeshPacket.validate_record : validate packet.record = .ok packet ↔ packet.WellFormed := by
  rw [validate_eq_ok_iff]
  constructor
  · intro h
    exact h.1
  · intro h
    exact ⟨h, rfl, rfl, rfl, rfl, rfl⟩

end

end UpiOfflineMesh
