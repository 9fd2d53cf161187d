import UpiOfflineMesh.Accounting

/-!
# Deliveries that reach the ledger

A delivery appends a row exactly when its hash is unclaimed, the packet opens and
passes the freshness check, every check of `settle` passes, and the payment
either lacks funds or goes to another account. All other deliveries leave the
database as it was and are not answered as settled.
-/

namespace UpiOfflineMesh

open Js InMemoryDb

namespace Backend

/-- The delivery appends a row for this instruction, with this reading of its
accounts, amount and date. -/
structure RecordsWith (arith : Arithmetic) (backend : Backend) (server : Server)
    (packet : MeshPacket) (clock : Clock) (instruction : PaymentInstruction)
    (sender receiver : Account) (amount : Number) (signedAt : ℤ) : Prop where
  unclaimed : server.seen.has (backend.hashOf packet) = false
  accepts : AcceptsWith arith backend clock.checked packet instruction
  admissible : AdmissibleWith arith backend.platform server.db instruction (backend.hashOf packet)
    sender receiver amount signedAt
  appends : (sender.getBalanceAsNumberWith arith).lt amount = true ∨ sender.vpa ≠ receiver.vpa

/-- The delivery appends this row without rounding. -/
abbrev Records := RecordsWith .exact

/-- The status that the row of a recorded delivery gets. -/
def recordedStatusWith (arith : Arithmetic) (sender : Account) (amount : Number) :
    TransactionStatus :=
  if (sender.getBalanceAsNumberWith arith).lt amount then .rejected else .settled

section

variable {arith : Arithmetic} {backend : Backend} {server : Server} {packet : MeshPacket}
  {bridgeNodeId : String} {hopCount : Number} {clock : Clock} {instruction : PaymentInstruction}
  {sender receiver : Account} {amount : Number} {signedAt : ℤ}

/-- What a recorded delivery reads is determined by packet and server. -/
theorem RecordsWith.unique {instruction' : PaymentInstruction} {sender' receiver' : Account}
    {amount' : Number} {signedAt' : ℤ}
    (h : RecordsWith arith backend server packet clock instruction sender receiver amount signedAt)
    (h' : RecordsWith arith backend server packet clock instruction' sender' receiver' amount'
      signedAt') :
    instruction = instruction' ∧ sender = sender' ∧ receiver = receiver' ∧ amount = amount' ∧
      signedAt = signedAt' := by
  obtain rfl : instruction = instruction' :=
    Except.ok.inj (h.accepts.decrypted.symm.trans h'.accepts.decrypted)
  exact ⟨rfl, h.admissible.unique h'.admissible⟩

/-- A condition on the recorded payments of a delivery is one on its only reading. -/
theorem RecordsWith.exists_and_iff
    {P : PaymentInstruction → Account → Account → Number → ℤ → Prop}
    (h : RecordsWith arith backend server packet clock instruction sender receiver amount
      signedAt) :
    (∃ instruction sender receiver amount signedAt,
      RecordsWith arith backend server packet clock instruction sender receiver amount signedAt ∧
        P instruction sender receiver amount signedAt) ↔
      P instruction sender receiver amount signedAt := by
  constructor
  · rintro ⟨instruction', sender', receiver', amount', signedAt', h', hP⟩
    obtain ⟨rfl, rfl, rfl, rfl, rfl⟩ := h.unique h'
    exact hP
  · intro hP
    exact ⟨instruction, sender, receiver, amount, signedAt, h, hP⟩

/-- A recorded payment that the sender covers goes to another account. -/
theorem RecordsWith.ne_of_covered
    (h : RecordsWith arith backend server packet clock instruction sender receiver amount signedAt)
    (hfunds : (sender.getBalanceAsNumberWith arith).lt amount = false) :
    sender.vpa ≠ receiver.vpa :=
  h.appends.resolve_left (by simp [hfunds])

/-- A delivery that is not recorded keeps the database and is not answered as settled. -/
theorem ingestWith_of_not_records
    (h : ∀ instruction sender receiver amount signedAt,
      ¬RecordsWith arith backend server packet clock instruction sender receiver amount signedAt) :
    (ingestWith arith backend server packet bridgeNodeId hopCount clock).1.outcome ≠ .settled ∧
      (ingestWith arith backend server packet bridgeNodeId hopCount clock).2.db = server.db := by
  cases hseen : server.seen.has (backend.hashOf packet) with
  | true =>
    rw [ingestWith_of_seen hseen]
    exact ⟨by simp [IngestResult.duplicate], rfl⟩
  | false =>
  cases hdecrypt : backend.crypto.decrypt packet.ciphertext with
  | error err =>
    rw [ingestWith_of_not_decrypted hseen hdecrypt]
    exact ⟨by simp [IngestResult.invalid], rfl⟩
  | ok instruction =>
  cases hfresh : freshnessWith arith backend clock.checked instruction with
  | error err =>
    rw [ingestWith_of_freshness_throws hseen hdecrypt hfresh]
    exact ⟨by simp [IngestResult.invalid], rfl⟩
  | ok verdict =>
  cases verdict with
  | some reason =>
    rw [ingestWith_of_not_fresh hseen hdecrypt hfresh]
    exact ⟨by simp [IngestResult.invalid], rfl⟩
  | none =>
    have haccepts : AcceptsWith arith backend clock.checked packet instruction :=
      ⟨hdecrypt, hfresh⟩
    -- What `settle` lets through is recorded, so here it throws.
    obtain ⟨err, hrun⟩ := @settleWith_throws arith backend.platform server.db instruction
      (backend.hashOf packet) bridgeNodeId hopCount clock.stamped (by
        intro sender receiver amount signedAt hadmissible
        by_contra hpays
        refine h _ _ _ _ _ ⟨hseen, haccepts, hadmissible, ?_⟩
        cases hfunds : (sender.getBalanceAsNumberWith arith).lt amount with
        | true => exact Or.inl rfl
        | false => exact Or.inr fun hsame => hpays ⟨hfunds, hsame⟩)
    rw [ingestWith_of_accepts hseen haccepts, hrun]
    exact ⟨by simp [IngestResult.invalid], rfl⟩

/-- A recorded delivery is answered as settled, whatever the status of its row. -/
theorem ingestWith_of_records
    (h : RecordsWith arith backend server packet clock instruction sender receiver amount signedAt)
    {row : Transaction} (hrow : row = nextRowWith arith server.db instruction
      (backend.hashOf packet) bridgeNodeId hopCount amount signedAt clock.stamped
      (recordedStatusWith arith sender amount)) :
    ingestWith arith backend server packet bridgeNodeId hopCount clock =
      (.settled (backend.hashOf packet) row,
        ⟨server.seen.set (backend.hashOf packet, clock.claimed),
          (if (sender.getBalanceAsNumberWith arith).lt amount then server.db
            else server.db.transferWith arith sender receiver amount).insertRow row⟩) := by
  cases hfunds : (sender.getBalanceAsNumberWith arith).lt amount with
  | true =>
    rw [recordedStatusWith, if_pos hfunds] at hrow
    rw [if_pos rfl]
    exact ingestWith_rejected h.unclaimed h.accepts h.admissible hfunds hrow
  | false =>
    rw [recordedStatusWith, hfunds, if_neg Bool.false_ne_true] at hrow
    rw [if_neg Bool.false_ne_true]
    exact ingestWith_settled h.unclaimed h.accepts h.admissible hfunds (h.ne_of_covered hfunds)
      hrow

/-- A delivery without rounding that is not recorded keeps the database. -/
theorem ingest_of_not_records
    (h : ∀ instruction sender receiver amount signedAt,
      ¬backend.Records server packet clock instruction sender receiver amount signedAt) :
    (backend.ingest server packet bridgeNodeId hopCount clock).1.outcome ≠ .settled ∧
      (backend.ingest server packet bridgeNodeId hopCount clock).2.db = server.db :=
  ingestWith_of_not_records h

end

end Backend

end UpiOfflineMesh
