import UpiOfflineMesh.Recording

/-!
# Payable packets

A packet is payable at an instant when nothing in the packet, the accounts or the
ledger stands against the payment. Unless its hash is claimed, its delivery settles the
payment, whatever the arithmetic. The second half is about amounts in whole paise without
rounding, which is what batches, spellings and demo payments need.
-/

namespace UpiOfflineMesh

open Js InMemoryDb

/-- The packet opens to a fresh payment of a positive amount between two registered
accounts that the sender covers, with a valid date, as this arithmetic reads it. -/
structure PayableWith (arith : Arithmetic) (backend : Backend) (server : Server)
    (packet : MeshPacket) (now : ℤ) (instruction : PaymentInstruction) (sender receiver : Account)
    (amount : Number) (signedAt : ℤ) : Prop where
  accepts : backend.AcceptsWith arith now packet instruction
  sender_known : server.db.accountOf instruction.senderVpa = some sender
  receiver_known : server.db.accountOf instruction.receiverVpa = some receiver
  different : sender.vpa ≠ receiver.vpa
  amount_read : instruction.amount.parseFloatWith arith backend.platform = .ok amount
  amount_isNumber : amount.isNaN = false
  amount_positive : amount.le (.fin 0) = false
  covered : (sender.getBalanceAsNumberWith arith).lt amount = false
  signedAt_valid : newDate backend.platform instruction.signedAt = .ok (some signedAt)

/-- The answer to a delivery that settled its payment: settled, under the id of a new
settled row, with the hash claimed and indexed. -/
structure SettledDelivery (backend : Backend) (server : Server) (packet : MeshPacket)
    (clock : Clock) (result : IngestResult) (after : Server) : Prop where
  outcome : result.outcome = .settled
  row : ∃ row : Transaction, row.packetHash = backend.hashOf packet ∧ row.status = .settled ∧
    result.transactionId = some row.id ∧ after.db.rows = server.db.rows ++ [row]
  claimed : after.seen = server.seen.set (backend.hashOf packet, clock.claimed)
  indexed : after.db.txPacketHashes = server.db.txPacketHashes.set (backend.hashOf packet)

section

variable {arith : Arithmetic} {backend : Backend} {server : Server} {packet : MeshPacket}
  {bridgeNodeId : String} {hopCount : Number} {clock : Clock} {instruction : PaymentInstruction}
  {sender receiver : Account} {amount : Number} {signedAt : ℤ} {row : Transaction}

/-- What stands against a payable packet is its hash alone. -/
theorem PayableWith.admissible
    (h : PayableWith arith backend server packet clock.checked instruction sender receiver amount
      signedAt)
    (hunindexed : server.db.txPacketHashes.has (backend.hashOf packet) = false) :
    AdmissibleWith arith backend.platform server.db instruction (backend.hashOf packet) sender
      receiver amount signedAt :=
  ⟨h.sender_known, h.receiver_known, h.amount_read, h.amount_isNumber, h.amount_positive,
    h.signedAt_valid, hunindexed⟩

/-- A payable packet whose hash is neither recorded nor claimed moves its money. -/
theorem PayableWith.ingestWith_eq
    (h : PayableWith arith backend server packet clock.checked instruction sender receiver amount
      signedAt)
    (hunindexed : server.db.txPacketHashes.has (backend.hashOf packet) = false)
    (hnew : server.seen.has (backend.hashOf packet) = false)
    (hrow : row = nextRowWith arith server.db instruction (backend.hashOf packet) bridgeNodeId
      hopCount amount signedAt clock.stamped .settled) :
    backend.ingestWith arith server packet bridgeNodeId hopCount clock =
      (.settled (backend.hashOf packet) row,
        ⟨server.seen.set (backend.hashOf packet, clock.claimed),
          (server.db.transferWith arith sender receiver amount).insertRow row⟩) :=
  Backend.ingestWith_settled hnew h.accepts (h.admissible hunindexed) h.covered h.different hrow

/-- Its delivery is answered as settled, in every arithmetic. -/
theorem PayableWith.settledDelivery
    (h : PayableWith arith backend server packet clock.checked instruction sender receiver amount
      signedAt)
    (hunindexed : server.db.txPacketHashes.has (backend.hashOf packet) = false)
    (hnew : server.seen.has (backend.hashOf packet) = false) :
    SettledDelivery backend server packet clock
      (backend.ingestWith arith server packet bridgeNodeId hopCount clock).1
      (backend.ingestWith arith server packet bridgeNodeId hopCount clock).2 := by
  rw [h.ingestWith_eq hunindexed hnew rfl]
  exact ⟨rfl, ⟨_, rfl, rfl, rfl, rows_insertRow _ _⟩, rfl, rfl⟩

end

/-! ### Whole paise without rounding -/

/-- The packet opens to a fresh payment of `a` rupees, in whole paise, between two
registered accounts that the sender covers, with a valid date. -/
structure Payable (backend : Backend) (server : Server) (packet : MeshPacket) (now : ℤ)
    (instruction : PaymentInstruction) (sender receiver : String) (a : ℚ) : Prop where
  accepts : backend.Accepts now packet instruction
  senderVpa_eq : instruction.senderVpa = .str sender
  receiverVpa_eq : instruction.receiverVpa = .str receiver
  sender_known : server.db.accounts.has sender = true
  receiver_known : server.db.accounts.has receiver = true
  different : sender ≠ receiver
  amount_read : instruction.amount.parseFloat backend.platform = .ok (.fin a)
  amount_positive : 0 < a
  whole_paise : Number.IsHundredths a
  covered : a ≤ server.db.balance sender
  signedAt_valid : ∃ signedAt, newDate backend.platform instruction.signedAt = .ok (some signedAt)

/-- The answer to a delivery that paid `a` rupees: settled, with the amount taken from one
balance and given to the other. -/
structure Paid (backend : Backend) (server : Server) (packet : MeshPacket) (clock : Clock)
    (sender receiver : String) (a : ℚ) (result : IngestResult) (after : Server) : Prop
    extends SettledDelivery backend server packet clock result after where
  balances : after.db.balance = Transfers.Payment.apply ⟨sender, receiver, a⟩ server.db.balance

section

variable {backend : Backend} {server : Server} {packet : MeshPacket} {bridgeNodeId : String}
  {hopCount : Number} {clock : Clock} {instruction : PaymentInstruction}
  {sender receiver : String} {a : ℚ}

/-- A payable packet whose hash is neither recorded nor claimed is paid. -/
theorem Payable.paid (h : Payable backend server packet clock.checked instruction sender receiver a)
    (hsound : server.db.Sound)
    (hunindexed : server.db.txPacketHashes.has (backend.hashOf packet) = false)
    (hnew : server.seen.has (backend.hashOf packet) = false) :
    Paid backend server packet clock sender receiver a
      (backend.ingest server packet bridgeNodeId hopCount clock).1
      (backend.ingest server packet bridgeNodeId hopCount clock).2 := by
  obtain ⟨payer, hpayer⟩ := KeyedMap.has_iff_get _ |>.mp h.sender_known
  obtain ⟨payee, hpayee⟩ := KeyedMap.has_iff_get _ |>.mp h.receiver_known
  obtain rfl : payer.vpa = sender := KeyedMap.key_of_get hpayer
  obtain rfl : payee.vpa = receiver := KeyedMap.key_of_get hpayee
  have hpayment : CoveredPayment server.db payer payee a :=
    ⟨hpayer, hpayee, h.different, h.amount_positive, h.covered⟩
  obtain ⟨n, m, hn, hm, hcovered⟩ := hpayment.exists_holds hsound
  obtain ⟨signedAt, hdate⟩ := h.signedAt_valid
  have hfunds : payer.getBalanceAsNumber.lt (.fin a) = false := by
    rw [hn.getBalanceAsNumber, Number.lt_fin, decide_eq_false_iff_not, not_lt]
    exact hcovered
  have hpayable : PayableWith .exact backend server packet clock.checked instruction payer payee
      (.fin a) signedAt := by
    refine ⟨h.accepts, ?_, ?_, h.different, h.amount_read, rfl, ?_, hfunds, hdate⟩
    · rw [h.senderVpa_eq]
      exact hpayer
    · rw [h.receiverVpa_eq]
      exact hpayee
    · rw [Number.le_fin, decide_eq_false_iff_not, not_le]
      exact h.amount_positive
  refine ⟨hpayable.settledDelivery hunindexed hnew, ?_⟩
  rw [Backend.ingest, hpayable.ingestWith_eq hunindexed hnew rfl]
  exact (hpayment.roundedPayment hsound).eq_apply hsound h.different h.whole_paise
    h.amount_positive.le h.covered

end

end UpiOfflineMesh
