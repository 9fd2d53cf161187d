import UpiOfflineMesh.Recording

/-!
# What the answer "settled" promises

A bridge that is told `SETTLED` reads that funds were transferred. The answer is
given for every appended row, also for a rejection, and for transfers so small
that rounding swallows one of their sides.
-/

namespace UpiOfflineMesh

open Js InMemoryDb

/-- The number that the stored balance of an address spells, `NaN` without an account. -/
def InMemoryDb.storedBalance (db : InMemoryDb) (vpa : String) : Number :=
  (db.accounts.get vpa).elim .nan Account.getBalanceAsNumber

/-- The ledger got a settled row with this id, and the stored balance of its
sender went down and that of its receiver up. -/
def MovedMoney (before after : InMemoryDb) (id : ℕ) : Prop :=
  ∃ (row : Transaction) (sender receiver : String),
    after.rows = before.rows ++ [row] ∧ row.id = id ∧ row.status = .settled ∧
      row.senderVpa = .str sender ∧ row.receiverVpa = .str receiver ∧
        (after.storedBalance sender).lt (before.storedBalance sender) = true ∧
          (before.storedBalance receiver).lt (after.storedBalance receiver) = true

/-- The amount survives the rounding: the sender's balance minus the amount is written as a
smaller number than the balance, and the receiver's plus the amount as a larger one. -/
structure SurvivesRounding (arith : Arithmetic) (sender receiver : Account) (amount : Number) :
    Prop where
  lowers : (parseFloat (arith.toFixed2 (arith.sub (sender.getBalanceAsNumberWith arith) amount))).lt
    (parseFloat sender.balance) = true
  raises : (parseFloat receiver.balance).lt (parseFloat
    (arith.toFixed2 (arith.add (receiver.getBalanceAsNumberWith arith) amount))) = true

/-- An appended row that is a rejection moved no money. -/
theorem not_movedMoney_of_rejected {before after : InMemoryDb} {row : Transaction} {id : ℕ}
    (hrows : after.rows = before.rows ++ [row]) (hstatus : row.status = .rejected) :
    ¬MovedMoney before after id := by
  rintro ⟨row', sender, receiver, hrows', hid, hsettled, hrest⟩
  obtain rfl : row = row' := by
    have hsame := hrows.symm.trans hrows'
    simpa using hsame
  rw [hstatus] at hsettled
  cases hsettled

section

variable {arith : Arithmetic} {db : InMemoryDb} {sender receiver : Account} {amount : Number}
  {row : Transaction}

theorem storedBalance_of_get (h : db.accounts.get sender.vpa = some sender) :
    db.storedBalance sender.vpa = parseFloat sender.balance := by
  rw [InMemoryDb.storedBalance, h]
  rfl

/-- Writing both balances of a payment moves money exactly when the amount survives the
rounding. -/
theorem movedMoney_transferWith_iff (hsender : db.accounts.get sender.vpa = some sender)
    (hreceiver : db.accounts.get receiver.vpa = some receiver) (hne : sender.vpa ≠ receiver.vpa)
    (hstatus : row.status = .settled) (hsent : row.senderVpa = .str sender.vpa)
    (hreceived : row.receiverVpa = .str receiver.vpa) :
    MovedMoney db ((db.transferWith arith sender receiver amount).insertRow row) row.id ↔
      SurvivesRounding arith sender receiver amount := by
  have hdebited : ((db.transferWith arith sender receiver amount).insertRow row).storedBalance
      sender.vpa = parseFloat (arith.toFixed2
        (arith.sub (sender.getBalanceAsNumberWith arith) amount)) := by
    rw [InMemoryDb.storedBalance, accounts_insertRow, get_transferWith, if_neg hne.symm,
      if_pos rfl]
    rfl
  have hcredited : ((db.transferWith arith sender receiver amount).insertRow row).storedBalance
      receiver.vpa = parseFloat (arith.toFixed2
        (arith.add (receiver.getBalanceAsNumberWith arith) amount)) := by
    rw [InMemoryDb.storedBalance, accounts_insertRow, get_transferWith, if_pos rfl]
    rfl
  have hrows : ((db.transferWith arith sender receiver amount).insertRow row).rows =
      db.rows ++ [row] := rows_insertRow _ row
  constructor
  · rintro ⟨row', sender', receiver', hrows', _, _, hsent', hreceived', hlowered, hraised⟩
    obtain rfl : row = row' := by
      have hsame := hrows.symm.trans hrows'
      simpa using hsame
    obtain rfl : sender.vpa = sender' := Value.str.inj (hsent.symm.trans hsent')
    obtain rfl : receiver.vpa = receiver' := Value.str.inj (hreceived.symm.trans hreceived')
    rw [hdebited, storedBalance_of_get hsender] at hlowered
    rw [hcredited, storedBalance_of_get hreceiver] at hraised
    exact ⟨hlowered, hraised⟩
  · rintro ⟨hlowers, hraises⟩
    refine ⟨row, sender.vpa, receiver.vpa, hrows, rfl, hstatus, hsent, hreceived, ?_, ?_⟩
    · rw [hdebited, storedBalance_of_get hsender]
      exact hlowers
    · rw [hcredited, storedBalance_of_get hreceiver]
      exact hraises

end

/-- **The answer "settled" is true** of a delivery, in every arithmetic, if and only if the
delivery records no payment that exceeds the sender's balance and none that the rounding of
the two new balances swallows. -/
theorem settled_outcome_iff (arith : Arithmetic) (backend : Backend) (server : Server)
    (packet : MeshPacket) (bridgeNodeId : String) (hopCount : Number) (clock : Clock) :
    ((backend.ingestWith arith server packet bridgeNodeId hopCount clock).1.outcome = .settled →
      ∀ id, (backend.ingestWith arith server packet bridgeNodeId hopCount clock).1.transactionId =
          some id →
        MovedMoney server.db
          (backend.ingestWith arith server packet bridgeNodeId hopCount clock).2.db id) ↔
      ¬∃ instruction sender receiver amount signedAt,
        backend.RecordsWith arith server packet clock instruction sender receiver amount signedAt ∧
          ((sender.getBalanceAsNumberWith arith).lt amount = true ∨
            ¬SurvivesRounding arith sender receiver amount) := by
  by_cases hrecords : ∃ instruction sender receiver amount signedAt,
      backend.RecordsWith arith server packet clock instruction sender receiver amount signedAt
  case neg =>
    have hnone : ∀ instruction sender receiver amount signedAt,
        ¬backend.RecordsWith arith server packet clock instruction sender receiver amount
          signedAt :=
      fun instruction sender receiver amount signedAt h =>
        hrecords ⟨instruction, sender, receiver, amount, signedAt, h⟩
    have hrun := @Backend.ingestWith_of_not_records arith backend server packet bridgeNodeId
      hopCount clock hnone
    constructor
    · rintro _ ⟨instruction, sender, receiver, amount, signedAt, h, _⟩
      exact hnone _ _ _ _ _ h
    · intro _ houtcome
      exact absurd houtcome hrun.1
  obtain ⟨instruction, sender, receiver, amount, signedAt, h⟩ := hrecords
  rw [h.exists_and_iff, Backend.ingestWith_of_records h rfl]
  cases hfunds : (sender.getBalanceAsNumberWith arith).lt amount with
  | true =>
    simp only [true_or, not_true_eq_false, iff_false, if_true]
    intro hall
    exact not_movedMoney_of_rejected (rows_insertRow _ _)
      (by simp [nextRowWith, Transaction.newWith, ledgerData, Backend.recordedStatusWith, hfunds])
      (hall rfl _ rfl)
  | false =>
    have hmoved := @movedMoney_transferWith_iff arith server.db sender receiver amount
      (nextRowWith arith server.db instruction (backend.hashOf packet) bridgeNodeId hopCount amount
        signedAt clock.stamped .settled)
      (get_of_accountOf h.admissible.sender_known) (get_of_accountOf h.admissible.receiver_known)
      (h.ne_of_covered hfunds) rfl (eq_str_of_accountOf h.admissible.sender_known)
      (eq_str_of_accountOf h.admissible.receiver_known)
    simp only [Bool.false_eq_true, false_or, not_not, if_false, Backend.recordedStatusWith, hfunds]
    rw [← hmoved]
    constructor
    · intro hall
      exact hall rfl _ rfl
    · intro hmoves _ id hid
      cases hid
      exact hmoves

/-- An untrue answer: Alice, who has 5000, pays Bob 6000, and the bridge is told
that row 1 is settled. -/
theorem settled_outcome_overdrawn :
    ((backendPaying (.num (.fin 6000)) (.num (.fin 1000))).ingestWith utcPlatform.arithmetic seeded
        (packetOf "c1") "bridge-1" (.fin 2) ⟨1000, 1000, 1000⟩).1 = ⟨.settled, "c1", none, some 1⟩ ∧
      ¬MovedMoney seededDb ((backendPaying (.num (.fin 6000)) (.num (.fin 1000))).ingestWith
        utcPlatform.arithmetic seeded (packetOf "c1") "bridge-1" (.fin 2) ⟨1000, 1000, 1000⟩).2.db
          1 := by
  constructor
  · decide +kernel
  · rintro ⟨row, sender, receiver, hrows, hid, hsettled, hrest⟩
    have hstatus : ((backendPaying (.num (.fin 6000)) (.num (.fin 1000))).ingestWith
        utcPlatform.arithmetic seeded (packetOf "c1") "bridge-1" (.fin 2)
          ⟨1000, 1000, 1000⟩).2.db.rows.map (·.status) = [.rejected] := by decide +kernel
    rw [hrows, List.map_append, List.map_singleton, hsettled] at hstatus
    revert hstatus
    decide +kernel

end UpiOfflineMesh
