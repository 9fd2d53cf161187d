import UpiOfflineMesh.Accounting

/-!
# The rules of settlement

When exactly `settle` throws, and everything it changes when it does not. Some of
its conditions are tested only inside the save calls, after balances were
written: the payment to oneself meets the raised version of its own debit, and
the invalid date and the recorded hash come last. All of them leave the database
as it was, so a delivery that is not answered as settled leaves the bank
untouched.
-/

namespace UpiOfflineMesh

open Js InMemoryDb

/-- The reasons for which `settle` throws. -/
inductive Refusal (arith : Arithmetic) (platform : Platform) (db : InMemoryDb)
    (instruction : PaymentInstruction) (packetHash : String) : Prop
  | unknownSender (h : db.accountOf instruction.senderVpa = none)
  | unknownReceiver (h : db.accountOf instruction.receiverVpa = none)
  /-- The amount is not read as a positive number: it is `NaN`, not positive, or
  a value without a text. -/
  | amount (h : ∀ amount, instruction.amount.parseFloatWith arith platform = .ok amount →
      amount.isNaN = true ∨ amount.le (.fin 0) = true)
  | invalidDate (h : ∀ t, newDate platform instruction.signedAt ≠ .ok (some t))
  | recorded (h : db.txPacketHashes.has packetHash = true)
  /-- One account pays itself an amount that it covers. -/
  | toOneself (account : Account) (amount : Number)
      (hsender : db.accountOf instruction.senderVpa = some account)
      (hreceiver : db.accountOf instruction.receiverVpa = some account)
      (hamount : instruction.amount.parseFloatWith arith platform = .ok amount)
      (hcovered : amount.le (account.getBalanceAsNumberWith arith) = true)

/-- Every balance is a finite number, as those with two decimals are. -/
def InMemoryDb.FiniteBalances (arith : Arithmetic) (db : InMemoryDb) : Prop :=
  ∀ account ∈ db.accounts.values, ∃ q : ℚ, account.getBalanceAsNumberWith arith = .fin q

/-- Both accounts of a payment are rewritten, each with its rounded new balance and
a version raised by one, and no other account is. -/
structure Transferred (arith : Arithmetic) (before after : InMemoryDb) (sender receiver : Account)
    (amount : Number) : Prop where
  sender_eq : after.accounts.get sender.vpa = some
    { sender with
      balance := arith.toFixed2 (arith.sub (sender.getBalanceAsNumberWith arith) amount)
      version := sender.version + 1 }
  receiver_eq : after.accounts.get receiver.vpa = some
    { receiver with
      balance := arith.toFixed2 (arith.add (receiver.getBalanceAsNumberWith arith) amount)
      version := receiver.version + 1 }
  other_eq : ∀ vpa, vpa ≠ sender.vpa → vpa ≠ receiver.vpa →
    after.accounts.get vpa = before.accounts.get vpa

/-- What a call of `settle` that does not throw has done: one row with the next id
is appended, rejected with all accounts unchanged when the balance is below the
amount, and settled with the money moved otherwise. -/
structure ExecutedWith (arith : Arithmetic) (platform : Platform) (before after : InMemoryDb)
    (instruction : PaymentInstruction) (packetHash : String) (sender receiver : Account)
    (amount : Number) (row : Transaction) : Prop where
  sender_known : before.accountOf instruction.senderVpa = some sender
  receiver_known : before.accountOf instruction.receiverVpa = some receiver
  amount_read : instruction.amount.parseFloatWith arith platform = .ok amount
  appended : after.transactions = before.transactions ++ [some row]
  id_eq : row.id = before.nextTxId
  hash_eq : row.packetHash = packetHash
  nextTxId_eq : after.nextTxId = before.nextTxId + 1
  indexed : after.txPacketHashes = before.txPacketHashes.set packetHash
  rejected : (sender.getBalanceAsNumberWith arith).lt amount = true →
    row.status = .rejected ∧ after.accounts = before.accounts
  settled : (sender.getBalanceAsNumberWith arith).lt amount = false →
    row.status = .settled ∧ Transferred arith before after sender receiver amount

/-- What a call without rounding has done. -/
abbrev Executed := ExecutedWith .exact

section

variable {arith : Arithmetic} {platform : Platform} {db : InMemoryDb}
  {instruction : PaymentInstruction} {packetHash bridgeNodeId : String} {hopCount : Number}
  {now : ℤ} {sender receiver : Account} {amount : Number} {signedAt : ℤ}

/-- Without a reason to refuse, everything that a call reads is there. -/
theorem exists_admissible (h : ¬Refusal arith platform db instruction packetHash) :
    ∃ sender receiver amount signedAt,
      AdmissibleWith arith platform db instruction packetHash sender receiver amount signedAt := by
  obtain ⟨sender, hsender⟩ : ∃ sender, db.accountOf instruction.senderVpa = some sender :=
    Option.ne_none_iff_exists'.mp fun hnone => h (.unknownSender hnone)
  obtain ⟨receiver, hreceiver⟩ : ∃ receiver, db.accountOf instruction.receiverVpa = some receiver :=
    Option.ne_none_iff_exists'.mp fun hnone => h (.unknownReceiver hnone)
  obtain ⟨amount, hamount, hnan, hpos⟩ : ∃ amount,
      instruction.amount.parseFloatWith arith platform = .ok amount ∧ amount.isNaN = false ∧
        amount.le (.fin 0) = false := by
    by_contra hnone
    push Not at hnone
    refine h (.amount fun amount hamount => ?_)
    cases hnan : amount.isNaN with
    | true => exact Or.inl rfl
    | false => exact Or.inr (Bool.eq_true_of_not_eq_false (hnone amount hamount hnan))
  obtain ⟨signedAt, hdate⟩ : ∃ t, newDate platform instruction.signedAt = .ok (some t) := by
    by_contra hnone
    push Not at hnone
    exact h (.invalidDate hnone)
  have hfresh : db.txPacketHashes.has packetHash = false :=
    Bool.eq_false_of_not_eq_true fun hhas => h (.recorded hhas)
  exact ⟨sender, receiver, amount, signedAt, hsender, hreceiver, hamount, hnan, hpos, hdate, hfresh⟩

/-- On finite balances a positive amount that is not above the balance is covered. -/
theorem covered_of_not_lt {balance : ℚ} (hnan : amount.isNaN = false)
    (hfunds : (Number.fin balance).lt amount = false) : amount.le (.fin balance) = true := by
  rw [Number.le, hfunds]
  simpa [Number.isNaN] using hnan

/-- An admissible call is refused exactly when one account pays itself what it covers. -/
theorem refusal_iff_of_admissible (hfinite : db.FiniteBalances arith)
    (h : AdmissibleWith arith platform db instruction packetHash sender receiver amount signedAt) :
    Refusal arith platform db instruction packetHash ↔
      (sender.getBalanceAsNumberWith arith).lt amount = false ∧ sender.vpa = receiver.vpa := by
  constructor
  · intro hrefusal
    cases hrefusal with
    | unknownSender hnone => simp [h.sender_known] at hnone
    | unknownReceiver hnone => simp [h.receiver_known] at hnone
    | amount hbad =>
      rcases hbad amount h.amount_read with hnan | hpos
      · simp [h.amount_isNumber] at hnan
      · simp [h.amount_positive] at hpos
    | invalidDate hbad => exact absurd h.signedAt_valid (hbad signedAt)
    | recorded hhas => simp [h.hash_fresh] at hhas
    | toOneself account amount' hsender hreceiver hamount hcovered =>
      obtain rfl : sender = account := Option.some.inj (h.sender_known.symm.trans hsender)
      obtain rfl : receiver = sender := Option.some.inj (h.receiver_known.symm.trans hreceiver)
      obtain rfl : amount = amount' := Except.ok.inj (h.amount_read.symm.trans hamount)
      rw [Number.le] at hcovered
      refine ⟨?_, rfl⟩
      simpa using (Bool.and_eq_true_iff.mp hcovered).2
  · rintro ⟨hfunds, hsame⟩
    have hsender := get_of_accountOf h.sender_known
    have hreceiver := get_of_accountOf h.receiver_known
    obtain rfl : sender = receiver := by
      rw [hsame, hreceiver] at hsender
      exact (Option.some.inj hsender).symm
    obtain ⟨balance, hbalance⟩ := hfinite sender (KeyedMap.mem_of_get hsender)
    rw [hbalance] at hfunds
    refine .toOneself sender amount h.sender_known h.receiver_known h.amount_read ?_
    rw [hbalance]
    exact covered_of_not_lt h.amount_isNumber hfunds

/-- Writing both balances of a payment between two accounts transfers the amount. -/
theorem transferred_transferWith (hne : sender.vpa ≠ receiver.vpa) (row : Transaction) :
    Transferred arith db ((db.transferWith arith sender receiver amount).insertRow row) sender
      receiver amount := by
  constructor
  · rw [accounts_insertRow, get_transferWith, if_neg hne.symm, if_pos rfl]
    rfl
  · rw [accounts_insertRow, get_transferWith, if_pos rfl]
    rfl
  · intro vpa hsender hreceiver
    rw [accounts_insertRow, get_transferWith, if_neg hreceiver.symm, if_neg hsender.symm]

/-- An admissible call without the funds is executed as a rejection. -/
theorem AdmissibleWith.executed_rejected
    (h : AdmissibleWith arith platform db instruction packetHash sender receiver amount signedAt)
    (hfunds : (sender.getBalanceAsNumberWith arith).lt amount = true) :
    ExecutedWith arith platform db
      (db.insertRow (nextRowWith arith db instruction packetHash bridgeNodeId hopCount amount
        signedAt now .rejected))
      instruction packetHash sender receiver amount
      (nextRowWith arith db instruction packetHash bridgeNodeId hopCount amount signedAt now
        .rejected) :=
  ⟨h.sender_known, h.receiver_known, h.amount_read, rfl, rfl, rfl, rfl, rfl, fun _ => ⟨rfl, rfl⟩,
    fun hcovered => by simp [hfunds] at hcovered⟩

/-- An admissible call with funds and two accounts is executed as a settlement. -/
theorem AdmissibleWith.executed_settled
    (h : AdmissibleWith arith platform db instruction packetHash sender receiver amount signedAt)
    (hfunds : (sender.getBalanceAsNumberWith arith).lt amount = false)
    (hne : sender.vpa ≠ receiver.vpa) :
    ExecutedWith arith platform db
      ((db.transferWith arith sender receiver amount).insertRow (nextRowWith arith db instruction
        packetHash bridgeNodeId hopCount amount signedAt now .settled))
      instruction packetHash sender receiver amount
      (nextRowWith arith db instruction packetHash bridgeNodeId hopCount amount signedAt now
        .settled) :=
  ⟨h.sender_known, h.receiver_known, h.amount_read, rfl, rfl, rfl, rfl, rfl,
    fun hshort => by simp [hfunds] at hshort, fun _ => ⟨rfl, transferred_transferWith hne _⟩⟩

end

/-- **The rules of `settle`**, for every arithmetic, every database whose balances it reads
as finite, every instruction and every packet hash: the call throws exactly for the listed
reasons, a call that throws leaves the database as it was, and a call that does not throw
is executed by the book. -/
theorem settle_rules (arith : Arithmetic) (platform : Platform) (db : InMemoryDb)
    (instruction : PaymentInstruction) (packetHash bridgeNodeId : String) (hopCount : Number)
    (now : ℤ) (hfinite : db.FiniteBalances arith) :
    ((∃ err, ((settleWith arith platform instruction packetHash bridgeNodeId hopCount now).run
        db).1 = .error err) ↔ Refusal arith platform db instruction packetHash) ∧
    (∀ err, ((settleWith arith platform instruction packetHash bridgeNodeId hopCount now).run
        db).1 = .error err →
      ((settleWith arith platform instruction packetHash bridgeNodeId hopCount now).run db).2 =
        db) ∧
    (∀ row, ((settleWith arith platform instruction packetHash bridgeNodeId hopCount now).run
        db).1 = .ok row →
      ∃ sender receiver amount, ExecutedWith arith platform db
        ((settleWith arith platform instruction packetHash bridgeNodeId hopCount now).run db).2
        instruction packetHash sender receiver amount row) := by
  by_cases hrefusal : Refusal arith platform db instruction packetHash
  · obtain ⟨err, hrun⟩ := @settleWith_throws arith platform db instruction packetHash bridgeNodeId
      hopCount now fun _ _ _ _ h => (refusal_iff_of_admissible hfinite h).mp hrefusal
    rw [hrun]
    exact ⟨iff_of_true ⟨err, rfl⟩ hrefusal, fun _ _ => rfl, by simp⟩
  obtain ⟨sender, receiver, amount, signedAt, h⟩ := exists_admissible hrefusal
  have hpays : ¬((sender.getBalanceAsNumberWith arith).lt amount = false ∧
      sender.vpa = receiver.vpa) :=
    fun hself => hrefusal ((refusal_iff_of_admissible hfinite h).mpr hself)
  cases hfunds : (sender.getBalanceAsNumberWith arith).lt amount with
  | true =>
    rw [settleWith_rejected h hfunds]
    refine ⟨iff_of_false (by simp) hrefusal, by simp, fun row hrow => ?_⟩
    obtain rfl := Except.ok.inj hrow
    exact ⟨sender, receiver, amount, h.executed_rejected hfunds⟩
  | false =>
    have hne : sender.vpa ≠ receiver.vpa := fun hsame => hpays ⟨hfunds, hsame⟩
    rw [settleWith_settled h hfunds hne]
    refine ⟨iff_of_false (by simp) hrefusal, by simp, fun row hrow => ?_⟩
    obtain rfl := Except.ok.inj hrow
    exact ⟨sender, receiver, amount, h.executed_settled hfunds hne⟩

/-- Alice pays herself 500 of her 5000 in binary64: the seeded database refuses. -/
theorem settle_rules_toOneself :
    (∃ err, ((settleWith utcPlatform.arithmetic utcPlatform
      (paymentOf "alice@demo" "alice@demo" (.num (.fin 500)) (.num (.fin 1000))) "c1" "bridge-1"
        (.fin 2) 2000).run seededDb).1 = .error err) ∧
    ((settleWith utcPlatform.arithmetic utcPlatform
      (paymentOf "alice@demo" "alice@demo" (.num (.fin 500)) (.num (.fin 1000))) "c1" "bridge-1"
        (.fin 2) 2000).run seededDb).2 = seededDb := by
  have hfinite : seededDb.FiniteBalances utcPlatform.arithmetic := by
    intro account haccount
    rw [seededDb_eq.2] at haccount
    simp only [List.mem_cons, List.not_mem_nil, or_false] at haccount
    rcases haccount with rfl | rfl | rfl | rfl
    · exact ⟨5000, by decide +kernel⟩
    · exact ⟨1000, by decide +kernel⟩
    · exact ⟨2500, by decide +kernel⟩
    · exact ⟨500, by decide +kernel⟩
  obtain ⟨hthrows, hkept, _⟩ := settle_rules utcPlatform.arithmetic utcPlatform seededDb
    (paymentOf "alice@demo" "alice@demo" (.num (.fin 500)) (.num (.fin 1000))) "c1" "bridge-1"
    (.fin 2) 2000 hfinite
  have hrefusal : Refusal utcPlatform.arithmetic utcPlatform seededDb
      (paymentOf "alice@demo" "alice@demo" (.num (.fin 500)) (.num (.fin 1000))) "c1" :=
    .toOneself ⟨"alice@demo", "Alice", "5000.00", 0⟩ (.fin 500) (by decide +kernel)
      (by decide +kernel) (by decide +kernel) (by decide +kernel)
  obtain ⟨err, herr⟩ := hthrows.mpr hrefusal
  exact ⟨⟨err, herr⟩, hkept err herr⟩

/-! ### Deliveries that are not settled -/

/-- **The bank is untouched** by every delivery that is not answered as settled,
whatever was already written when it failed: accounts, ledger, index and counter
are those of before, and a dropped duplicate leaves the cache as well. -/
theorem unsettled_delivery (backend : Backend) (server : Server) (packet : MeshPacket)
    (bridgeNodeId : String) (hopCount : Number) (clock : Clock)
    (h : (backend.ingest server packet bridgeNodeId hopCount clock).1.outcome = .invalid ∨
      (backend.ingest server packet bridgeNodeId hopCount clock).1.outcome = .duplicateDropped) :
    (backend.ingest server packet bridgeNodeId hopCount clock).2.db = server.db ∧
      ((backend.ingest server packet bridgeNodeId hopCount clock).1.outcome = .duplicateDropped →
        (backend.ingest server packet bridgeNodeId hopCount clock).2.seen = server.seen) := by
  have heffect := @Backend.ingest_effect backend server packet bridgeNodeId hopCount clock
  generalize backend.ingest server packet bridgeNodeId hopCount clock = answer at heffect h ⊢
  obtain ⟨result, after⟩ := answer
  cases heffect with
  | duplicate => exact ⟨rfl, fun _ => rfl⟩
  | refused => exact ⟨rfl, fun houtcome => by cases houtcome⟩
  | rejected => rcases h with houtcome | houtcome <;> cases houtcome
  | settled => rcases h with houtcome | houtcome <;> cases houtcome

/-- Alice's payment to herself fails when her own credit meets the debit. -/
theorem unsettled_delivery_toOneself :
    ((shippedBackend [("c1", paymentOf "alice@demo" "alice@demo" (.num (.fin 500))
        (.num (.fin 1000)))]).ingest seeded (packetOf "c1") "bridge-1" (.fin 2)
          ⟨2000, 2000, 2000⟩).2.db = seededDb :=
  (unsettled_delivery (shippedBackend [("c1", paymentOf "alice@demo" "alice@demo"
    (.num (.fin 500)) (.num (.fin 1000)))]) seeded (packetOf "c1") "bridge-1" (.fin 2)
      ⟨2000, 2000, 2000⟩ (Or.inl (by decide +kernel))).1

end UpiOfflineMesh
