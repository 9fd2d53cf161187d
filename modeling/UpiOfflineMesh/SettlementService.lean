import UpiOfflineMesh.InMemoryDb

/-!
# Settlement

`settle` of `src/services/settlementService.js` moves money between two accounts
and appends the ledger row, inside one transaction. Its checks stand at different
depths: some before any write, the optimistic lock and the unique index only
after balances were written. The three theorems at the end say once, for every
database, what a call can do; all later results use them instead of the code.
-/

namespace UpiOfflineMesh

open Js InMemoryDb

/-- The fields of the ledger row that a call of `settle` writes. -/
def ledgerData (instruction : PaymentInstruction) (packetHash bridgeNodeId : String)
    (hopCount amount : Number) (signedAt settledAt : ℤ) (status : TransactionStatus) :
    TransactionData where
  packetHash := packetHash
  senderVpa := instruction.senderVpa
  receiverVpa := instruction.receiverVpa
  amount := .inl amount
  signedAt := signedAt
  settledAt := settledAt
  bridgeNodeId := bridgeNodeId
  hopCount := hopCount
  status := status

/-- The template string of the error needs the text of the address first. -/
def throwUnknown {α : Type} (platform : Platform) (role : String) (vpa : Value) : DbM α := do
  let text ← vpa.toText platform
  throw ⟨"Unknown " ++ role ++ " VPA: " ++ text⟩

/-- The argument of `transactions.save` is evaluated first, so an invalid
`signedAt` throws before the unique index is looked at. -/
def writeRowWith (arith : Arithmetic) (platform : Platform) (instruction : PaymentInstruction)
    (packetHash bridgeNodeId : String) (hopCount amount : Number) (now : ℤ)
    (status : TransactionStatus) : DbM Transaction := do
  let date ← newDate platform instruction.signedAt
  let signedAt ← toISOString date
  saveTransactionWith arith
    (ledgerData instruction packetHash bridgeNodeId hopCount amount signedAt now status)

/-- Records a failed payment in the ledger without moving any funds. -/
def recordRejectedWith (arith : Arithmetic) (platform : Platform)
    (instruction : PaymentInstruction) (packetHash bridgeNodeId : String) (hopCount : Number)
    (now : ℤ) : DbM Transaction := do
  let amount ← instruction.amount.parseFloatWith arith platform
  writeRowWith arith platform instruction packetHash bridgeNodeId hopCount amount now .rejected

/-- The callback that `settle` runs inside a transaction. -/
def settleCallbackWith (arith : Arithmetic) (platform : Platform)
    (instruction : PaymentInstruction) (packetHash bridgeNodeId : String) (hopCount : Number)
    (now : ℤ) : DbM Transaction := do
  let some sender ← findAccountByVpa instruction.senderVpa
    | throwUnknown platform "sender" instruction.senderVpa
  let some receiver ← findAccountByVpa instruction.receiverVpa
    | throwUnknown platform "receiver" instruction.receiverVpa
  let amount ← instruction.amount.parseFloatWith arith platform
  if amount.isNaN || amount.le (.fin 0) then
    throw ⟨"Payment amount must be a positive number"⟩
  else
    let senderBalance := sender.getBalanceAsNumberWith arith
    if senderBalance.lt amount then
      recordRejectedWith arith platform instruction packetHash bridgeNodeId hopCount now
    else
      let sender := sender.setBalanceFromNumberWith arith (arith.sub senderBalance amount)
      let receiver := receiver.setBalanceFromNumberWith arith
        (arith.add (receiver.getBalanceAsNumberWith arith) amount)
      let _ ← saveAccount sender
      let _ ← saveAccount receiver
      writeRowWith arith platform instruction packetHash bridgeNodeId hopCount amount now .settled

/-- Settles a decrypted payment instruction and returns its ledger row. -/
def settleWith (arith : Arithmetic) (platform : Platform) (instruction : PaymentInstruction)
    (packetHash bridgeNodeId : String) (hopCount : Number) (now : ℤ) : DbM Transaction :=
  runTransaction
    (settleCallbackWith arith platform instruction packetHash bridgeNodeId hopCount now)

/-- `settle` without rounding. -/
def settle (platform : Platform) (instruction : PaymentInstruction)
    (packetHash bridgeNodeId : String) (hopCount : Number) (now : ℤ) : DbM Transaction :=
  settleWith .exact platform instruction packetHash bridgeNodeId hopCount now

/-! ### What a call can do -/

/-- The account after it has paid the amount. -/
def Account.debitedWith (arith : Arithmetic) (account : Account) (amount : Number) : Account :=
  { account.setBalanceFromNumberWith arith
      (arith.sub (account.getBalanceAsNumberWith arith) amount) with
    version := account.version + 1 }

/-- The account after it has received the amount. -/
def Account.creditedWith (arith : Arithmetic) (account : Account) (amount : Number) : Account :=
  { account.setBalanceFromNumberWith arith
      (arith.add (account.getBalanceAsNumberWith arith) amount) with
    version := account.version + 1 }

/-- The account after it has paid exactly the amount. -/
def Account.debited (account : Account) (amount : Number) : Account :=
  account.debitedWith .exact amount

/-- The account after it has received exactly the amount. -/
def Account.credited (account : Account) (amount : Number) : Account :=
  account.creditedWith .exact amount

@[simp] theorem Account.debitedWith_version (arith : Arithmetic) (account : Account)
    (amount : Number) : (account.debitedWith arith amount).version = account.version + 1 := rfl

@[simp] theorem Account.debitedWith_vpa (arith : Arithmetic) (account : Account)
    (amount : Number) : (account.debitedWith arith amount).vpa = account.vpa := rfl

@[simp] theorem Account.creditedWith_vpa (arith : Arithmetic) (account : Account)
    (amount : Number) : (account.creditedWith arith amount).vpa = account.vpa := rfl

theorem Account.debited_balance (account : Account) (amount : Number) :
    (account.debited amount).balance = (account.getBalanceAsNumber.sub amount).toFixed2 := rfl

theorem Account.credited_balance (account : Account) (amount : Number) :
    (account.credited amount).balance = (account.getBalanceAsNumber.add amount).toFixed2 := rfl

@[simp] theorem Account.debited_vpa (account : Account) (amount : Number) :
    (account.debited amount).vpa = account.vpa := rfl

@[simp] theorem Account.credited_vpa (account : Account) (amount : Number) :
    (account.credited amount).vpa = account.vpa := rfl

@[simp] theorem Account.debited_version (account : Account) (amount : Number) :
    (account.debited amount).version = account.version + 1 := rfl

@[simp] theorem Account.credited_version (account : Account) (amount : Number) :
    (account.credited amount).version = account.version + 1 := rfl

/-- The database with both balances of a payment rewritten. -/
def InMemoryDb.transferWith (arith : Arithmetic) (db : InMemoryDb) (sender receiver : Account)
    (amount : Number) : InMemoryDb :=
  { db with
    accounts := (db.accounts.set (sender.debitedWith arith amount)).set
      (receiver.creditedWith arith amount) }

/-- The database with both balances rewritten without rounding before they are formatted. -/
def InMemoryDb.transfer (db : InMemoryDb) (sender receiver : Account) (amount : Number) :
    InMemoryDb :=
  db.transferWith .exact sender receiver amount

theorem InMemoryDb.accounts_transfer (db : InMemoryDb) (sender receiver : Account)
    (amount : Number) : (db.transfer sender receiver amount).accounts =
      (db.accounts.set (sender.debited amount)).set (receiver.credited amount) := rfl

/-- Looking up any address after both balances were written. -/
theorem InMemoryDb.get_transferWith (arith : Arithmetic) (db : InMemoryDb)
    (sender receiver : Account) (amount : Number) (vpa : String) :
    (db.transferWith arith sender receiver amount).accounts.get vpa =
      if receiver.vpa = vpa then some (receiver.creditedWith arith amount)
      else if sender.vpa = vpa then some (sender.debitedWith arith amount)
      else db.accounts.get vpa := by
  rw [InMemoryDb.transferWith, KeyedMap.get_set, KeyedMap.get_set, Account.creditedWith_vpa,
    Account.debitedWith_vpa]

/-- The row that a call of `settle` on this database would append. -/
def nextRowWith (arith : Arithmetic) (db : InMemoryDb) (instruction : PaymentInstruction)
    (packetHash bridgeNodeId : String) (hopCount amount : Number) (signedAt settledAt : ℤ)
    (status : TransactionStatus) : Transaction :=
  .newWith arith
    (ledgerData instruction packetHash bridgeNodeId hopCount amount signedAt settledAt status)
    db.nextTxId

/-- The row that a call without rounding would append. -/
def nextRow (db : InMemoryDb) (instruction : PaymentInstruction) (packetHash bridgeNodeId : String)
    (hopCount amount : Number) (signedAt settledAt : ℤ) (status : TransactionStatus) :
    Transaction :=
  nextRowWith .exact db instruction packetHash bridgeNodeId hopCount amount signedAt settledAt
    status

/-- Every check of `settle` except those on the two accounts' identity and funds:
what a call needs in order to reach the ledger at all. -/
structure AdmissibleWith (arith : Arithmetic) (platform : Platform) (db : InMemoryDb)
    (instruction : PaymentInstruction) (packetHash : String) (sender receiver : Account)
    (amount : Number) (signedAt : ℤ) : Prop where
  sender_known : db.accountOf instruction.senderVpa = some sender
  receiver_known : db.accountOf instruction.receiverVpa = some receiver
  amount_read : instruction.amount.parseFloatWith arith platform = .ok amount
  amount_isNumber : amount.isNaN = false
  amount_positive : amount.le (.fin 0) = false
  signedAt_valid : newDate platform instruction.signedAt = .ok (some signedAt)
  hash_fresh : db.txPacketHashes.has packetHash = false

/-- The checks of a call without rounding. -/
abbrev Admissible := AdmissibleWith .exact

section

variable {arith : Arithmetic} {platform : Platform} {db : InMemoryDb}
  {instruction : PaymentInstruction} {packetHash bridgeNodeId : String} {hopCount : Number}
  {now : ℤ} {sender receiver : Account} {amount : Number} {signedAt : ℤ}

/-- An account found under a value is stored under its own address. -/
theorem InMemoryDb.get_of_accountOf {vpa : Value} {account : Account}
    (h : db.accountOf vpa = some account) : db.accounts.get account.vpa = some account := by
  obtain ⟨text, _, hget⟩ := Option.bind_eq_some_iff.mp h
  exact db.accounts.get_key_of_mem (KeyedMap.mem_of_get hget)

/-- The value under which an account is found is its address. -/
theorem InMemoryDb.eq_str_of_accountOf {vpa : Value} {account : Account}
    (h : db.accountOf vpa = some account) : vpa = .str account.vpa := by
  obtain ⟨text, htext, hget⟩ := Option.bind_eq_some_iff.mp h
  rw [Value.asText_eq_some_iff.mp htext, KeyedMap.key_of_get hget]

/-- What an admissible call reads is determined by the instruction and the database. -/
theorem AdmissibleWith.unique {sender' receiver' : Account} {amount' : Number} {signedAt' : ℤ}
    (h : AdmissibleWith arith platform db instruction packetHash sender receiver amount signedAt)
    (h' : AdmissibleWith arith platform db instruction packetHash sender' receiver' amount'
      signedAt') :
    sender = sender' ∧ receiver = receiver' ∧ amount = amount' ∧ signedAt = signedAt' := by
  have hsender := h.sender_known.symm.trans h'.sender_known
  have hreceiver := h.receiver_known.symm.trans h'.receiver_known
  have hamount := h.amount_read.symm.trans h'.amount_read
  have hdate := h.signedAt_valid.symm.trans h'.signedAt_valid
  simp only [Option.some.injEq, Except.ok.injEq] at hsender hreceiver hamount hdate
  exact ⟨hsender, hreceiver, hamount, hdate⟩

/-- A valid date and a fresh hash let the row in. -/
theorem run_writeRowWith_of_valid {status : TransactionStatus}
    (hdate : newDate platform instruction.signedAt = .ok (some signedAt))
    (hfresh : db.txPacketHashes.has packetHash = false) :
    (writeRowWith arith platform instruction packetHash bridgeNodeId hopCount amount now status).run
        db =
      (.ok (nextRowWith arith db instruction packetHash bridgeNodeId hopCount amount signedAt now
          status),
        db.insertRow (nextRowWith arith db instruction packetHash bridgeNodeId hopCount amount
          signedAt now status)) := by
  simp only [writeRowWith, run_bind, run_ofExcept, hdate, toISOString]
  exact run_saveTransactionWith_of_fresh hfresh

/-- An invalid date or a recorded hash makes the write throw, and nothing is written. -/
theorem run_writeRowWith_of_invalid {status : TransactionStatus}
    (h : ∀ t, newDate platform instruction.signedAt = .ok (some t) →
      db.txPacketHashes.has packetHash = true) :
    ∃ err, (writeRowWith arith platform instruction packetHash bridgeNodeId hopCount amount now
      status).run db = (.error err, db) := by
  simp only [writeRowWith, run_bind, run_ofExcept]
  cases hdate : newDate platform instruction.signedAt with
  | error err => exact ⟨err, rfl⟩
  | ok date =>
    cases date with
    | none => exact ⟨_, rfl⟩
    | some t => exact ⟨_, run_saveTransactionWith_of_duplicate (h t hdate)⟩

/-- Whether or not the address has a text, naming it in the error throws. -/
theorem run_throwUnknown {α : Type} {role : String} {vpa : Value} :
    ∃ err, (throwUnknown platform role vpa : DbM α).run db = (.error err, db) := by
  simp only [throwUnknown, run_bind, run_ofExcept]
  cases vpa.toText platform with
  | error err => exact ⟨err, rfl⟩
  | ok text => exact ⟨_, rfl⟩

/-- The debit is written under the sender's own address and version. -/
theorem run_saveAccount_debited (hsender : db.accounts.get sender.vpa = some sender) :
    (saveAccount (sender.setBalanceFromNumberWith arith
        (arith.sub (sender.getBalanceAsNumberWith arith) amount))).run db =
      (.ok (sender.debitedWith arith amount),
        { db with accounts := db.accounts.set (sender.debitedWith arith amount) }) :=
  run_saveAccount_of_current hsender rfl

/-- The credit of another account goes through after the debit. -/
theorem run_saveAccount_credited (hreceiver : db.accounts.get receiver.vpa = some receiver)
    (hne : sender.vpa ≠ receiver.vpa) :
    (saveAccount (receiver.setBalanceFromNumberWith arith
        (arith.add (receiver.getBalanceAsNumberWith arith) amount))).run
      { db with accounts := db.accounts.set (sender.debitedWith arith amount) } =
        (.ok (receiver.creditedWith arith amount),
          db.transferWith arith sender receiver amount) := by
  have hget : (db.accounts.set (sender.debitedWith arith amount)).get receiver.vpa =
      some receiver := by
    rw [db.accounts.get_set_of_ne (v := sender.debitedWith arith amount) hne, hreceiver]
  exact run_saveAccount_of_current hget rfl

/-- The credit of the account that was just debited meets a raised version. -/
theorem run_saveAccount_credited_self (hsender : db.accounts.get sender.vpa = some sender)
    (hreceiver : db.accounts.get receiver.vpa = some receiver) (heq : sender.vpa = receiver.vpa) :
    (saveAccount (receiver.setBalanceFromNumberWith arith
        (arith.add (receiver.getBalanceAsNumberWith arith) amount))).run
      { db with accounts := db.accounts.set (sender.debitedWith arith amount) } =
        (.error (optimisticLockException receiver.vpa),
          { db with accounts := db.accounts.set (sender.debitedWith arith amount) }) := by
  have hsame : sender = receiver := by
    rw [heq, hreceiver] at hsender
    exact (Option.some.inj hsender).symm
  have hget : (db.accounts.set (sender.debitedWith arith amount)).get receiver.vpa =
      some (sender.debitedWith arith amount) := by
    rw [← heq]
    exact db.accounts.get_set_self (sender.debitedWith arith amount)
  refine run_saveAccount_of_stale hget ?_
  rw [Account.debitedWith_version, hsame]
  exact Nat.succ_ne_self _

/-- Insufficient funds: the call appends a rejected row and touches no account. -/
theorem settleWith_rejected
    (h : AdmissibleWith arith platform db instruction packetHash sender receiver amount signedAt)
    (hfunds : (sender.getBalanceAsNumberWith arith).lt amount = true) :
    (settleWith arith platform instruction packetHash bridgeNodeId hopCount now).run db =
      (.ok (nextRowWith arith db instruction packetHash bridgeNodeId hopCount amount signedAt now
          .rejected),
        db.insertRow (nextRowWith arith db instruction packetHash bridgeNodeId hopCount amount
          signedAt now .rejected)) := by
  apply run_runTransaction_of_ok
  simp only [settleCallbackWith, recordRejectedWith, run_bind, run_findAccountByVpa, run_ofExcept,
    h.sender_known, h.receiver_known, h.amount_read, h.amount_isNumber, h.amount_positive,
    hfunds, Bool.or_self, Bool.false_eq_true, if_false, if_true]
  exact run_writeRowWith_of_valid h.signedAt_valid h.hash_fresh

/-- Funds suffice and the accounts differ: both balances are rewritten and a
settled row is appended. -/
theorem settleWith_settled
    (h : AdmissibleWith arith platform db instruction packetHash sender receiver amount signedAt)
    (hfunds : (sender.getBalanceAsNumberWith arith).lt amount = false)
    (hne : sender.vpa ≠ receiver.vpa) :
    (settleWith arith platform instruction packetHash bridgeNodeId hopCount now).run db =
      (.ok (nextRowWith arith db instruction packetHash bridgeNodeId hopCount amount signedAt now
          .settled),
        (db.transferWith arith sender receiver amount).insertRow
          (nextRowWith arith db instruction packetHash bridgeNodeId hopCount amount signedAt now
            .settled)) := by
  have hdebit := @run_saveAccount_debited arith db sender amount (get_of_accountOf h.sender_known)
  have hcredit := @run_saveAccount_credited arith db sender receiver amount
    (get_of_accountOf h.receiver_known) hne
  apply run_runTransaction_of_ok
  simp only [settleCallbackWith, run_bind, run_findAccountByVpa, run_ofExcept, h.sender_known,
    h.receiver_known, h.amount_read, h.amount_isNumber, h.amount_positive, hfunds, Bool.or_self,
    Bool.false_eq_true, if_false, hdebit, hcredit]
  exact run_writeRowWith_of_valid h.signedAt_valid h.hash_fresh

/-- Past the checks of addresses and amount, a call that cannot write its row, or that
moves covered funds from an account to itself, throws before it writes the ledger. -/
theorem settleCallbackWith_throws (hsender : db.accountOf instruction.senderVpa = some sender)
    (hreceiver : db.accountOf instruction.receiverVpa = some receiver)
    (hamount : instruction.amount.parseFloatWith arith platform = .ok amount)
    (hnan : amount.isNaN = false) (hpos : amount.le (.fin 0) = false)
    (h : ∀ t, newDate platform instruction.signedAt = .ok (some t) →
      db.txPacketHashes.has packetHash = false →
        (sender.getBalanceAsNumberWith arith).lt amount = false ∧ sender.vpa = receiver.vpa) :
    ∃ err db', (settleCallbackWith arith platform instruction packetHash bridgeNodeId hopCount
        now).run db = (.error err, db') ∧ db'.transactions = db.transactions := by
  simp only [settleCallbackWith, run_bind, run_findAccountByVpa, run_ofExcept, hsender, hreceiver,
    hamount, hnan, hpos, Bool.or_self, Bool.false_eq_true, if_false]
  by_cases hfunds : (sender.getBalanceAsNumberWith arith).lt amount = true
  · simp only [if_pos hfunds, recordRejectedWith, run_bind, run_ofExcept, hamount]
    have hrecorded : ∀ t, newDate platform instruction.signedAt = .ok (some t) →
        db.txPacketHashes.has packetHash = true := by
      intro t hdate
      by_contra hfresh
      have hcovered := (h t hdate (Bool.eq_false_of_not_eq_true hfresh)).1
      simp [hcovered] at hfunds
    obtain ⟨err, hrun⟩ := run_writeRowWith_of_invalid hrecorded
    exact ⟨err, db, hrun, rfl⟩
  · simp only [if_neg hfunds, run_bind]
    rw [run_saveAccount_debited (get_of_accountOf hsender)]
    simp only []
    by_cases heq : sender.vpa = receiver.vpa
    · rw [run_saveAccount_credited_self (get_of_accountOf hsender) (get_of_accountOf hreceiver) heq]
      exact ⟨_, _, rfl, rfl⟩
    · rw [run_saveAccount_credited (get_of_accountOf hreceiver) heq]
      simp only []
      have hrecorded : ∀ t, newDate platform instruction.signedAt = .ok (some t) →
          (db.transferWith arith sender receiver amount).txPacketHashes.has packetHash = true := by
        intro t hdate
        by_contra hfresh
        exact heq (h t hdate (Bool.eq_false_of_not_eq_true hfresh)).2
      obtain ⟨err, hrun⟩ := run_writeRowWith_of_invalid hrecorded
      exact ⟨err, _, hrun, rfl⟩

/-- A call whose checks do not all pass, or that moves covered funds from an
account to itself, throws, and the transaction leaves the database as it was. -/
theorem settleWith_throws
    (h : ∀ sender receiver amount signedAt,
      AdmissibleWith arith platform db instruction packetHash sender receiver amount signedAt →
        (sender.getBalanceAsNumberWith arith).lt amount = false ∧ sender.vpa = receiver.vpa) :
    ∃ err, (settleWith arith platform instruction packetHash bridgeNodeId hopCount now).run db =
      (.error err, db) := by
  -- Every branch that throws does so before the ledger array is written.
  suffices hcallback : ∃ err db',
      (settleCallbackWith arith platform instruction packetHash bridgeNodeId hopCount now).run db =
        (.error err, db') ∧ db'.transactions = db.transactions by
    obtain ⟨err, db', hrun, hledger⟩ := hcallback
    exact ⟨err, run_runTransaction_of_error hrun hledger⟩
  cases hsender : db.accountOf instruction.senderVpa with
  | none =>
    obtain ⟨err, hrun⟩ : ∃ err, (throwUnknown platform "sender" instruction.senderVpa :
        DbM Transaction).run db = (.error err, db) := run_throwUnknown
    simp only [settleCallbackWith, run_bind, run_findAccountByVpa, hsender]
    exact ⟨err, db, hrun, rfl⟩
  | some sender =>
  cases hreceiver : db.accountOf instruction.receiverVpa with
  | none =>
    obtain ⟨err, hrun⟩ : ∃ err, (throwUnknown platform "receiver" instruction.receiverVpa :
        DbM Transaction).run db = (.error err, db) := run_throwUnknown
    simp only [settleCallbackWith, run_bind, run_findAccountByVpa, hsender, hreceiver]
    exact ⟨err, db, hrun, rfl⟩
  | some receiver =>
  cases hamount : instruction.amount.parseFloatWith arith platform with
  | error err =>
    simp only [settleCallbackWith, run_bind, run_findAccountByVpa, run_ofExcept, hsender, hreceiver,
      hamount]
    exact ⟨err, db, rfl, rfl⟩
  | ok amount =>
  by_cases hguard : (amount.isNaN || amount.le (.fin 0)) = true
  · refine ⟨⟨"Payment amount must be a positive number"⟩, db, ?_, rfl⟩
    simp only [settleCallbackWith, run_bind, run_findAccountByVpa, run_ofExcept, hsender, hreceiver,
      hamount, if_pos hguard, run_throw]
  · obtain ⟨hnan, hpos⟩ : amount.isNaN = false ∧ amount.le (.fin 0) = false := by
      simpa using hguard
    exact settleCallbackWith_throws hsender hreceiver hamount hnan hpos fun t hdate hfresh =>
      h sender receiver amount t ⟨hsender, hreceiver, hamount, hnan, hpos, hdate, hfresh⟩

/-- What a call of `settle` on `db` may leave behind: it throws and changes
nothing, it records a rejection, or it moves the money and records that. -/
inductive SettleEffect (platform : Platform) (db : InMemoryDb) (instruction : PaymentInstruction)
    (packetHash bridgeNodeId : String) (hopCount : Number) (now : ℤ) :
    Except Error Transaction → InMemoryDb → Prop
  | thrown (err : Error)
      (hwhy : ∀ sender receiver amount signedAt,
        Admissible platform db instruction packetHash sender receiver amount signedAt →
          sender.getBalanceAsNumber.lt amount = false ∧ sender.vpa = receiver.vpa) :
      SettleEffect platform db instruction packetHash bridgeNodeId hopCount now (.error err) db
  | rejected {sender receiver : Account} {amount : Number} {signedAt : ℤ}
      (hadmissible :
        Admissible platform db instruction packetHash sender receiver amount signedAt)
      (hfunds : sender.getBalanceAsNumber.lt amount = true) :
      SettleEffect platform db instruction packetHash bridgeNodeId hopCount now
        (.ok (nextRow db instruction packetHash bridgeNodeId hopCount amount signedAt now .rejected))
        (db.insertRow
          (nextRow db instruction packetHash bridgeNodeId hopCount amount signedAt now .rejected))
  | settled {sender receiver : Account} {amount : Number} {signedAt : ℤ}
      (hadmissible :
        Admissible platform db instruction packetHash sender receiver amount signedAt)
      (hfunds : sender.getBalanceAsNumber.lt amount = false) (hne : sender.vpa ≠ receiver.vpa) :
      SettleEffect platform db instruction packetHash bridgeNodeId hopCount now
        (.ok (nextRow db instruction packetHash bridgeNodeId hopCount amount signedAt now .settled))
        ((db.transfer sender receiver amount).insertRow
          (nextRow db instruction packetHash bridgeNodeId hopCount amount signedAt now .settled))

/-- **Effect of `settle`**, for every database and every instruction. -/
theorem settle_effect :
    SettleEffect platform db instruction packetHash bridgeNodeId hopCount now
      ((settle platform instruction packetHash bridgeNodeId hopCount now).run db).1
      ((settle platform instruction packetHash bridgeNodeId hopCount now).run db).2 := by
  by_cases hthrows : ∀ sender receiver amount signedAt,
      Admissible platform db instruction packetHash sender receiver amount signedAt →
        sender.getBalanceAsNumber.lt amount = false ∧ sender.vpa = receiver.vpa
  · obtain ⟨err, hrun⟩ : ∃ err,
        (settle platform instruction packetHash bridgeNodeId hopCount now).run db =
          (.error err, db) := settleWith_throws hthrows
    rw [hrun]
    exact .thrown err hthrows
  · push Not at hthrows
    obtain ⟨sender, receiver, amount, signedAt, hadmissible, hpays⟩ := hthrows
    cases hfunds : sender.getBalanceAsNumber.lt amount with
    | true =>
      have hrun := @settleWith_rejected .exact platform db instruction packetHash bridgeNodeId
        hopCount now sender receiver amount signedAt hadmissible hfunds
      rw [settle, hrun]
      exact .rejected hadmissible hfunds
    | false =>
      have hrun := @settleWith_settled .exact platform db instruction packetHash bridgeNodeId
        hopCount now sender receiver amount signedAt hadmissible hfunds (hpays hfunds)
      rw [settle, hrun]
      exact .settled hadmissible hfunds (hpays hfunds)

end

end UpiOfflineMesh
