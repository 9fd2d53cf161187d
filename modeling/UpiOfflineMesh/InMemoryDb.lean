import Mathlib.Data.List.ReduceOption
import UpiOfflineMesh.Js.KeyedMap
import UpiOfflineMesh.Models

/-!
# The in-memory database

Accounts, ledger, unique index and id counter of `src/db/inMemoryDb.js`, with
transactions that roll back from a snapshot. An operation may throw after it has
already written, so a computation returns its result or error *together with*
the database it leaves behind; only `runTransaction` undoes writes.
-/

namespace UpiOfflineMesh

open Js

/-- The database. The ledger is a JavaScript array, whose slots may be empty
once its length has been set beyond its contents. -/
structure InMemoryDb where
  accounts : KeyedMap Account.vpa
  transactions : List (Option Transaction)
  /-- Unique index on `packetHash`. -/
  txPacketHashes : KeyedMap (id : String → String)
  nextTxId : ℕ

/-- A computation on the database that may throw and keeps its writes if it does. -/
abbrev DbM := ExceptT Error (StateM InMemoryDb)

namespace InMemoryDb

/-- A new database. -/
def empty : InMemoryDb := ⟨.empty, [], .empty, 1⟩

/-- The ledger rows, empty slots left out. -/
def rows (db : InMemoryDb) : List Transaction := db.transactions.reduceOption

/-- `array.length = n`: cut off, or extended by empty slots. -/
def setLength (slots : List (Option Transaction)) (n : ℕ) : List (Option Transaction) :=
  slots.take n ++ List.replicate (n - slots.length) none

/-- The account registered under a value, which must be a string to be a key. -/
def accountOf (db : InMemoryDb) (vpa : Value) : Option Account := vpa.asText.bind db.accounts.get

/-- A copy of the account with that address, if there is one. -/
def findAccountByVpa (vpa : Value) : DbM (Option Account) := do
  let db ← get
  return db.accountOf vpa

/-- Copies of all registered accounts. -/
def findAllAccounts : DbM (List Account) := do
  let db ← get
  return db.accounts.values

/-- The error of a save whose copy is out of date. -/
def optimisticLockException (vpa : String) : Error :=
  ⟨"OptimisticLockException: Account " ++ vpa ++ " was modified concurrently by another thread"⟩

/-- The error of a second row for one packet hash. -/
def dataIntegrityViolation (packetHash : String) : Error :=
  ⟨"DataIntegrityViolation: Duplicate entry for packetHash '" ++ packetHash ++ "'"⟩

/-- Saves or updates an account under the optimistic locking check; returns the
account with the version it is stored with. -/
def saveAccount (account : Account) : DbM Account := do
  let db ← get
  match db.accounts.get account.vpa with
  | some existing =>
    if existing.version ≠ account.version then
      throw (optimisticLockException account.vpa)
    else
      let saved := { account with version := account.version + 1 }
      set { db with accounts := db.accounts.set saved }
      return saved
  | none =>
    let saved := { account with version := 0 }
    set { db with accounts := db.accounts.set saved }
    return saved

/-- The database with one more ledger row: array, index and counter move together. -/
def insertRow (db : InMemoryDb) (tx : Transaction) : InMemoryDb :=
  { db with
    transactions := db.transactions ++ [some tx]
    txPacketHashes := db.txPacketHashes.set tx.packetHash
    nextTxId := db.nextTxId + 1 }

/-- Inserts a row into the ledger unless its packet hash is already in the index. -/
def saveTransactionWith (arith : Arithmetic) (txData : TransactionData) : DbM Transaction := do
  let db ← get
  if db.txPacketHashes.has txData.packetHash then
    throw (dataIntegrityViolation txData.packetHash)
  else
    let transaction := Transaction.newWith arith txData db.nextTxId
    set (db.insertRow transaction)
    return transaction

/-- Inserts a row whose amount is written without rounding. -/
def saveTransaction (txData : TransactionData) : DbM Transaction :=
  saveTransactionWith .exact txData

/-- Runs the callback; an error restores accounts, index and counter from the
snapshot and the ledger by its length, and is thrown again. -/
def runTransaction {α : Type} (callback : DbM α) : DbM α := fun snapshot =>
  match callback.run snapshot with
  | (.ok result, db) => (.ok result, db)
  | (.error err, db) =>
    (.error err, { snapshot with transactions := setLength db.transactions snapshot.transactions.length })

/-- The most recent 20 rows in descending order of their ids. The stable sort is
by id alone and moves empty slots to the end. -/
def findTop20Transactions (db : InMemoryDb) : List (Option Transaction) :=
  ((db.rows.mergeSort fun a b => b.id ≤ a.id).map some ++
    List.replicate (db.transactions.length - db.rows.length) none).take 20

/-- Clears all tables: the ledger becomes a new array, the counter starts again. -/
def clear : DbM Unit := set empty

/-- The number of accounts. -/
def countAccounts (db : InMemoryDb) : ℕ := db.accounts.size

/-! ### Running computations

`run_bind` and the four lemmas after it execute a computation step by step, so
that no later proof looks inside the monad. -/

/-- Two computations in a row: the second runs where the first ended, unless it threw. -/
theorem run_bind {α β : Type} (x : DbM α) (f : α → DbM β) (db : InMemoryDb) :
    (x >>= f).run db =
      match x.run db with
      | (.ok a, db') => (f a).run db'
      | (.error err, db') => (.error err, db') := by
  rw [ExceptT.run_bind]
  change StateT.bind x.run _ db = _
  simp only [StateT.bind]
  cases x.run db with
  | mk result db' =>
    cases result with
    | ok a => rfl
    | error err => rfl

@[simp] theorem run_pure {α : Type} (a : α) (db : InMemoryDb) :
    (pure a : DbM α).run db = (.ok a, db) := rfl

@[simp] theorem run_throw {α : Type} (err : Error) (db : InMemoryDb) :
    (throw err : DbM α).run db = (.error err, db) := rfl

@[simp] theorem run_get (db : InMemoryDb) : (get : DbM InMemoryDb).run db = (.ok db, db) := rfl

@[simp] theorem run_set (new db : InMemoryDb) :
    (set new : DbM PUnit).run db = (.ok ⟨⟩, new) := rfl

/-- A value computed outside the database: it may throw, and it writes nothing. -/
@[simp] theorem run_ofExcept {α : Type} (x : Except Error α) (db : InMemoryDb) :
    (liftM x : DbM α).run db = (x, db) := by
  cases x <;> rfl

@[simp] theorem run_clear (db : InMemoryDb) : clear.run db = (.ok ⟨⟩, empty) := rfl

/-! ### What each operation does -/

@[simp] theorem run_findAllAccounts (db : InMemoryDb) :
    findAllAccounts.run db = (.ok db.accounts.values, db) := rfl

@[simp] theorem run_findAccountByVpa (vpa : Value) (db : InMemoryDb) :
    (findAccountByVpa vpa).run db = (.ok (db.accountOf vpa), db) := rfl

/-- Saving a copy whose version is still current overwrites the account and
raises its version by one. -/
theorem run_saveAccount_of_current {db : InMemoryDb} {account existing : Account}
    (hget : db.accounts.get account.vpa = some existing)
    (hversion : existing.version = account.version) :
    (saveAccount account).run db =
      (.ok { account with version := account.version + 1 },
        { db with accounts := db.accounts.set { account with version := account.version + 1 } }) := by
  simp only [saveAccount, run_bind, run_get, hget, hversion, ne_eq, not_true_eq_false, if_false,
    run_set, run_pure]

/-- Saving a copy with any other version throws and writes nothing. -/
theorem run_saveAccount_of_stale {db : InMemoryDb} {account existing : Account}
    (hget : db.accounts.get account.vpa = some existing)
    (hversion : existing.version ≠ account.version) :
    (saveAccount account).run db = (.error (optimisticLockException account.vpa), db) := by
  simp only [saveAccount, run_bind, run_get, hget]
  rw [if_pos hversion, run_throw]

/-- An address that is not registered yet is registered at version zero. -/
theorem run_saveAccount_of_new {db : InMemoryDb} {account : Account}
    (hget : db.accounts.get account.vpa = none) :
    (saveAccount account).run db =
      (.ok { account with version := 0 },
        { db with accounts := db.accounts.set { account with version := 0 } }) := by
  simp only [saveAccount, run_bind, run_get, hget, run_set, run_pure]

theorem run_saveTransactionWith_of_fresh {arith : Arithmetic} {db : InMemoryDb}
    {txData : TransactionData} (h : db.txPacketHashes.has txData.packetHash = false) :
    (saveTransactionWith arith txData).run db =
      (.ok (Transaction.newWith arith txData db.nextTxId),
        db.insertRow (Transaction.newWith arith txData db.nextTxId)) := by
  simp only [saveTransactionWith, run_bind, run_get, h, Bool.false_eq_true, if_false, run_set,
    run_pure]

theorem run_saveTransactionWith_of_duplicate {arith : Arithmetic} {db : InMemoryDb}
    {txData : TransactionData} (h : db.txPacketHashes.has txData.packetHash = true) :
    (saveTransactionWith arith txData).run db =
      (.error (dataIntegrityViolation txData.packetHash), db) := by
  simp only [saveTransactionWith, run_bind, run_get]
  rw [if_pos h, run_throw]

theorem run_saveTransaction_of_fresh {db : InMemoryDb} {txData : TransactionData}
    (h : db.txPacketHashes.has txData.packetHash = false) :
    (saveTransaction txData).run db =
      (.ok (Transaction.new txData db.nextTxId),
        db.insertRow (Transaction.new txData db.nextTxId)) :=
  run_saveTransactionWith_of_fresh h

theorem run_saveTransaction_of_duplicate {db : InMemoryDb} {txData : TransactionData}
    (h : db.txPacketHashes.has txData.packetHash = true) :
    (saveTransaction txData).run db =
      (.error (dataIntegrityViolation txData.packetHash), db) :=
  run_saveTransactionWith_of_duplicate h

/-- A transaction whose callback returns keeps the callback's writes. -/
theorem run_runTransaction_of_ok {α : Type} {callback : DbM α} {db db' : InMemoryDb} {result : α}
    (h : callback.run db = (.ok result, db')) :
    (runTransaction callback).run db = (.ok result, db') := by
  change (match callback.run db with
    | (.ok result, db) => (.ok result, db)
    | (.error err, db') => (.error err, _) : Except Error α × InMemoryDb) = _
  rw [h]

/-- A transaction whose callback throws puts everything back but the ledger, whose
length it sets to what it was. -/
theorem run_runTransaction_rollback {α : Type} {callback : DbM α} {db : InMemoryDb} {err : Error}
    (h : (callback.run db).1 = .error err) :
    (runTransaction callback).run db = (.error err,
      { db with transactions :=
          setLength (callback.run db).2.transactions db.transactions.length }) := by
  change runTransaction callback db = _
  rw [runTransaction]
  generalize callback.run db = outcome at h
  obtain ⟨result, after⟩ := outcome
  obtain rfl : result = .error err := h
  rfl

/-- A transaction whose callback throws without having touched the ledger array
ends in the very database it started from. -/
theorem run_runTransaction_of_error {α : Type} {callback : DbM α} {db db' : InMemoryDb}
    {err : Error} (h : callback.run db = (.error err, db'))
    (hledger : db'.transactions = db.transactions) :
    (runTransaction callback).run db = (.error err, db) := by
  rw [run_runTransaction_rollback (congrArg Prod.fst h), h, hledger]
  simp [setLength]

/-- Callbacks that do the same on a database do the same in transactions on it. -/
theorem run_runTransaction_congr {α : Type} {callback callback' : DbM α} {db : InMemoryDb}
    (h : callback.run db = callback'.run db) :
    (runTransaction callback).run db = (runTransaction callback').run db := by
  cases hrun : callback'.run db with
  | mk outcome after =>
  cases outcome with
  | ok result => rw [run_runTransaction_of_ok (h.trans hrun), run_runTransaction_of_ok hrun]
  | error err =>
    rw [run_runTransaction_rollback (congrArg Prod.fst (h.trans hrun)),
      run_runTransaction_rollback (congrArg Prod.fst hrun), h]

@[simp] theorem rows_insertRow (db : InMemoryDb) (tx : Transaction) :
    (db.insertRow tx).rows = db.rows ++ [tx] := by
  simp [rows, insertRow, List.reduceOption]

@[simp] theorem accounts_insertRow (db : InMemoryDb) (tx : Transaction) :
    (db.insertRow tx).accounts = db.accounts := rfl

@[simp] theorem txPacketHashes_insertRow (db : InMemoryDb) (tx : Transaction) :
    (db.insertRow tx).txPacketHashes = db.txPacketHashes.set tx.packetHash := rfl

@[simp] theorem nextTxId_insertRow (db : InMemoryDb) (tx : Transaction) :
    (db.insertRow tx).nextTxId = db.nextTxId + 1 := rfl

end InMemoryDb

end UpiOfflineMesh
