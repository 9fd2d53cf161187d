import UpiOfflineMesh.Server

/-!
# Transaction callbacks

A callback of `runTransaction` is any program over the operations of the database:
it may look at everything, save accounts and rows, clear the tables, run nested
transactions, catch what they throw or let it pass, and return or throw at any
point. A rollback restores accounts, index and counter from copies, but the ledger
only by its length. That is enough for a ledger that can only grow, and not enough
when the callback has cleared it: then the array is another one, and setting its
length brings no row back.
-/

namespace UpiOfflineMesh

open Js InMemoryDb

/-- A callback, as a tree of the operations it performs next. Every operation that
may throw hands its result or error to the rest, which may depend on it, so
catching is continuing after an error and propagating is failing with it. -/
inductive Callback : Type → Type 1
  | ret {α : Type} (result : α) : Callback α
  | fail {α : Type} (err : Error) : Callback α
  /-- Any of the read operations: the rest may depend on the whole database. -/
  | look {α : Type} (next : InMemoryDb → Callback α) : Callback α
  | saveAccount {α : Type} (account : Account) (next : Except Error Account → Callback α) :
      Callback α
  | saveTransaction {α : Type} (txData : TransactionData)
      (next : Except Error Transaction → Callback α) : Callback α
  | clear {α : Type} (next : Callback α) : Callback α
  | runTransaction {α β : Type} (body : Callback β) (next : Except Error β → Callback α) :
      Callback α

/-- Runs a computation and returns its result or error as a value, keeping its writes. -/
def attempt {α : Type} (x : DbM α) : DbM (Except Error α) := fun db =>
  (.ok (x.run db).1, (x.run db).2)

namespace Callback

/-- The callback as a computation on the database. -/
def run {α : Type} : Callback α → DbM α
  | ret result => pure result
  | fail err => throw err
  | look next => do
    let db ← get
    (next db).run
  | saveAccount account next => do
    let result ← attempt (InMemoryDb.saveAccount account)
    (next result).run
  | saveTransaction txData next => do
    let result ← attempt (InMemoryDb.saveTransaction txData)
    (next result).run
  | clear next => do
    InMemoryDb.clear
    next.run
  | runTransaction body next => do
    let result ← attempt (InMemoryDb.runTransaction body.run)
    (next result).run

/-- Run on this database, the callback clears it at some point, in a nested
transaction or outside. -/
def clears {α : Type} : Callback α → InMemoryDb → Bool
  | ret _, _ => false
  | fail _, _ => false
  | look next, db => (next db).clears db
  | saveAccount account next, db =>
    let outcome := (InMemoryDb.saveAccount account).run db
    (next outcome.1).clears outcome.2
  | saveTransaction txData next, db =>
    let outcome := (InMemoryDb.saveTransaction txData).run db
    (next outcome.1).clears outcome.2
  | clear _, _ => true
  | runTransaction body next, db =>
    let outcome := (InMemoryDb.runTransaction body.run).run db
    body.clears db || (next outcome.1).clears outcome.2

end Callback

@[simp] theorem run_attempt {α : Type} (x : DbM α) (db : InMemoryDb) :
    (attempt x).run db = (.ok (x.run db).1, (x.run db).2) := rfl

/-! ### Reading and cutting the ledger array -/

/-- The row at an index of the ledger array, none for an empty slot and beyond the end. -/
def InMemoryDb.slot (db : InMemoryDb) (i : ℕ) : Option Transaction := (db.transactions[i]?).join

/-- Setting the length to that of a prefix cuts the array back to the prefix. -/
theorem setLength_of_extends {before slots : List (Option Transaction)} (h : before <+: slots) :
    setLength slots before.length = before := by
  obtain ⟨rest, rfl⟩ := h
  simp [setLength]

/-- Setting the length of an array gives back `before` exactly when every slot of
`before` reads the same in that array. -/
theorem setLength_eq_iff {before slots : List (Option Transaction)} :
    setLength slots before.length = before ↔
      ∀ i < before.length, (slots[i]?).join = (before[i]?).join := by
  have hlength : (setLength slots before.length).length = before.length := by
    simp only [setLength, List.length_append, List.length_take, List.length_replicate]
    omega
  have hget : ∀ i < before.length, (setLength slots before.length)[i]? = some (slots[i]?).join := by
    intro i hi
    rw [setLength, List.getElem?_append, List.length_take]
    by_cases hslots : i < slots.length
    · rw [if_pos (by omega), List.getElem?_take_of_lt hi, List.getElem?_eq_getElem hslots]
      rfl
    · rw [if_neg (by omega), List.getElem?_replicate, if_pos (by omega),
        List.getElem?_eq_none (by omega)]
      rfl
  constructor
  · intro heq i hi
    have h := hget i hi
    rw [heq] at h
    rw [h]
    rfl
  · intro hslots
    apply List.ext_getElem?
    intro i
    by_cases hi : i < before.length
    · rw [hget i hi, hslots i hi, List.getElem?_eq_getElem hi]
      rfl
    · rw [List.getElem?_eq_none (by omega), List.getElem?_eq_none (by omega)]

/-! ### Callbacks that do not clear -/

section

variable {α : Type} {callback : Callback α} {db : InMemoryDb}

/-- A transaction whose callback throws after only appending rows restores everything. -/
theorem run_runTransaction_of_extends {callback : DbM α} {err : Error}
    (h : (callback.run db).1 = .error err)
    (hextends : db.transactions <+: (callback.run db).2.transactions) :
    (runTransaction callback).run db = (.error err, db) := by
  rw [run_runTransaction_rollback h, setLength_of_extends hextends]

/-- **Rule for callbacks that do not clear:** a reflexive and transitive relation
that both save operations keep, and that only lets the ledger array grow, relates
the database before such a callback to the one after it. Nested transactions are
covered: what they roll back is as before. -/
theorem Callback.closure {P : InMemoryDb → InMemoryDb → Prop} (hrefl : ∀ db, P db db)
    (htrans : ∀ db db' db'', P db db' → P db' db'' → P db db'')
    (hgrows : ∀ db db', P db db' → db.transactions <+: db'.transactions)
    (haccount : ∀ db account, P db ((InMemoryDb.saveAccount account).run db).2)
    (htransaction : ∀ db txData, P db ((InMemoryDb.saveTransaction txData).run db).2)
    (callback : Callback α) (db : InMemoryDb) (h : callback.clears db = false) :
    P db (callback.run.run db).2 := by
  induction callback generalizing db with
  | ret result => exact hrefl db
  | fail err => exact hrefl db
  | look next ih =>
    simp only [run, run_bind, run_get]
    exact ih db db h
  | saveAccount account next ih =>
    simp only [run, run_bind, run_attempt]
    exact htrans _ _ _ (haccount db account) (ih _ _ h)
  | saveTransaction txData next ih =>
    simp only [run, run_bind, run_attempt]
    exact htrans _ _ _ (htransaction db txData) (ih _ _ h)
  | clear next => cases h
  | runTransaction body next ihBody ih =>
    simp only [clears, Bool.or_eq_false_iff] at h
    simp only [run, run_bind, run_attempt]
    have hbody := ihBody db h.1
    refine htrans _ _ _ ?_ (ih _ _ h.2)
    cases hresult : (body.run.run db).1 with
    | ok result =>
      have hrun : body.run.run db = (.ok result, (body.run.run db).2) := Prod.ext hresult rfl
      rw [run_runTransaction_of_ok hrun]
      exact hbody
    | error err =>
      rw [run_runTransaction_of_extends hresult (hgrows _ _ hbody)]
      exact hrefl db

/-- A save leaves the ledger array alone. -/
theorem transactions_saveAccount (db : InMemoryDb) (account : Account) :
    ((InMemoryDb.saveAccount account).run db).2.transactions = db.transactions := by
  cases hget : db.accounts.get account.vpa with
  | none => rw [run_saveAccount_of_new hget]
  | some existing =>
    by_cases hversion : existing.version = account.version
    · rw [run_saveAccount_of_current hget hversion]
    · rw [run_saveAccount_of_stale hget hversion]

/-- A new row goes to the end of the ledger array. -/
theorem transactions_saveTransaction (db : InMemoryDb) (txData : TransactionData) :
    db.transactions <+: ((InMemoryDb.saveTransaction txData).run db).2.transactions := by
  cases h : db.txPacketHashes.has txData.packetHash with
  | true =>
    rewrite [run_saveTransaction_of_duplicate h]
    exact List.prefix_rfl
  | false =>
    rw [run_saveTransaction_of_fresh h]
    exact List.prefix_append _ _

/-- The ledger array only grows under a callback that does not clear. -/
theorem Callback.extends_transactions (h : callback.clears db = false) :
    db.transactions <+: (callback.run.run db).2.transactions := by
  refine closure (P := fun db db' => db.transactions <+: db'.transactions)
    (fun _ => List.prefix_rfl) (fun _ _ _ => List.IsPrefix.trans) (fun _ _ h => h)
    (fun db account => ?_) transactions_saveTransaction callback db h
  rewrite [transactions_saveAccount]
  exact List.prefix_rfl

end

/-- **What a rollback restores.** For every database and every callback that throws on
it: the error is thrown again; accounts, index and next id are those of before; and
the whole database is exactly when the callback did not clear it, or has written
every row again at its old place since. -/
theorem rollback_restores_iff {α : Type} (db : InMemoryDb) (callback : Callback α) (err : Error)
    (hthrows : (callback.run.run db).1 = .error err) :
    ((runTransaction callback.run).run db).1 = .error err ∧
    ((runTransaction callback.run).run db).2.accounts = db.accounts ∧
    ((runTransaction callback.run).run db).2.txPacketHashes = db.txPacketHashes ∧
    ((runTransaction callback.run).run db).2.nextTxId = db.nextTxId ∧
    (((runTransaction callback.run).run db).2 = db ↔ callback.clears db = false ∨
      ∀ i < db.transactions.length, (callback.run.run db).2.slot i = db.slot i) := by
  rw [run_runTransaction_rollback hthrows]
  refine ⟨rfl, rfl, rfl, rfl, ?_⟩
  constructor
  · intro hrestored
    exact Or.inr (setLength_eq_iff.mp (congrArg InMemoryDb.transactions hrestored))
  · rintro (hkept | hrewritten)
    · rw [setLength_of_extends (Callback.extends_transactions hkept)]
    · have hslots := setLength_eq_iff.mpr hrewritten
      simp only [hslots]

/-- Clears the tables and throws. -/
def clearAndFail : Callback Unit := .clear (.fail ⟨"aborted"⟩)

/-- The database after one payment of 500 from Alice to Bob. -/
def paidDb : InMemoryDb :=
  ((backendPaying (.num (.fin 500)) (.num (.fin 1000))).machine.final seeded [deliver "c1" 2000]).db

/-- A rollback that loses a row: the only one of the ledger is gone afterwards,
while its hash is in the index and the next id is 2. -/
theorem rollback_loses_row :
    (clearAndFail.run.run paidDb).1 = .error ⟨"aborted"⟩ ∧ paidDb.rows.length = 1 ∧
      ((runTransaction clearAndFail.run).run paidDb).2.rows.length = 0 ∧
      ((runTransaction clearAndFail.run).run paidDb).2.txPacketHashes.has "c1" = true ∧
      ((runTransaction clearAndFail.run).run paidDb).2.nextTxId = 2 := by
  decide +kernel

/-- Opens an account and throws. -/
def openAndFail : Callback Unit :=
  .saveAccount (.new "erin@demo" "Erin" (.inl (.fin 10))) fun _ => .fail ⟨"aborted"⟩

/-- The new account and its throw leave no trace. -/
theorem rollback_restores_opened :
    ((runTransaction openAndFail.run).run paidDb).2 = paidDb :=
  (rollback_restores_iff paidDb openAndFail ⟨"aborted"⟩ (by decide +kernel)).2.2.2.2.mpr
    (Or.inl (by decide +kernel))

end UpiOfflineMesh
