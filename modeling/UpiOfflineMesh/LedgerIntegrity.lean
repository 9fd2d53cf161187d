import Mathlib.Data.List.Range
import UpiOfflineMesh.Callbacks
import UpiOfflineMesh.LedgerIndex

/-!
# Ledger integrity

The ledger is kept in three pieces, array, index and counter, each of which a
rollback restores by its own means. They stay in step in every run of deliveries
and transactions whose callbacks do not clear the tables: rows carry the ids
`1, …, n` in their order, the counter is `n + 1`, the index is the set of the rows'
hashes, and the ledger only ever grows at its end.
-/

namespace UpiOfflineMesh

open Js InMemoryDb

/-- Array, index and counter of the ledger are in step, and no slot is empty. -/
structure InMemoryDb.InStep (db : InMemoryDb) : Prop extends db.Indexed where
  filled : db.transactions = db.rows.map some
  ids_eq : db.rows.map (·.id) = List.range' 1 db.rows.length
  nextTxId_eq : db.nextTxId = db.rows.length + 1

namespace InMemoryDb.InStep

variable {db : InMemoryDb}

/-- A row under the next id with a hash that is not indexed keeps the pieces in step. -/
theorem insertRow (h : db.InStep) {row : Transaction} (hid : row.id = db.nextTxId)
    (hfresh : db.txPacketHashes.has row.packetHash = false) : (db.insertRow row).InStep where
  toIndexed := h.toIndexed.insertRow hfresh
  filled := by
    rw [rows_insertRow, List.map_append, ← h.filled]
    rfl
  ids_eq := by
    rw [rows_insertRow, List.map_append, List.map_singleton, h.ids_eq, hid, h.nextTxId_eq,
      List.length_append, List.length_singleton, List.range'_concat, Nat.one_mul, Nat.add_comm 1]
  nextTxId_eq := by
    rw [nextTxId_insertRow, rows_insertRow, List.length_append, List.length_singleton,
      h.nextTxId_eq]

/-- What only rewrites accounts keeps the pieces in step. -/
theorem of_ledger_eq (h : db.InStep) {db' : InMemoryDb}
    (htransactions : db'.transactions = db.transactions)
    (hhashes : db'.txPacketHashes = db.txPacketHashes) (hnext : db'.nextTxId = db.nextTxId) :
    db'.InStep := by
  have hrows : db'.rows = db.rows := by rw [rows, rows, htransactions]
  refine ⟨⟨?_, ?_⟩, ?_, ?_, ?_⟩
  · rw [hrows]
    exact h.nodup
  · rw [hhashes, hrows]
    exact h.has_iff
  · rw [htransactions, hrows]
    exact h.filled
  · rw [hrows]
    exact h.ids_eq
  · rw [hnext, hrows]
    exact h.nextTxId_eq

/-- Rows of a ledger in step are sorted by id, each id below the later ones. -/
theorem pairwise_lt (h : db.InStep) : db.rows.Pairwise fun a b => a.id < b.id := by
  have hsorted : (db.rows.map (·.id)).Pairwise (· < ·) := by
    rw [h.ids_eq]
    exact List.pairwise_lt_range'
  exact List.pairwise_map.mp hsorted

/-- **The latest rows:** the query sorts by id, which turns the ledger around. -/
theorem findTop20Transactions_eq (h : db.InStep) :
    db.findTop20Transactions = (db.rows.reverse.take 20).map some := by
  have hperm : (db.rows.mergeSort fun a b => b.id ≤ a.id).Perm db.rows.reverse :=
    (List.mergeSort_perm _ _).trans (List.reverse_perm _).symm
  have hsorted : (db.rows.mergeSort fun a b => b.id ≤ a.id).Pairwise fun a b => b.id ≤ a.id := by
    have hpairwise := @List.pairwise_mergeSort Transaction (fun a b => decide (b.id ≤ a.id))
      (by simp only [decide_eq_true_eq]; omega) (by simp only [Bool.or_eq_true, decide_eq_true_eq]; omega)
      db.rows
    simpa only [decide_eq_true_eq] using hpairwise
  have hdescending : db.rows.reverse.Pairwise fun a b => b.id ≤ a.id :=
    (List.pairwise_reverse.mpr h.pairwise_lt).imp fun hlt => hlt.le
  -- Two rows with the same id are the same row.
  have hinj : ∀ a ∈ db.rows, ∀ b ∈ db.rows, a.id = b.id → a = b := by
    have hnodup : (db.rows.map (·.id)).Nodup := by
      rw [h.ids_eq]
      exact List.nodup_range'
    exact fun a ha b hb heq => List.inj_on_of_nodup_map hnodup ha hb heq
  have hsort : (db.rows.mergeSort fun a b => b.id ≤ a.id) = db.rows.reverse := by
    refine hperm.eq_of_pairwise (fun a b ha hb hba hab => ?_) hsorted hdescending
    exact hinj a ((List.mergeSort_perm _ _).mem_iff.mp ha) b (List.mem_reverse.mp hb)
      (le_antisymm hab hba)
  have hempty : db.transactions.length - db.rows.length = 0 := by
    rw [h.filled, List.length_map, Nat.sub_self]
  rw [findTop20Transactions, hsort, hempty, List.replicate_zero, List.append_nil, List.map_take]

end InMemoryDb.InStep

/-! ### Callbacks and transactions -/

/-- The change from one database to a later one that keeps the ledger in step and
every row in its place. -/
structure LedgerGrows (before after : InMemoryDb) : Prop where
  grows : before.transactions <+: after.transactions
  inStep : before.InStep → after.InStep

namespace LedgerGrows

theorem refl (db : InMemoryDb) : LedgerGrows db db := ⟨List.prefix_rfl, id⟩

theorem trans {db db' db'' : InMemoryDb} (h : LedgerGrows db db') (h' : LedgerGrows db' db'') :
    LedgerGrows db db'' :=
  ⟨h.grows.trans h'.grows, h'.inStep ∘ h.inStep⟩

/-- The rows of the earlier ledger are the first rows of the later one. -/
theorem rows_extend {db db' : InMemoryDb} (h : LedgerGrows db db') : db.rows <+: db'.rows :=
  h.grows.filterMap id

/-- A new row under the next id. -/
theorem insertRow {db : InMemoryDb} {row : Transaction} (hid : row.id = db.nextTxId)
    (hfresh : db.txPacketHashes.has row.packetHash = false) : LedgerGrows db (db.insertRow row) :=
  ⟨List.prefix_append _ _, fun h => h.insertRow hid hfresh⟩

end LedgerGrows

theorem ledgerGrows_saveAccount (db : InMemoryDb) (account : Account) :
    LedgerGrows db ((saveAccount account).run db).2 := by
  cases hget : db.accounts.get account.vpa with
  | none =>
    rw [run_saveAccount_of_new hget]
    exact ⟨List.prefix_rfl, fun h => h.of_ledger_eq rfl rfl rfl⟩
  | some existing =>
    by_cases hversion : existing.version = account.version
    · rw [run_saveAccount_of_current hget hversion]
      exact ⟨List.prefix_rfl, fun h => h.of_ledger_eq rfl rfl rfl⟩
    · rw [run_saveAccount_of_stale hget hversion]
      exact .refl db

theorem ledgerGrows_saveTransaction (db : InMemoryDb) (txData : TransactionData) :
    LedgerGrows db ((saveTransaction txData).run db).2 := by
  cases h : db.txPacketHashes.has txData.packetHash with
  | true =>
    rw [run_saveTransaction_of_duplicate h]
    exact .refl db
  | false =>
    rw [run_saveTransaction_of_fresh h]
    exact .insertRow rfl h

/-- A transaction whose callback does not clear grows the ledger, or leaves the
database as it was. -/
theorem ledgerGrows_runTransaction {α : Type} {callback : Callback α} {db : InMemoryDb}
    (h : callback.clears db = false) :
    LedgerGrows db ((runTransaction callback.run).run db).2 :=
  Callback.closure LedgerGrows.refl (fun _ _ _ h h' => h.trans h') (fun _ _ h => h.grows)
    ledgerGrows_saveAccount ledgerGrows_saveTransaction
    (.runTransaction callback fun _ => .ret ()) db (by simp [Callback.clears, h])

/-! ### Runs -/

/-- What can happen to the database: an event of the server, or a transaction with
a callback of its own. -/
inductive StoreEvent : Type 1 where
  | server (event : Event)
  | transaction {α : Type} (callback : Callback α)

/-- The server together with the transactions of other code. -/
def Backend.store (backend : Backend) : Machine Server StoreEvent (Option IngestResult) where
  step server
    | .server event => backend.machine.step server event
    | .transaction callback =>
      (none, { server with db := ((runTransaction callback.run).run server.db).2 })

/-- The event's callback, if it has one, never clears the tables. -/
def StoreEvent.NeverClears : StoreEvent → Prop
  | server _ => True
  | transaction callback => ∀ db, callback.clears db = false

/-- Every event of a delivery grows the ledger by what `settle` appends. -/
theorem ledgerGrows_event {backend : Backend} (server : Server) (event : Event) :
    LedgerGrows server.db (backend.machine.next server event).db := by
  have heffect := @db_effect backend server event
  generalize (backend.machine.next server event).db = db at heffect
  cases heffect with
  | unchanged => exact .refl _
  | rejected row hhash hfresh hstatus hid => exact .insertRow hid hfresh
  | settled row hhash hfresh hstatus hid sender receiver amount =>
    have haccounts : LedgerGrows server.db (server.db.transfer sender receiver amount) :=
      ⟨List.prefix_rfl, fun h => h.of_ledger_eq rfl rfl rfl⟩
    exact haccounts.trans (.insertRow hid hfresh)

theorem ledgerGrows_next {backend : Backend} (server : Server) {event : StoreEvent}
    (hevent : event.NeverClears) :
    LedgerGrows server.db (backend.store.next server event).db := by
  cases event with
  | server event => exact ledgerGrows_event server event
  | transaction callback => exact ledgerGrows_runTransaction (hevent server.db)

/-- The ledger grows over every run without clears. -/
theorem ledgerGrows_final {backend : Backend} (server : Server) {events : List StoreEvent}
    (hevents : ∀ event ∈ events, event.NeverClears) :
    LedgerGrows server.db (backend.store.final server events).db := by
  have hstep : ∀ (now : Server) (event : StoreEvent), event.NeverClears →
      LedgerGrows server.db now.db → LedgerGrows server.db (backend.store.next now event).db :=
    fun now event hevent h => h.trans (ledgerGrows_next now hevent)
  exact Machine.invariant hstep (.refl server.db) hevents

theorem inStep_seededDb : seededDb.InStep where
  toIndexed := indexed_seededDb
  filled := by
    rw [rows_seededDb, seededDb_eq.1]
    rfl
  ids_eq := by rw [rows_seededDb]; rfl
  nextTxId_eq := by
    rw [rows_seededDb, seededDb_eq.1]
    rfl

/-- In every run of the server the pieces are in step. -/
theorem inStep_final (backend : Backend) (events : List Event) :
    (backend.machine.final seeded events).db.InStep :=
  Machine.invariant_all (I := fun server : Server => server.db.InStep)
    (fun server event h => (ledgerGrows_event server event).inStep h) inStep_seededDb events

/-- **Ledger integrity.** After every run of deliveries and of transactions whose
callbacks do not clear the tables, from the seeded server: the rows fill the array
and carry the ids `1, …, n` in their order; the next id is `n + 1`; hashes of rows
differ pairwise, and the index is the set of them; the ledger after any earlier part
of the run is a prefix of it; and the query for the latest rows answers the last
twenty, newest first. -/
theorem ledger_integrity (backend : Backend) (events : List StoreEvent)
    (hevents : ∀ event ∈ events, event.NeverClears) :
    (backend.store.final seeded events).db.transactions =
        (backend.store.final seeded events).db.rows.map some ∧
    (backend.store.final seeded events).db.rows.map (·.id) =
        List.range' 1 (backend.store.final seeded events).db.rows.length ∧
    (backend.store.final seeded events).db.nextTxId =
        (backend.store.final seeded events).db.rows.length + 1 ∧
    ((backend.store.final seeded events).db.rows.map (·.packetHash)).Nodup ∧
    (∀ hash, (backend.store.final seeded events).db.txPacketHashes.has hash = true ↔
      ∃ row ∈ (backend.store.final seeded events).db.rows, row.packetHash = hash) ∧
    (∀ earlier later, events = earlier ++ later →
      (backend.store.final seeded earlier).db.rows <+:
        (backend.store.final seeded events).db.rows) ∧
    (backend.store.final seeded events).db.findTop20Transactions =
        ((backend.store.final seeded events).db.rows.reverse.take 20).map some := by
  have hinStep : (backend.store.final seeded events).db.InStep :=
    (ledgerGrows_final seeded hevents).inStep inStep_seededDb
  refine ⟨hinStep.filled, hinStep.ids_eq, hinStep.nextTxId_eq, hinStep.nodup, hinStep.has_iff, ?_,
    hinStep.findTop20Transactions_eq⟩
  rintro earlier later rfl
  rw [Machine.final_append]
  exact (ledgerGrows_final _ fun event hevent => hevents event (by simp [hevent])).rows_extend

/-- A payment, a transaction that opens an account, and one that opens it and throws. -/
theorem ledger_integrity_threeEvents :
    (((backendPaying (.num (.fin 500)) (.num (.fin 1000))).store.final seeded
      [.server (deliver "c1" 2000),
        .transaction (.saveAccount (.new "erin@demo" "Erin" (.inl (.fin 10))) fun _ => .ret ()),
        .transaction openAndFail]).db.rows.map (·.packetHash)).Nodup :=
  (ledger_integrity (backendPaying (.num (.fin 500)) (.num (.fin 1000)))
    [.server (deliver "c1" 2000),
      .transaction (.saveAccount (.new "erin@demo" "Erin" (.inl (.fin 10))) fun _ => .ret ()),
      .transaction openAndFail]
    (by simp [StoreEvent.NeverClears, Callback.clears, openAndFail])).2.2.2.1

end UpiOfflineMesh
