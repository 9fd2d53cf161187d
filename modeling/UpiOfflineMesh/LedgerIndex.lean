import UpiOfflineMesh.Server

/-!
# One row, one effect

The unique index holds exactly the packet hashes of the ledger rows, and no two
rows share a hash. This survives evictions and resets of the idempotency cache,
so whatever the cache forgets, one ciphertext moves money at most once.
-/

namespace UpiOfflineMesh

open Js InMemoryDb

/-- Rows have different hashes, and the index is the set of these hashes. -/
structure InMemoryDb.Indexed (db : InMemoryDb) : Prop where
  nodup : (db.rows.map (·.packetHash)).Nodup
  has_iff : ∀ hash, db.txPacketHashes.has hash = true ↔ ∃ row ∈ db.rows, row.packetHash = hash

section

variable {db : InMemoryDb} {row : Transaction}

/-- A row with a hash that is not in the index keeps the index in step. -/
theorem InMemoryDb.Indexed.insertRow (h : db.Indexed)
    (hfresh : db.txPacketHashes.has row.packetHash = false) : (db.insertRow row).Indexed := by
  have hnew : ∀ old ∈ db.rows, old.packetHash ≠ row.packetHash := by
    intro old hold heq
    have hhas := (h.has_iff row.packetHash).mpr ⟨old, hold, heq⟩
    simp [hfresh] at hhas
  constructor
  · rw [rows_insertRow, List.map_append, List.map_singleton, ← List.concat_eq_append,
      List.nodup_concat]
    refine ⟨?_, h.nodup⟩
    intro hmem
    obtain ⟨old, hold, heq⟩ := List.mem_map.mp hmem
    exact hnew old hold heq
  · intro hash
    rw [txPacketHashes_insertRow, KeyedMap.has_set, Bool.or_eq_true, decide_eq_true_iff,
      h.has_iff hash, rows_insertRow]
    simp only [List.mem_append, List.mem_singleton, id]
    constructor
    · rintro (heq | ⟨old, hold, heq⟩)
      · exact ⟨row, Or.inr rfl, heq⟩
      · exact ⟨old, Or.inl hold, heq⟩
    · rintro ⟨old, hold | rfl, heq⟩
      · exact Or.inr ⟨old, hold, heq⟩
      · exact Or.inl heq

/-- Rewriting accounts touches neither ledger nor index. -/
theorem InMemoryDb.Indexed.transfer (h : db.Indexed) (sender receiver : Account)
    (amount : Number) : (db.transfer sender receiver amount).Indexed :=
  ⟨h.nodup, h.has_iff⟩

/-- A hash without a row is not in the index. -/
theorem InMemoryDb.Indexed.has_eq_false (h : db.Indexed) {hash : String}
    (hnone : ∀ row ∈ db.rows, row.packetHash ≠ hash) : db.txPacketHashes.has hash = false := by
  by_contra hhas
  obtain ⟨row, hrow, heq⟩ := (h.has_iff hash).mp (Bool.eq_true_of_not_eq_false hhas)
  exact hnone row hrow heq

/-- At most one row has a given hash. -/
theorem InMemoryDb.Indexed.countP_le_one (h : db.Indexed) (hash : String) :
    db.rows.countP (fun row => row.packetHash = hash) ≤ 1 := by
  have hcount := List.nodup_iff_count_le_one.mp h.nodup hash
  rw [List.count, List.countP_map] at hcount
  refine le_trans (le_of_eq (List.countP_congr fun row _ => ?_)) hcount
  simp

end

/-! ### Runs of the server -/

/-- A delivery of a packet with this hash. -/
def Event.delivers (backend : Backend) (hash : String) (event : Event) : Bool :=
  event.hash backend = some hash

theorem Event.delivers_iff {backend : Backend} {hash : String} {event : Event} :
    event.delivers backend hash = true ↔ event.hash backend = some hash := by
  simp [delivers]

/-- The event rewrote some account. -/
def accountsChanged (t : Transition Server Event (Option IngestResult)) : Bool :=
  t.before.db.accounts ≠ t.after.db.accounts

section

variable {backend : Backend} {server : Server} {event : Event} {hash : String}

theorem indexed_next (h : server.db.Indexed) (event : Event) :
    (backend.machine.next server event).db.Indexed := by
  have heffect := @db_effect backend server event
  generalize (backend.machine.next server event).db = db at heffect
  cases heffect with
  | unchanged => exact h
  | rejected row hhash hfresh => exact h.insertRow hfresh
  | settled row hhash hfresh hstatus hid sender receiver amount =>
    exact (h.transfer sender receiver amount).insertRow hfresh

/-- An indexed hash stays indexed: rows are never removed. -/
theorem has_next (h : server.db.txPacketHashes.has hash = true) (event : Event) :
    (backend.machine.next server event).db.txPacketHashes.has hash = true := by
  have heffect := @db_effect backend server event
  generalize (backend.machine.next server event).db = db at heffect
  cases heffect with
  | unchanged => exact h
  | rejected row =>
    rw [txPacketHashes_insertRow, KeyedMap.has_set, h, Bool.or_true]
  | settled row hhash hfresh hstatus hid sender receiver amount =>
    rw [txPacketHashes_insertRow, KeyedMap.has_set]
    exact Bool.or_eq_true_iff.mpr (Or.inr h)

/-- A delivery whose hash is indexed leaves the database as it is. -/
theorem db_next_of_has (h : server.db.txPacketHashes.has hash = true)
    (hdelivers : event.delivers backend hash = true) :
    (backend.machine.next server event).db = server.db := by
  rw [Event.delivers_iff] at hdelivers
  have heffect := @db_effect backend server event
  generalize (backend.machine.next server event).db = db at heffect
  cases heffect with
  | unchanged => rfl
  | rejected row hhash hfresh =>
    rw [hhash, Option.some.injEq] at hdelivers
    simp [hdelivers, h] at hfresh
  | settled row hhash hfresh =>
    rw [hhash, Option.some.injEq] at hdelivers
    simp [hdelivers, h] at hfresh

/-- A delivery that rewrites accounts appends a settled row for its hash, which
is indexed from then on. -/
theorem settled_of_accountsChanged (hdelivers : event.delivers backend hash = true)
    (hchanged : accountsChanged (backend.machine.transition server event) = true) :
    (∃ row : Transaction, row.packetHash = hash ∧ row.status = .settled ∧
      (backend.machine.next server event).db.rows = server.db.rows ++ [row]) ∧
    (backend.machine.next server event).db.txPacketHashes.has hash = true := by
  rw [Event.delivers_iff] at hdelivers
  have hne : server.db.accounts ≠ (backend.machine.next server event).db.accounts :=
    of_decide_eq_true hchanged
  have heffect := @db_effect backend server event
  generalize (backend.machine.next server event).db = db at heffect hne ⊢
  cases heffect with
  | unchanged => exact absurd rfl hne
  | rejected row => exact absurd rfl hne
  | settled row hhash hfresh hstatus hid sender receiver amount =>
    rw [hhash, Option.some.injEq] at hdelivers
    refine ⟨⟨row, hdelivers, hstatus, rows_insertRow _ _⟩, ?_⟩
    rw [txPacketHashes_insertRow, KeyedMap.has_set]
    simp [hdelivers]

/-- Of the deliveries of one hash at most one changes the database in a way that indexes
the hash: the index entry is the mark, set by the first change and never removed. -/
theorem countP_changes_le_one {allowed : Event → Prop}
    {fires : Transition Server Event (Option IngestResult) → Bool}
    (hindexed : ∀ (server : Server) (event : Event), allowed event →
      fires (backend.machine.transition server event) = true →
        event.delivers backend hash = true ∧
          (backend.machine.next server event).db.txPacketHashes.has hash = true)
    (hchanges : ∀ (server : Server) (event : Event),
      (backend.machine.next server event).db = server.db →
        fires (backend.machine.transition server event) = false)
    (start : Server) {events : List Event} (hallowed : ∀ event ∈ events, allowed event) :
    (backend.machine.transitions start events).countP fires ≤ 1 := by
  have hmark : ∀ (server : Server) (event : Event), allowed event →
      fires (backend.machine.transition server event) = true →
        (backend.machine.next server event).db.txPacketHashes.has hash = true :=
    fun server event hevent hfires => (hindexed server event hevent hfires).2
  have hstay : ∀ (server : Server) (event : Event), allowed event →
      server.db.txPacketHashes.has hash = true →
        (backend.machine.next server event).db.txPacketHashes.has hash = true :=
    fun server event _ h => has_next h event
  refine Machine.countP_transitions_le_one hmark hstay ?_ start hallowed
  intro server event hevent h
  cases hfires : fires (backend.machine.transition server event) with
  | false => rfl
  | true =>
    have hkept := db_next_of_has h (hindexed server event hevent hfires).1
    rw [hchanges server event hkept] at hfires
    cases hfires

theorem accountsChanged_of_db_eq (h : (backend.machine.next server event).db = server.db) :
    accountsChanged (backend.machine.transition server event) = false := by
  simp [accountsChanged, h]

end

theorem indexed_seededDb : seededDb.Indexed := by
  constructor
  · rw [rows_seededDb]
    exact List.nodup_nil
  · intro hash
    rw [rows_seededDb, seededDb_eq.1]
    simp [empty]

/-- Ledger and index agree in every state of every run. -/
theorem indexed_final (backend : Backend) (events : List Event) :
    (backend.machine.final seeded events).db.Indexed := by
  have hstep : ∀ (server : Server) (event : Event), server.db.Indexed →
      (backend.machine.next server event).db.Indexed := fun server event h => indexed_next h event
  exact Machine.invariant_all hstep indexed_seededDb events

/-- **One ciphertext, at most one effect.** In every run of deliveries, evictions
and cache resets, and for every packet hash: at most one row has it; at most one
of its deliveries changes accounts, and that one appends a settled row for it;
and after a rejected row for it no delivery of it changes any account. -/
theorem one_effect (backend : Backend) (events : List Event) (hash : String) :
    (backend.machine.final seeded events).db.rows.countP (fun row => row.packetHash = hash) ≤ 1 ∧
    (backend.machine.transitions seeded events).countP
      (fun t => t.event.delivers backend hash && accountsChanged t) ≤ 1 ∧
    (∀ t ∈ backend.machine.transitions seeded events,
      t.event.delivers backend hash = true → accountsChanged t = true →
        ∃ row : Transaction, row.packetHash = hash ∧ row.status = .settled ∧
          t.after.db.rows = t.before.db.rows ++ [row]) ∧
    (∀ t ∈ backend.machine.transitions seeded events,
      t.event.delivers backend hash = true →
        (∃ row ∈ t.before.db.rows, row.packetHash = hash ∧ row.status = .rejected) →
          t.after.db.accounts = t.before.db.accounts) := by
  refine ⟨(indexed_final backend events).countP_le_one hash, ?_, ?_, ?_⟩
  · refine @countP_changes_le_one backend hash (fun _ => True) _ ?_ ?_ seeded events
      fun _ _ => trivial
    · intro server event _ hfires
      rw [Bool.and_eq_true] at hfires
      exact ⟨hfires.1, (settled_of_accountsChanged hfires.1 hfires.2).2⟩
    · intro server event hkept
      rw [accountsChanged_of_db_eq hkept, Bool.and_false]
  · intro t ht hdelivers hchanged
    obtain ⟨earlier, later, _, heq⟩ := Machine.eq_transition_of_mem ht
    rw [heq] at hchanged ⊢
    exact (settled_of_accountsChanged hdelivers hchanged).1
  · rintro t ht hdelivers ⟨row, hrow, hhash, _⟩
    obtain ⟨earlier, later, _, heq⟩ := Machine.eq_transition_of_mem ht
    rw [heq, Machine.before_transition] at hrow
    have hhas := ((indexed_final backend earlier).has_iff hash).mpr ⟨row, hrow, hhash⟩
    rw [heq, Machine.after_transition, Machine.before_transition, db_next_of_has hhas hdelivers]

end UpiOfflineMesh
