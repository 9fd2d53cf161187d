import UpiOfflineMesh.LedgerIntegrity

/-!
# Cache and ledger in time

On a clock that does not run backwards the cache holds its claims in the order of their
instants, and the ledger its rows in the order in which they were settled. So an eviction
cuts off the front of the cache, and as long as the cleanup timer is on time no claim is
older than the retention time and one period of the timer.
-/

namespace UpiOfflineMesh

open Js InMemoryDb

/-- The period of the cleanup timer in milliseconds. -/
def cleanupPeriod : ℤ := 60000

/-- Cache and ledger are in the order of time, and no entry of theirs is later than these
readings of the clock. -/
structure Timeline (server : Server) (readings : List ℤ) : Prop where
  claims_sorted : server.seen.values.Pairwise fun a b => a.2 ≤ b.2
  rows_sorted : server.db.rows.Pairwise fun a b => a.settledAt ≤ b.settledAt
  claims_past : ∀ entry ∈ server.seen.values, ∀ reading ∈ readings, entry.2 ≤ reading
  rows_past : ∀ row ∈ server.db.rows, ∀ reading ∈ readings, row.settledAt ≤ reading

/-- The claim that an event tries to make. -/
def Event.claim (backend : Backend) : Event → Option SeenEntry
  | .ingest packet _ _ clock => some (backend.hashOf packet, clock.claimed)
  | _ => none

/-- When the cleanup timer fired last in a run, or else the start. -/
def lastCleanup (start : ℤ) (events : List Event) : ℤ :=
  events.foldl (fun last event =>
    match event with
    | .evictExpired now => now
    | _ => last) start

section

variable {backend : Backend} {server : Server} {later : List ℤ}

/-- A log in the order of time stays so, and before what is later, with at most one entry
more, made at an instant that the log has not passed. -/
theorem timeline_extend {α : Type*} {f : α → ℤ} {log log' : List α} {now : ℤ}
    (hsorted : log.Pairwise fun a b => f a ≤ f b) (hpast : ∀ a ∈ log, f a ≤ now)
    (hlater : ∀ a ∈ log, ∀ reading ∈ later, f a ≤ reading) (hnow : ∀ reading ∈ later, now ≤ reading)
    (hlog : log' = log ∨ ∃ a, f a = now ∧ log' = log ++ [a]) :
    (log'.Pairwise fun a b => f a ≤ f b) ∧ ∀ a ∈ log', ∀ reading ∈ later, f a ≤ reading := by
  rcases hlog with rfl | ⟨a, rfl, rfl⟩
  · exact ⟨hsorted, hlater⟩
  · constructor
    · rw [List.pairwise_append]
      refine ⟨hsorted, List.pairwise_singleton _ _, fun b hb c hc => ?_⟩
      rw [List.mem_singleton.mp hc]
      exact hpast b hb
    · intro b hb reading hreading
      rcases List.mem_append.mp hb with hb | hb
      · exact hlater b hb reading hreading
      · rw [List.mem_singleton.mp hb]
        exact hnow reading hreading

/-- In an ordered list the entries of the front that are below a bound are all of them. -/
theorem filter_eq_dropWhile {α : Type*} {f : α → ℤ} {l : List α} (bound : ℚ)
    (h : l.Pairwise fun a b => f a ≤ f b) :
    l.filter (fun a => bound ≤ f a) = l.dropWhile fun a => (f a : ℚ) < bound := by
  induction l with
  | nil => rfl
  | cons a l ih =>
    obtain ⟨hhead, htail⟩ := List.pairwise_cons.mp h
    by_cases hold : (f a : ℚ) < bound
    · rw [List.dropWhile_cons_of_pos (by simpa using hold), ← ih htail,
        List.filter_cons_of_neg (by simpa using hold)]
    · have hkept : ∀ b ∈ a :: l, bound ≤ (f b : ℚ) := by
        intro b hb
        rcases List.mem_cons.mp hb with rfl | hb
        · exact not_lt.mp hold
        · have hle : (f a : ℚ) ≤ f b := by exact_mod_cast hhead b hb
          exact (not_lt.mp hold).trans hle
      rw [List.dropWhile_cons_of_neg (by simpa using hold), List.filter_eq_self]
      exact fun b hb => decide_eq_true (hkept b hb)

/-- A delivery appends at most one row, stamped with the last reading of its clock. -/
theorem rows_ingest (packet : MeshPacket) (bridgeNodeId : String) (hopCount : Number)
    (clock : Clock) :
    (backend.ingest server packet bridgeNodeId hopCount clock).2.db.rows = server.db.rows ∨
      ∃ row, row.settledAt = clock.stamped ∧
        (backend.ingest server packet bridgeNodeId hopCount clock).2.db.rows =
          server.db.rows ++ [row] := by
  have heffect := @Backend.ingest_effect backend server packet bridgeNodeId hopCount clock
  generalize backend.ingest server packet bridgeNodeId hopCount clock = answer at heffect ⊢
  obtain ⟨result, after⟩ := answer
  cases heffect with
  | duplicate => exact Or.inl rfl
  | refused => exact Or.inl rfl
  | rejected hnew haccepts hadmissible hfunds row hrow =>
    exact Or.inr ⟨row, by rw [hrow]; rfl, rows_insertRow _ _⟩
  | settled hnew haccepts hadmissible hfunds hne row hrow =>
    exact Or.inr ⟨row, by rw [hrow]; rfl, rows_insertRow _ _⟩

/-- A delivery appends at most one claim, with the first reading of its clock. -/
theorem values_seen_ingest (packet : MeshPacket) (bridgeNodeId : String) (hopCount : Number)
    (clock : Clock) :
    (backend.ingest server packet bridgeNodeId hopCount clock).2.seen.values =
        server.seen.values ∨
      (backend.ingest server packet bridgeNodeId hopCount clock).2.seen.values =
        server.seen.values ++ [(backend.hashOf packet, clock.claimed)] := by
  rw [Backend.seen_ingest, SeenCache.claim]
  cases hseen : server.seen.has (backend.hashOf packet) with
  | true => exact Or.inl rfl
  | false => exact Or.inr (KeyedMap.values_set_of_not_has hseen)

/-- One event keeps the order of time. -/
theorem Timeline.next {event : Event} (h : Timeline server (event.readings ++ later))
    (hordered : (event.readings ++ later).Pairwise (· ≤ ·)) :
    Timeline (backend.machine.next server event) later := by
  have hclaims : ∀ entry ∈ server.seen.values, ∀ reading ∈ later, entry.2 ≤ reading :=
    fun entry hentry reading hreading =>
      h.claims_past entry hentry reading (List.mem_append_right _ hreading)
  have hrows : ∀ row ∈ server.db.rows, ∀ reading ∈ later, row.settledAt ≤ reading :=
    fun row hrow reading hreading =>
      h.rows_past row hrow reading (List.mem_append_right _ hreading)
  cases event with
  | clear => exact ⟨.nil, h.rows_sorted, fun _ hnone => absurd hnone List.not_mem_nil, hrows⟩
  | evictExpired now =>
    rw [next_evictExpired]
    refine ⟨?_, h.rows_sorted, ?_, hrows⟩
    · rw [SeenCache.values_evictExpired]
      exact h.claims_sorted.filter _
    · rw [SeenCache.values_evictExpired]
      exact fun entry hentry => hclaims entry (List.mem_of_mem_filter hentry)
  | ingest packet bridgeNodeId hopCount clock =>
    have hlater := (List.pairwise_append.mp hordered).2.2
    have hentries := @values_seen_ingest backend server packet bridgeNodeId hopCount clock
    have hledger := @rows_ingest backend server packet bridgeNodeId hopCount clock
    obtain ⟨hclaims', hpast⟩ := timeline_extend (f := Prod.snd) h.claims_sorted
      (fun entry hentry => h.claims_past entry hentry clock.claimed (by simp [Event.readings]))
      hclaims (hlater clock.claimed (by simp [Event.readings]))
      (hentries.imp_right fun heq => ⟨_, rfl, heq⟩)
    obtain ⟨hrows', hpast'⟩ := timeline_extend (f := Transaction.settledAt) h.rows_sorted
      (fun row hrow => h.rows_past row hrow clock.stamped (by simp [Event.readings]))
      hrows (hlater clock.stamped (by simp [Event.readings])) hledger
    exact ⟨hclaims', hrows', hpast, hpast'⟩

/-- The order of time through a run. -/
theorem Timeline.final {events : List Event}
    (h : Timeline server (events.flatMap Event.readings ++ later))
    (hordered : (events.flatMap Event.readings ++ later).Pairwise (· ≤ ·)) :
    Timeline (backend.machine.final server events) later := by
  induction events generalizing server with
  | nil => exact h
  | cons event events ih =>
    rw [List.flatMap_cons, List.append_assoc] at h hordered
    exact ih (h.next hordered) (List.pairwise_append.mp hordered).2.1

theorem timeline_seeded (readings : List ℤ) : Timeline seeded readings where
  claims_sorted := .nil
  rows_sorted := by
    rw [seeded, rows_seededDb]
    exact .nil
  claims_past _ hnone := absurd hnone List.not_mem_nil
  rows_past row hrow := by
    rw [seeded, rows_seededDb] at hrow
    exact absurd hrow List.not_mem_nil

/-! ### What the cleanup timer leaves -/

/-- Each claim of the cache was made by a delivery of its own, in the order of the
deliveries. -/
theorem values_seen_final (server : Server) (events : List Event) :
    (backend.machine.final server events).seen.values.Sublist
      (server.seen.values ++ events.filterMap (Event.claim backend)) := by
  induction events generalizing server with
  | nil => simp
  | cons event events ih =>
    rw [Machine.final_cons]
    refine (ih _).trans ?_
    cases event with
    | clear => exact List.sublist_append_of_sublist_right (List.Sublist.refl _)
    | evictExpired now =>
      rw [next_evictExpired, SeenCache.values_evictExpired]
      exact List.Sublist.append List.filter_sublist (List.Sublist.refl _)
    | ingest packet bridgeNodeId hopCount clock =>
      have hclaim : Event.claim backend (.ingest packet bridgeNodeId hopCount clock) =
          some (backend.hashOf packet, clock.claimed) := rfl
      rw [next_ingest, List.filterMap_cons_some hclaim]
      rcases @values_seen_ingest backend server packet bridgeNodeId hopCount clock with heq | heq
      · rw [heq]
        exact List.Sublist.append (List.Sublist.refl _) (List.sublist_cons_self _ _)
      · rw [heq, List.append_assoc]
        exact List.Sublist.refl _

/-- After a run every claim is within the retention time before the last cleanup. -/
theorem claims_recent {start : ℤ} {events : List Event}
    (hstart : ∀ reading ∈ events.flatMap Event.readings, start ≤ reading)
    (hordered : ClockOrdered events) (httl : 0 ≤ backend.ttlSeconds)
    (hserver : ∀ entry ∈ server.seen.values,
      (start : ℚ) - backend.ttlSeconds * 1000 ≤ entry.2) :
    ∀ entry ∈ (backend.machine.final server events).seen.values,
      (lastCleanup start events : ℚ) - backend.ttlSeconds * 1000 ≤ entry.2 := by
  induction events generalizing server start with
  | nil => exact hserver
  | cons event events ih =>
    rw [ClockOrdered, List.flatMap_cons] at hordered
    rw [List.flatMap_cons] at hstart
    have hlater : ∀ reading ∈ events.flatMap Event.readings, start ≤ reading :=
      fun reading hreading => hstart reading (List.mem_append_right _ hreading)
    have hrest : ClockOrdered events := (List.pairwise_append.mp hordered).2.1
    cases event with
    | clear => exact ih hlater hrest fun _ hnone => absurd hnone List.not_mem_nil
    | evictExpired now =>
      refine @ih _ now ?_ hrest ?_
      · exact fun reading hreading =>
          (List.pairwise_append.mp hordered).2.2 now (List.mem_singleton_self now) reading hreading
      · intro entry hentry
        rw [next_evictExpired, SeenCache.values_evictExpired, List.mem_filter] at hentry
        exact of_decide_eq_true hentry.2
    | ingest packet bridgeNodeId hopCount clock =>
      refine ih hlater hrest ?_
      intro entry hentry
      rw [next_ingest] at hentry
      rcases @values_seen_ingest backend server packet bridgeNodeId hopCount clock with heq | heq
      · rw [heq] at hentry
        exact hserver entry hentry
      · rw [heq, List.mem_append, List.mem_singleton] at hentry
        rcases hentry with hentry | rfl
        · exact hserver entry hentry
        · have hclaimed : (start : ℚ) ≤ clock.claimed := by
            exact_mod_cast hstart clock.claimed (by simp [Event.readings])
          linarith

end

/-- **Cache and ledger are in the order of time.** In every run on a clock that does not
run backwards, the claims of the cache are in the order of their instants, the rows of the
ledger in the order in which they were settled, and the list of the latest rows starts
with the latest; and an eviction cuts off the front of the cache, up to the first claim
that is not older than the retention time. -/
theorem in_order_of_time (backend : Backend) (events : List Event)
    (hordered : ClockOrdered events) :
    (backend.machine.final seeded events).seen.values.Pairwise (fun a b => a.2 ≤ b.2) ∧
    (backend.machine.final seeded events).db.rows.Pairwise
      (fun a b => a.settledAt ≤ b.settledAt) ∧
    (∃ latest : List Transaction, (backend.machine.final seeded events).db.findTop20Transactions =
        latest.map some ∧ latest.Pairwise fun a b => b.settledAt ≤ a.settledAt) ∧
    ∀ now, ((backend.machine.final seeded events).seen.evictExpired backend.ttlSeconds
        now).values =
      (backend.machine.final seeded events).seen.values.dropWhile
        fun entry => (entry.2 : ℚ) < SeenCache.cutoff backend.ttlSeconds now := by
  have htimeline : Timeline (backend.machine.final seeded events) [] := by
    refine (timeline_seeded _).final ?_
    rw [List.append_nil]
    exact hordered
  refine ⟨htimeline.claims_sorted, htimeline.rows_sorted, ?_, fun now => ?_⟩
  · refine ⟨_, (inStep_final backend events).findTop20Transactions_eq, ?_⟩
    exact (List.pairwise_reverse.mpr htimeline.rows_sorted).sublist (List.take_sublist _ _)
  · rw [SeenCache.values_evictExpired]
    exact filter_eq_dropWhile (f := Prod.snd) _ htimeline.claims_sorted

/-- The shipped backend that opens two ciphertexts, to payments of 500 and 300. -/
def backendPayingTwice : Backend :=
  shippedBackend [("c1", alicePaysBob (.num (.fin 500)) (.num (.fin 1000))),
    ("c2", alicePaysBob (.num (.fin 300)) (.num (.fin 1000)))]

/-- Two payments, one after the other. -/
theorem in_order_of_time_twoPayments :
    (backendPayingTwice.machine.final seeded
        [deliver "c1" 2000, .evictExpired 60000, deliver "c2" 61000]).db.rows.map (·.status) =
          [.settled, .settled] ∧
      (backendPayingTwice.machine.final seeded
        [deliver "c1" 2000, .evictExpired 60000, deliver "c2" 61000]).db.rows.Pairwise
          fun a b => a.settledAt ≤ b.settledAt :=
  ⟨by decide +kernel, (in_order_of_time backendPayingTwice
    [deliver "c1" 2000, .evictExpired 60000, deliver "c2" 61000]
    (by rw [ClockOrdered]; decide)).2.1⟩

/-- **The cache stays bounded.** In every run on a clock that does not run backwards, and
at every instant at which the next cleanup is not overdue, no claim of the cache is older
than the retention time and one period of the timer; and the cache has at most one claim
for each delivery of that time. -/
theorem cache_bounded (backend : Backend) (start : ℤ) (events : List Event) (now : ℤ)
    (hordered : ClockOrdered events)
    (hstart : ∀ reading ∈ events.flatMap Event.readings, start ≤ reading)
    (httl : 0 ≤ backend.ttlSeconds) (hdue : now ≤ lastCleanup start events + cleanupPeriod) :
    (∀ entry ∈ (backend.machine.final seeded events).seen.values,
      (now : ℚ) - entry.2 ≤ backend.ttlSeconds * 1000 + cleanupPeriod) ∧
    (backend.machine.final seeded events).seen.size ≤
      (events.filterMap (Event.claim backend)).countP fun entry =>
        (now : ℚ) - entry.2 ≤ backend.ttlSeconds * 1000 + cleanupPeriod := by
  have hrecent := @claims_recent backend seeded start events hstart hordered httl
    fun _ hnone => absurd hnone List.not_mem_nil
  have hdue' : (now : ℚ) ≤ lastCleanup start events + cleanupPeriod := by exact_mod_cast hdue
  have hage : ∀ entry ∈ (backend.machine.final seeded events).seen.values,
      (now : ℚ) - entry.2 ≤ backend.ttlSeconds * 1000 + cleanupPeriod := by
    intro entry hentry
    have hinstant := hrecent entry hentry
    linarith
  refine ⟨hage, ?_⟩
  have hsublist := @values_seen_final backend seeded events
  have hcount := hsublist.countP_le (p := fun entry : SeenEntry =>
    (now : ℚ) - entry.2 ≤ backend.ttlSeconds * 1000 + cleanupPeriod)
  have hall := List.countP_eq_length.mpr fun entry hentry => decide_eq_true (hage entry hentry)
  rw [hall] at hcount
  exact hcount

/-- Two payments with a cleanup in between, just before the next cleanup. -/
theorem cache_bounded_twoPayments :
    (backendPayingTwice.machine.final seeded
      [deliver "c1" 2000, .evictExpired 60000, deliver "c2" 61000]).seen.size ≤ 2 := by
  have hbounded := (cache_bounded backendPayingTwice 0
    [deliver "c1" 2000, .evictExpired 60000, deliver "c2" 61000] 119999
    (by rw [ClockOrdered]; decide) (by decide) (by decide +kernel) (by decide)).2
  exact hbounded.trans List.countP_le_length

end UpiOfflineMesh
