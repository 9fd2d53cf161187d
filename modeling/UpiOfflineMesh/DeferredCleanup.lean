import Mathlib.Data.List.Flatten
import UpiOfflineMesh.Retention
import UpiOfflineMesh.ClaimAccounting

/-!
# Cleanups put off

The cleanup timer makes room in the idempotency cache and should not be seen from outside.
Here a run is compared with the same run in which the timer never fires. The two answer
their deliveries alike exactly if no delivery repeats a hash whose claim a cleanup in
between found too old; and then one cleanup at the end makes up for all that were left out.
-/

namespace UpiOfflineMesh

open Js InMemoryDb

/-- The cleanup timer fires. -/
def Event.isCleanup : Event → Bool
  | .evictExpired _ => true
  | _ => false

/-- The events of a run in which the timer never fires. -/
def withoutCleanups (events : List Event) : List Event :=
  events.filter fun event => !event.isCleanup

/-- The results of the deliveries of a run. -/
def Backend.results (backend : Backend) (server : Server) (events : List Event) :
    List IngestResult :=
  (backend.machine.transitions server events).filterMap Transition.output

/-- Whenever a hash is delivered again and no reset lies in between, the last cleanup
before that did not find the earlier delivery too old. -/
def RepeatsInTime (backend : Backend) (start : ℤ) (events : List Event) : Prop :=
  ∀ before first middle again later hash (instant : ℤ),
    events = before ++ first :: (middle ++ again :: later) →
    first.claim backend = some (hash, instant) → again.hash backend = some hash →
    .clear ∉ middle →
      SeenCache.cutoff backend.ttlSeconds (lastCleanup start (before ++ first :: middle)) ≤ instant

/-- No delivery of the run without cleanups meets a claim that the last cleanup before it
takes away in the run with them. -/
def MissesNoClaim (backend : Backend) (server : Server) (start : ℤ) (events : List Event) :
    Prop :=
  ∀ earlier event later, events = earlier ++ event :: later →
    ∀ entry ∈ (backend.machine.final server (withoutCleanups earlier)).seen.values,
      event.hash backend = some entry.1 →
        SeenCache.cutoff backend.ttlSeconds (lastCleanup start earlier) ≤ entry.2

/-! ### Cleanups and other events -/

namespace SeenCache

variable {seen : SeenCache} {ttlSeconds : ℚ}

/-- A later cleanup makes an earlier one unnecessary. -/
theorem evictExpired_evictExpired {earlier now : ℤ} (h : earlier ≤ now) :
    (seen.evictExpired ttlSeconds earlier).evictExpired ttlSeconds now =
      seen.evictExpired ttlSeconds now := by
  have hle : cutoff ttlSeconds earlier ≤ cutoff ttlSeconds now := by
    have hcast : (earlier : ℚ) ≤ now := by exact_mod_cast h
    rw [cutoff, cutoff]
    linarith
  apply KeyedMap.ext
  rw [values_evictExpired, values_evictExpired, values_evictExpired, List.filter_filter]
  refine List.filter_congr fun entry _ => ?_
  by_cases hkept : cutoff ttlSeconds now ≤ entry.2
  · simp [hkept, hle.trans hkept]
  · simp [hkept]

/-- A new claim that is not too old can be made before or after the cleanup. -/
theorem evictExpired_set {entry : SeenEntry} {now : ℤ} (hnew : seen.has entry.1 = false)
    (hrecent : cutoff ttlSeconds now ≤ entry.2) :
    evictExpired (seen.set entry) ttlSeconds now =
      (seen.evictExpired ttlSeconds now).set entry := by
  have hnew' : (seen.evictExpired ttlSeconds now).has entry.1 = false := by
    rw [← Bool.not_eq_true] at hnew ⊢
    exact fun hstill => hnew (has_of_has_evictExpired hstill)
  apply KeyedMap.ext
  rw [values_evictExpired, KeyedMap.values_set_of_not_has hnew,
    KeyedMap.values_set_of_not_has hnew', values_evictExpired, List.filter_append]
  simp [hrecent]

end SeenCache

section

variable {backend : Backend} {server : Server} {packet : MeshPacket} {bridgeNodeId : String}
  {hopCount : Number} {clock : Clock} {last : ℤ}

/-- Once a hash has passed the gate, the rest of the cache takes no part in its delivery. -/
theorem ingest_of_new (hnew : server.seen.has (backend.hashOf packet) = false) :
    backend.ingest server packet bridgeNodeId hopCount clock =
      ((backend.ingest ⟨.empty, server.db⟩ packet bridgeNodeId hopCount clock).1,
        ⟨server.seen.set (backend.hashOf packet, clock.claimed),
          (backend.ingest ⟨.empty, server.db⟩ packet bridgeNodeId hopCount clock).2.db⟩) := by
  simp only [Backend.hashOf] at hnew
  simp only [Backend.ingest, Backend.ingestWith, SeenCache.claim, hnew, KeyedMap.has_empty,
    Bool.false_eq_true, if_false, Backend.hashOf]
  cases backend.crypto.decrypt packet.ciphertext with
  | error err => rfl
  | ok instruction =>
    simp only
    cases backend.freshnessWith .exact clock.checked instruction with
    | error err => rfl
    | ok verdict =>
      cases verdict with
      | some reason => rfl
      | none =>
        simp only
        generalize (settleWith .exact backend.platform instruction _ bridgeNodeId hopCount
          clock.stamped).run server.db = outcome
        obtain ⟨result, db⟩ := outcome
        cases result with
        | ok tx => rfl
        | error err => rfl

/-- A delivery that meets no claim that is too old can be made before or after the cleanup. -/
theorem ingest_evictExpired
    (hkept : ∀ entry ∈ server.seen.values, entry.1 = backend.hashOf packet →
      SeenCache.cutoff backend.ttlSeconds last ≤ entry.2)
    (hrecent : SeenCache.cutoff backend.ttlSeconds last ≤ clock.claimed) :
    backend.ingest (backend.machine.next server (.evictExpired last)) packet bridgeNodeId hopCount
        clock =
      ((backend.ingest server packet bridgeNodeId hopCount clock).1,
        backend.machine.next (backend.ingest server packet bridgeNodeId hopCount clock).2
          (.evictExpired last)) := by
  rw [next_evictExpired, next_evictExpired]
  cases hseen : server.seen.has (backend.hashOf packet) with
  | true =>
    obtain ⟨⟨hash, instant⟩, hget⟩ := KeyedMap.has_iff_get _ |>.mp hseen
    obtain rfl : hash = backend.hashOf packet := KeyedMap.key_of_get hget
    have hstill : (server.seen.evictExpired backend.ttlSeconds last).has (backend.hashOf packet) =
        true :=
      KeyedMap.has_of_get (SeenCache.get_evictExpired_of_recent hget
        (hkept _ (KeyedMap.mem_of_get hget) rfl))
    rw [Backend.ingest_of_seen hstill, Backend.ingest_of_seen hseen]
  | false =>
    have hnew : (server.seen.evictExpired backend.ttlSeconds last).has (backend.hashOf packet) =
        false := by
      rw [← Bool.not_eq_true] at hseen ⊢
      exact fun hstill => hseen (SeenCache.has_of_has_evictExpired hstill)
    have hset := @SeenCache.evictExpired_set server.seen backend.ttlSeconds
      (backend.hashOf packet, clock.claimed) last hseen hrecent
    rw [ingest_of_new hnew, ingest_of_new hseen, hset]

/-- Across a claim that the cleanup takes away the two answers differ. -/
theorem ingest_evictExpired_ne {entry : SeenEntry} (hentry : entry ∈ server.seen.values)
    (hhash : entry.1 = backend.hashOf packet)
    (hold : entry.2 < SeenCache.cutoff backend.ttlSeconds last) :
    (backend.ingest (backend.machine.next server (.evictExpired last)) packet bridgeNodeId
        hopCount clock).1 ≠
      (backend.ingest server packet bridgeNodeId hopCount clock).1 := by
  intro hsame
  have hdropped := (@outcome_eq_duplicate_iff backend server packet bridgeNodeId hopCount clock).mpr
    (server.seen.has_iff_mem.mpr ⟨entry, hentry, hhash⟩)
  rw [← hsame, outcome_eq_duplicate_iff, next_evictExpired, KeyedMap.has_iff_mem] at hdropped
  obtain ⟨kept, hmem, hkey⟩ := hdropped
  rw [SeenCache.values_evictExpired, List.mem_filter, decide_eq_true_iff] at hmem
  rw [server.seen.eq_of_key_eq hmem.1 hentry (hkey.trans hhash.symm)] at hmem
  exact not_lt.mpr hmem.2 hold

/-! ### Whole runs -/

theorem results_ingest (events : List Event) :
    backend.results server (.ingest packet bridgeNodeId hopCount clock :: events) =
      (backend.ingest server packet bridgeNodeId hopCount clock).1 ::
        backend.results (backend.ingest server packet bridgeNodeId hopCount clock).2 events := rfl

theorem missesNoClaim_nil : MissesNoClaim backend server last [] := by
  intro earlier event later hsplit
  simp at hsplit

/-- The first delivery of a run and the others. -/
theorem missesNoClaim_cons {event : Event} {events : List Event} :
    MissesNoClaim backend server last (event :: events) ↔
      (∀ entry ∈ server.seen.values, event.hash backend = some entry.1 →
        SeenCache.cutoff backend.ttlSeconds last ≤ entry.2) ∧
      MissesNoClaim backend (backend.machine.final server (withoutCleanups [event]))
        (lastCleanup last [event]) events := by
  have hsplit : ∀ earlier, withoutCleanups (event :: earlier) =
      withoutCleanups [event] ++ withoutCleanups earlier :=
    fun earlier => List.filter_append [event] earlier
  constructor
  · intro h
    refine ⟨h [] event events rfl, ?_⟩
    rintro earlier again later rfl entry hentry hhash
    refine h (event :: earlier) again later rfl entry ?_ hhash
    rwa [hsplit, Machine.final_append]
  · rintro ⟨hhead, htail⟩ earlier again later heq entry hentry hhash
    cases earlier with
    | nil =>
      obtain ⟨rfl, rfl⟩ := List.cons.inj heq
      exact hhead entry hentry hhash
    | cons first earlier =>
      obtain ⟨rfl, rfl⟩ := List.cons.inj heq
      rw [hsplit, Machine.final_append] at hentry
      exact htail earlier again later rfl entry hentry hhash

/-- What carries no packet meets no claim. -/
theorem missesNoClaim_of_hash_none {event : Event} {events : List Event}
    (h : event.hash backend = none) :
    MissesNoClaim backend server last (event :: events) ↔
      MissesNoClaim backend (backend.machine.final server (withoutCleanups [event]))
        (lastCleanup last [event]) events := by
  rw [missesNoClaim_cons]
  refine and_iff_right fun entry _ hhash => ?_
  rw [h] at hhash
  cases hhash

theorem missesNoClaim_ingest {events : List Event} :
    MissesNoClaim backend server last
        (.ingest packet bridgeNodeId hopCount clock :: events) ↔
      (∀ entry ∈ server.seen.values, entry.1 = backend.hashOf packet →
        SeenCache.cutoff backend.ttlSeconds last ≤ entry.2) ∧
      MissesNoClaim backend (backend.ingest server packet bridgeNodeId hopCount clock).2 last
        events := by
  rw [missesNoClaim_cons]
  refine and_congr_left fun _ => forall₂_congr fun entry _ => imp_congr_left ?_
  rw [Event.hash, Option.some.injEq, eq_comm]

/-- **Putting off**, from any server whose cache was just cleaned up. -/
theorem put_off {events : List Event} (hordered : ClockOrdered events)
    (hlast : ∀ reading ∈ events.flatMap Event.readings, last ≤ reading)
    (httl : 0 ≤ backend.ttlSeconds) :
    (backend.results (backend.machine.next server (.evictExpired last)) events =
        backend.results server (withoutCleanups events) ↔
      MissesNoClaim backend server last events) ∧
    (MissesNoClaim backend server last events →
      backend.machine.final (backend.machine.next server (.evictExpired last)) events =
        backend.machine.next (backend.machine.final server (withoutCleanups events))
          (.evictExpired (lastCleanup last events))) := by
  induction events generalizing server last with
  | nil => exact ⟨⟨fun _ => missesNoClaim_nil, fun _ => rfl⟩, fun _ => rfl⟩
  | cons event events ih =>
    rw [ClockOrdered, List.flatMap_cons, List.pairwise_append] at hordered
    obtain ⟨-, hrest, hafter⟩ := hordered
    rw [List.flatMap_cons] at hlast
    have hlater : ∀ reading ∈ events.flatMap Event.readings, last ≤ reading :=
      fun reading hreading => hlast reading (List.mem_append_right _ hreading)
    cases event with
    | clear =>
      rw [missesNoClaim_of_hash_none rfl]
      exact @ih (backend.machine.next server .clear) last hrest hlater
    | evictExpired now =>
      have hnow : last ≤ now := hlast now (by simp [Event.readings])
      have hnext : backend.machine.next (backend.machine.next server (.evictExpired last))
          (.evictExpired now) = backend.machine.next server (.evictExpired now) := by
        simp only [next_evictExpired, SeenCache.evictExpired_evictExpired hnow]
      have hresults : backend.results (backend.machine.next server (.evictExpired last))
          (.evictExpired now :: events) =
            backend.results (backend.machine.next server (.evictExpired now)) events := by
        rw [← hnext]
        rfl
      rw [missesNoClaim_of_hash_none rfl, hresults, Machine.final_cons, hnext]
      exact @ih server now hrest
        fun reading hreading => hafter now (List.mem_singleton_self now) reading hreading
    | ingest packet bridgeNodeId hopCount clock =>
      have hclaimed : (last : ℚ) ≤ clock.claimed := by
        exact_mod_cast hlast clock.claimed (by simp [Event.readings])
      have hrecent : SeenCache.cutoff backend.ttlSeconds last ≤ clock.claimed := by
        rw [SeenCache.cutoff]
        linarith
      have htail := @ih (backend.ingest server packet bridgeNodeId hopCount clock).2 last hrest
        hlater
      have hwithout : withoutCleanups (.ingest packet bridgeNodeId hopCount clock :: events) =
          .ingest packet bridgeNodeId hopCount clock :: withoutCleanups events := rfl
      rw [missesNoClaim_ingest, hwithout, results_ingest, results_ingest, Machine.final_cons,
        Machine.final_cons, next_ingest, next_ingest]
      by_cases hkept : ∀ entry ∈ server.seen.values, entry.1 = backend.hashOf packet →
          SeenCache.cutoff backend.ttlSeconds last ≤ entry.2
      · rw [ingest_evictExpired hkept hrecent, List.cons_eq_cons, and_iff_right rfl,
          and_iff_right hkept]
        exact htail
      · -- The two answers to this very delivery differ.
        refine ⟨⟨fun hsame => absurd (List.cons.inj hsame).1 ?_, fun h => absurd h.1 hkept⟩,
          fun h => absurd h.1 hkept⟩
        push Not at hkept
        obtain ⟨entry, hentry, hhash, hold⟩ := hkept
        exact ingest_evictExpired_ne hentry hhash hold

/-! ### The claims of a run without cleanups -/

/-- Each claim was made by a delivery since the last reset. -/
theorem claim_origin {events : List Event} {entry : SeenEntry}
    (h : entry ∈ (backend.machine.final seeded (withoutCleanups events)).seen.values) :
    ∃ before first after, events = before ++ first :: after ∧
      first.claim backend = some entry ∧ .clear ∉ after := by
  induction events using List.reverseRecOn with
  | nil => exact absurd h List.not_mem_nil
  | append_singleton events event ih =>
    rw [withoutCleanups, List.filter_append, Machine.final_append] at h
    have hearlier : entry ∈ (backend.machine.final seeded (withoutCleanups events)).seen.values →
        event ≠ .clear → ∃ before first after, events ++ [event] = before ++ first :: after ∧
          first.claim backend = some entry ∧ .clear ∉ after := by
      intro hentry hne
      obtain ⟨before, first, after, rfl, hclaim, hkept⟩ := ih hentry
      refine ⟨before, first, after ++ [event], by simp, hclaim, ?_⟩
      simp [hkept, Ne.symm hne]
    cases event with
    | clear => exact absurd h List.not_mem_nil
    | evictExpired now => exact hearlier h (by simp)
    | ingest packet bridgeNodeId hopCount clock =>
      rcases @values_seen_ingest backend
        (backend.machine.final seeded (withoutCleanups events)) packet bridgeNodeId hopCount clock
        with heq | heq
      · exact hearlier (heq ▸ h) (by simp)
      · have hentry : entry ∈ (backend.machine.final seeded (withoutCleanups events)).seen.values ++
            [(backend.hashOf packet, clock.claimed)] := heq ▸ h
        rcases List.mem_append.mp hentry with hentry | hentry
        · exact hearlier hentry (by simp)
        · rw [List.mem_singleton] at hentry
          exact ⟨events, .ingest packet bridgeNodeId hopCount clock, [], rfl,
            congrArg some hentry.symm, List.not_mem_nil⟩

/-- Without cleanups and resets a claim stays. -/
theorem mem_values_of_not_mem_clear {events : List Event} {entry : SeenEntry}
    (hentry : entry ∈ server.seen.values) (hkept : .clear ∉ events) :
    entry ∈ (backend.machine.final server (withoutCleanups events)).seen.values := by
  have hstep : ∀ (server : Server) (event : Event), event.isCleanup = false ∧ event ≠ .clear →
      entry ∈ server.seen.values → entry ∈ (backend.machine.next server event).seen.values := by
    rintro server event ⟨hquiet, hne⟩ hmem
    cases event with
    | clear => exact absurd rfl hne
    | evictExpired now => cases hquiet
    | ingest packet bridgeNodeId hopCount clock =>
      rw [next_ingest]
      rcases @values_seen_ingest backend server packet bridgeNodeId hopCount clock with heq | heq
      · rwa [heq]
      · rw [heq]
        exact List.mem_append_left _ hmem
  refine Machine.invariant hstep hentry fun event hevent => ?_
  rw [withoutCleanups, List.mem_filter] at hevent
  refine ⟨by simpa using hevent.2, ?_⟩
  rintro rfl
  exact hkept hevent.1

/-- After a delivery its hash is claimed, at its instant or earlier. -/
theorem exists_claim {first : Event} {hash : String} {instant : ℤ}
    (hclaim : first.claim backend = some (hash, instant))
    (hpast : ∀ entry ∈ server.seen.values, ∀ reading ∈ first.readings, entry.2 ≤ reading) :
    ∃ entry ∈ (backend.machine.next server first).seen.values,
      entry.1 = hash ∧ entry.2 ≤ instant := by
  cases first with
  | clear => cases hclaim
  | evictExpired now => cases hclaim
  | ingest packet bridgeNodeId hopCount clock =>
    cases hclaim
    rw [next_ingest]
    rcases @values_seen_ingest backend server packet bridgeNodeId hopCount clock with heq | heq
    · have hhas := @has_seen_ingest backend server (backend.hashOf packet) packet bridgeNodeId
        hopCount clock
      rw [decide_eq_true rfl, Bool.true_or, KeyedMap.has_iff_mem] at hhas
      obtain ⟨entry, hentry, hkey⟩ := hhas
      refine ⟨entry, hentry, hkey, ?_⟩
      rw [heq] at hentry
      exact hpast entry hentry clock.claimed (by simp [Event.readings])
    · rw [heq]
      exact ⟨_, List.mem_append_right _ (List.mem_singleton_self _), rfl, le_refl _⟩

/-- What the deliveries meet, told by the events alone. -/
theorem missesNoClaim_iff {start : ℤ} {events : List Event} (hordered : ClockOrdered events) :
    MissesNoClaim backend seeded start events ↔ RepeatsInTime backend start events := by
  constructor
  · rintro h before first middle again later hash instant rfl hclaim hhash hkept
    have htimeline : Timeline (backend.machine.final seeded (withoutCleanups before))
        (first.readings ++ []) := by
      refine (timeline_seeded _).final ?_
      rw [List.append_nil]
      refine List.Pairwise.sublist ?_ hordered
      rw [List.flatMap_append, List.flatMap_cons]
      exact (List.filter_sublist.flatMap _).append (List.sublist_append_left _ _)
    rw [List.append_nil] at htimeline
    obtain ⟨entry, hentry, rfl, hle⟩ := exists_claim hclaim htimeline.claims_past
    have hfirst : first.isCleanup = false := by
      cases first with
      | evictExpired now => cases hclaim
      | _ => rfl
    have hstill : entry ∈ (backend.machine.final seeded
        (withoutCleanups (before ++ first :: middle))).seen.values := by
      rw [withoutCleanups, List.filter_append, List.filter_cons_of_pos (by simp [hfirst]),
        Machine.final_append, Machine.final_cons]
      exact mem_values_of_not_mem_clear hentry hkept
    refine (h (before ++ first :: middle) again later (by simp) entry hstill hhash).trans ?_
    exact_mod_cast hle
  · rintro h earlier again later rfl ⟨hash, instant⟩ hentry hhash
    obtain ⟨before, first, middle, rfl, hclaim, hkept⟩ := claim_origin hentry
    exact h before first middle again later hash instant (by simp) hclaim hhash hkept

end

/-- **Cleanups can be put off.** In every run on a clock that does not run backwards, the
deliveries are answered as in the run in which the timer never fires exactly if no hash is
delivered again, without a reset in between, after a cleanup that found its delivery too
old; and then the run ends as the one without cleanups, once it is cleaned up at the
instant of the last of them. -/
theorem cleanups_put_off (backend : Backend) (start : ℤ) (events : List Event)
    (hordered : ClockOrdered events)
    (hstart : ∀ reading ∈ events.flatMap Event.readings, start ≤ reading)
    (httl : 0 ≤ backend.ttlSeconds) :
    (backend.results seeded events = backend.results seeded (withoutCleanups events) ↔
      RepeatsInTime backend start events) ∧
    (RepeatsInTime backend start events →
      backend.machine.final seeded events =
        backend.machine.next (backend.machine.final seeded (withoutCleanups events))
          (.evictExpired (lastCleanup start events))) := by
  rw [← missesNoClaim_iff hordered]
  exact @put_off backend seeded start events hordered hstart httl

/-- A payment delivered again a millisecond too late for the cache. -/
theorem cleanups_put_off_late :
    (backendPaying (.num (.fin 500)) (.num (.fin 1000))).results seeded
        [deliver "c1" 2000, .evictExpired 86402001, deliver "c1" 86402002] ≠
      (backendPaying (.num (.fin 500)) (.num (.fin 1000))).results seeded
        [deliver "c1" 2000, deliver "c1" 86402002] := by
  intro hsame
  have hlate := (cleanups_put_off (backendPaying (.num (.fin 500)) (.num (.fin 1000))) 0
    [deliver "c1" 2000, .evictExpired 86402001, deliver "c1" 86402002]
    (by rw [ClockOrdered]; decide) (by decide) (by norm_num [backendPaying, shippedBackend])).1.mp
      hsame [] (deliver "c1" 2000) [.evictExpired 86402001] (deliver "c1" 86402002) [] "c1" 2000 rfl
      rfl rfl (by simp)
  norm_num [backendPaying, shippedBackend, lastCleanup, SeenCache.cutoff, deliver] at hlate

end UpiOfflineMesh
