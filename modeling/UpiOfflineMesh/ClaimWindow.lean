import UpiOfflineMesh.IdempotencyService
import UpiOfflineMesh.Machine

/-!
# How long a claim stands

The idempotency service over whole runs of claims and evictions. A claim stands from
the call that answered true until an eviction takes it out of the map, and the map
holds the standing claims with their instants and nothing else. An eviction removes
only what is older than the retention time, so no hash is claimed twice within it.
-/

namespace UpiOfflineMesh

open Js

/-- A call of the service, with the clock as it read it. -/
inductive GateCall where
  | claim (packetHash : String) (now : ℤ)
  | evictExpired (now : ℤ)

/-- The instant of a call. -/
def GateCall.reading : GateCall → ℤ
  | .claim _ now => now
  | .evictExpired now => now

/-- The idempotency service as a machine; only claims are answered. -/
def gate (ttlSeconds : ℚ) : Machine SeenCache GateCall (Option Bool) where
  step seen
    | .claim packetHash now =>
      let (first, seen) := seen.claim packetHash now
      (some first, seen)
    | .evictExpired now => (none, seen.evictExpired ttlSeconds now)

/-- The cache of a new service after some calls. -/
def cacheAfter (ttlSeconds : ℚ) (calls : List GateCall) : SeenCache :=
  (gate ttlSeconds).final .empty calls

/-- What a claim after some calls returns. -/
def claimAfter (ttlSeconds : ℚ) (calls : List GateCall) (packetHash : String) (now : ℤ) : Bool :=
  ((cacheAfter ttlSeconds calls).claim packetHash now).1

/-- The step is an eviction that takes the hash out of the cache. -/
def removes (packetHash : String) (t : Transition SeenCache GateCall (Option Bool)) : Bool :=
  match t.event with
  | .claim _ _ => false
  | .evictExpired _ => t.before.has packetHash && !t.after.has packetHash

/-- Among these calls is a claim of the hash at this instant that returned true, and
no eviction after it has removed the hash. -/
def Stands (ttlSeconds : ℚ) (calls : List GateCall) (packetHash : String) (instant : ℤ) : Prop :=
  ∃ before after, calls = before ++ .claim packetHash instant :: after ∧
    claimAfter ttlSeconds before packetHash instant = true ∧
    ∀ t ∈ (gate ttlSeconds).transitions
      (cacheAfter ttlSeconds (before ++ [.claim packetHash instant])) after,
      removes packetHash t = false

section

variable {ttlSeconds : ℚ} {calls : List GateCall} {packetHash : String} {instant now : ℤ}

theorem cacheAfter_concat (calls : List GateCall) (call : GateCall) :
    cacheAfter ttlSeconds (calls ++ [call]) =
      (gate ttlSeconds).next (cacheAfter ttlSeconds calls) call := by
  unfold cacheAfter
  rw [Machine.final_append, Machine.final_cons, Machine.final_nil]

@[simp] theorem gate_next_claim (seen : SeenCache) (other : String) :
    (gate ttlSeconds).next seen (.claim other now) = (seen.claim other now).2 := rfl

@[simp] theorem gate_next_evictExpired (seen : SeenCache) :
    (gate ttlSeconds).next seen (.evictExpired now) = seen.evictExpired ttlSeconds now := rfl

/-- A claim returns true exactly for a hash that is not in the cache. -/
theorem claimAfter_eq :
    claimAfter ttlSeconds calls packetHash now = !(cacheAfter ttlSeconds calls).has packetHash := by
  unfold claimAfter SeenCache.claim
  split
  case isTrue hhas => rw [hhas]; rfl
  case isFalse hnew => rw [Bool.eq_false_of_not_eq_true hnew]; rfl

/-- One more call starts a claim or leaves the standing claims that it does not remove. -/
theorem stands_concat {call : GateCall} :
    Stands ttlSeconds (calls ++ [call]) packetHash instant ↔
      (call = .claim packetHash instant ∧ claimAfter ttlSeconds calls packetHash instant = true) ∨
      (Stands ttlSeconds calls packetHash instant ∧
        removes packetHash ((gate ttlSeconds).transition (cacheAfter ttlSeconds calls) call) =
          false) := by
  constructor
  · rintro ⟨before, after, hcalls, hclaimed, hkept⟩
    rcases List.eq_nil_or_concat after with rfl | ⟨after, last, rfl⟩
    · obtain ⟨rfl, hlast⟩ := List.append_inj' hcalls rfl
      exact Or.inl ⟨List.singleton_inj.mp hlast, hclaimed⟩
    · rw [List.concat_eq_append] at hcalls hkept
      rw [← List.cons_append, ← List.append_assoc] at hcalls
      obtain ⟨rfl, hlast⟩ := List.append_inj' hcalls rfl
      obtain rfl := List.singleton_inj.mp hlast
      rw [Machine.transitions_append] at hkept
      refine Or.inr ⟨⟨before, after, rfl, hclaimed, fun t ht => ?_⟩, ?_⟩
      · exact hkept t (List.mem_append_left _ ht)
      · have hstate : (gate ttlSeconds).final
            (cacheAfter ttlSeconds (before ++ [.claim packetHash instant])) after =
              cacheAfter ttlSeconds (before ++ .claim packetHash instant :: after) := by
          rw [cacheAfter, cacheAfter, ← Machine.final_append, List.append_assoc,
            List.singleton_append]
        rw [← hstate]
        exact hkept _ (List.mem_append_right _ List.mem_cons_self)
  · rintro (⟨rfl, hclaimed⟩ | ⟨⟨before, after, rfl, hclaimed, hkept⟩, hlast⟩)
    · exact ⟨calls, [], rfl, hclaimed, by simp⟩
    · refine ⟨before, after ++ [call], by simp, hclaimed, fun t ht => ?_⟩
      rw [Machine.transitions_append, List.mem_append] at ht
      rcases ht with ht | ht
      · exact hkept t ht
      · rw [Machine.transitions_cons, Machine.transitions_nil, List.mem_singleton] at ht
        rw [ht, cacheAfter, ← Machine.final_append, List.append_assoc, List.singleton_append]
        exact hlast

/-- **The cache holds the standing claims,** each with the instant of its claim. -/
theorem get_cacheAfter_iff :
    (cacheAfter ttlSeconds calls).get packetHash = some (packetHash, instant) ↔
      Stands ttlSeconds calls packetHash instant := by
  induction calls using List.reverseRecOn with
  | nil =>
    constructor
    · intro h
      cases h
    · rintro ⟨before, after, hcalls, -⟩
      simp at hcalls
  | append_singleton calls call ih =>
    rw [stands_concat, ← ih, cacheAfter_concat]
    generalize hseen : cacheAfter ttlSeconds calls = seen
    cases call with
    | claim other now =>
      rw [gate_next_claim, claimAfter_eq, hseen, GateCall.claim.injEq]
      simp only [removes, Machine.event_transition, and_true]
      cases hget : seen.get packetHash with
      | some entry =>
        obtain ⟨_, claimed⟩ := entry
        obtain rfl := KeyedMap.key_of_get hget
        rw [SeenCache.get_claim_of_get hget]
        simp [KeyedMap.has_of_get hget]
      | none =>
        have hnew := seen.has_eq_false_iff.mpr hget
        by_cases hsame : other = packetHash
        · rw [hsame, SeenCache.get_claim_of_new hnew]
          simp [hnew]
        · have hother : (seen.claim other now).2.get packetHash = none := by
            unfold SeenCache.claim
            split
            case isTrue => exact hget
            case isFalse => rw [KeyedMap.get_set, if_neg hsame, hget]
          simp [hother, hsame]
    | evictExpired now =>
      simp only [gate_next_evictExpired, reduceCtorEq, false_and, false_or, removes,
        Machine.event_transition, Machine.before_transition, Machine.after_transition]
      constructor
      · intro hafter
        have hbefore : seen.get packetHash = some (packetHash, instant) := by
          rw [SeenCache.get_evictExpired, Option.filter_eq_some_iff] at hafter
          exact hafter.1
        exact ⟨hbefore, by simp [KeyedMap.has_of_get hafter]⟩
      · rintro ⟨hbefore, hkept⟩
        have hhas : (seen.evictExpired ttlSeconds now).has packetHash = true := by
          simpa [KeyedMap.has_of_get hbefore] using hkept
        obtain ⟨entry, hafter⟩ := KeyedMap.has_iff_get _ |>.mp hhas
        have hsame := hafter
        rw [SeenCache.get_evictExpired, Option.filter_eq_some_iff, hbefore] at hsame
        rw [hafter, ← hsame.1]

/-- A claim in the cache stays there with its instant, or an eviction comes after the
retention time. -/
theorem get_final_or_evicted {seen : SeenCache}
    (h : seen.get packetHash = some (packetHash, instant)) :
    ((gate ttlSeconds).final seen calls).get packetHash = some (packetHash, instant) ∨
      ∃ now, .evictExpired now ∈ calls ∧ (instant : ℚ) < SeenCache.cutoff ttlSeconds now := by
  induction calls generalizing seen with
  | nil => exact Or.inl h
  | cons call calls ih =>
    rw [Machine.final_cons]
    have hstep : ((gate ttlSeconds).next seen call).get packetHash = some (packetHash, instant) ∨
        ∃ now, call = .evictExpired now ∧ (instant : ℚ) < SeenCache.cutoff ttlSeconds now := by
      cases call with
      | claim other now => exact Or.inl (SeenCache.get_claim_of_get h other now)
      | evictExpired now =>
        by_cases hrecent : SeenCache.cutoff ttlSeconds now ≤ instant
        · exact Or.inl (SeenCache.get_evictExpired_of_recent h hrecent)
        · exact Or.inr ⟨now, rfl, not_le.mp hrecent⟩
    rcases hstep with hkept | ⟨now, rfl, hexpired⟩
    · rcases ih hkept with hfinal | ⟨now, hmem, hexpired⟩
      · exact Or.inl hfinal
      · exact Or.inr ⟨now, List.mem_cons_of_mem _ hmem, hexpired⟩
    · exact Or.inr ⟨now, List.mem_cons_self, hexpired⟩

/-- A claim returns false exactly while an earlier one stands. -/
theorem claimAfter_eq_false_iff :
    claimAfter ttlSeconds calls packetHash now = false ↔
      ∃ instant, Stands ttlSeconds calls packetHash instant := by
  rw [claimAfter_eq, Bool.not_eq_false', KeyedMap.has_iff_get]
  simp only [← get_cacheAfter_iff]
  constructor
  · rintro ⟨⟨other, instant⟩, hget⟩
    obtain rfl := KeyedMap.key_of_get hget
    exact ⟨instant, hget⟩
  · rintro ⟨instant, hget⟩
    exact ⟨_, hget⟩

/-- An eviction leaves the standing claims that are not older than the retention time. -/
theorem mem_cacheAfter_evictExpired :
    (packetHash, instant) ∈ (cacheAfter ttlSeconds (calls ++ [.evictExpired now])).values ↔
      Stands ttlSeconds calls packetHash instant ∧ (now : ℚ) - ttlSeconds * 1000 ≤ instant := by
  have hvalues : (packetHash, instant) ∈
      (cacheAfter ttlSeconds (calls ++ [.evictExpired now])).values ↔
        (cacheAfter ttlSeconds (calls ++ [.evictExpired now])).get packetHash =
          some (packetHash, instant) := by
    rw [KeyedMap.get_eq_some_iff]
    simp
  rw [hvalues, cacheAfter_concat, gate_next_evictExpired, SeenCache.get_evictExpired,
    Option.filter_eq_some_iff, get_cacheAfter_iff, decide_eq_true_iff, SeenCache.cutoff]

/-- Between two successful claims of one hash an eviction has removed the first. -/
theorem exists_eviction {middle : List GateCall} {first second : ℤ}
    (hfirst : claimAfter ttlSeconds calls packetHash first = true)
    (hsecond : claimAfter ttlSeconds (calls ++ .claim packetHash first :: middle) packetHash second =
      true) :
    ∃ now, .evictExpired now ∈ middle ∧ (first : ℚ) < SeenCache.cutoff ttlSeconds now := by
  rw [claimAfter_eq, Bool.not_eq_true', KeyedMap.has_eq_false_iff] at hfirst hsecond
  have hclaimed : ((gate ttlSeconds).next (cacheAfter ttlSeconds calls)
      (.claim packetHash first)).get packetHash = some (packetHash, first) :=
    SeenCache.get_claim_of_new ((KeyedMap.has_eq_false_iff _).mpr hfirst) first
  rw [cacheAfter, Machine.final_append, Machine.final_cons] at hsecond
  rcases @get_final_or_evicted _ middle _ _ _ hclaimed with hkept | hevicted
  · rw [cacheAfter, hsecond] at hkept
    cases hkept
  · exact hevicted

end

/-- **A claim stands for the whole retention time.** In every run of a new service on
a clock that does not run backwards, two successful claims of one hash are more than
the retention time apart, with an eviction between them; a claim returns false exactly
while an earlier one stands; and an eviction leaves exactly the standing claims that
are not older than the retention time. -/
theorem claims_stand (ttlSeconds : ℚ) (calls : List GateCall)
    (hordered : (calls.map GateCall.reading).Pairwise (· ≤ ·)) :
    (∀ before packetHash (first : ℤ) middle (second : ℤ) after,
      calls = before ++ .claim packetHash first :: (middle ++ .claim packetHash second :: after) →
      claimAfter ttlSeconds before packetHash first = true →
      claimAfter ttlSeconds (before ++ .claim packetHash first :: middle) packetHash second = true →
        ttlSeconds * 1000 < (second : ℚ) - first ∧ ∃ now, .evictExpired now ∈ middle) ∧
    (∀ before packetHash now after, calls = before ++ .claim packetHash now :: after →
      (claimAfter ttlSeconds before packetHash now = false ↔
        ∃ instant, Stands ttlSeconds before packetHash instant)) ∧
    ∀ before (now : ℤ) after, calls = before ++ .evictExpired now :: after →
      ∀ packetHash (instant : ℤ),
        (packetHash, instant) ∈ (cacheAfter ttlSeconds (before ++ [.evictExpired now])).values ↔
          Stands ttlSeconds before packetHash instant ∧
            (now : ℚ) - ttlSeconds * 1000 ≤ instant := by
  refine ⟨?_, ?_, ?_⟩
  · rintro before packetHash first middle second after rfl hfirst hsecond
    obtain ⟨now, hmem, hexpired⟩ := exists_eviction hfirst hsecond
    -- The eviction is not later than the second claim.
    have hnow : now ≤ second := by
      simp only [List.map_append, List.map_cons, List.pairwise_append, List.pairwise_cons]
        at hordered
      exact hordered.2.1.2.2.2 now (List.mem_map_of_mem hmem) second List.mem_cons_self
    have hnow' : (now : ℚ) ≤ second := by exact_mod_cast hnow
    refine ⟨?_, now, hmem⟩
    rw [SeenCache.cutoff] at hexpired
    linarith
  · intro before packetHash now after _
    exact claimAfter_eq_false_iff
  · intro before now after _ packetHash instant
    exact mem_cacheAfter_evictExpired

/-- A second claim two seconds after the first, with a retention time of one second
and an eviction in between. -/
theorem claims_stand_twice :
    claimAfter 1 [.claim "c1" 0, .evictExpired 1001] "c1" 2000 = true ∧
      (1 : ℚ) * 1000 < ((2000 : ℤ) : ℚ) - (0 : ℤ) ∧
      ∃ now, GateCall.evictExpired now ∈ [GateCall.evictExpired 1001] := by
  have hagain : claimAfter 1 [.claim "c1" 0, .evictExpired 1001] "c1" 2000 = true := by
    decide +kernel
  obtain ⟨hapart, -⟩ := claims_stand 1 [.claim "c1" 0, .evictExpired 1001, .claim "c1" 2000]
    (by decide)
  exact ⟨hagain, hapart [] "c1" 0 [.evictExpired 1001] 2000 [] rfl (by decide +kernel) hagain⟩

end UpiOfflineMesh
