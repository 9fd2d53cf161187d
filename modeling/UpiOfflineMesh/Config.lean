import UpiOfflineMesh.ApiRoutes
import UpiOfflineMesh.ClaimWindow

/-!
# What the environment makes of the retention time

`src/config.js` reads the retention time with `parseInt` from the environment, so it is some
integer, with any sign, or `NaN`. The idempotency service computes with what it gets. With
an integer it does what it does for any retention time; a negative one empties the cache at
every cleanup; and `NaN` turns the cleanup off, since every comparison with it is false. From
more than 308 digits the language reads `Infinity`, with which nothing is evicted, as with
the integer that is read here.
-/

namespace UpiOfflineMesh

open Js

/-- The variables of the environment that are set. -/
abbrev Environment := String → Option String

/-- `parseInt(process.env.NAME || fallback, 10)`; `||` takes the fallback as for a header. -/
def Environment.int (env : Environment) (name fallback : String) : Number :=
  parseInt (headerOr (env name) fallback)

/-- What the idempotency service reads of `config`. -/
structure Config where
  idempotencyTtlSeconds : Number

/-- The configuration that an environment makes. -/
def config (env : Environment) : Config where
  idempotencyTtlSeconds := env.int "IDEMPOTENCY_TTL_SECONDS" "86400"

/-- Multiplication by a positive integer constant. -/
def timesNat (x : Number) (n : ℕ) : Number :=
  match x with
  | .fin q => .fin (q * n)
  | other => other

/-- `evictExpired` of a service that was made with any number. -/
def evictExpiredFor (seen : SeenCache) (ttlSeconds : Number) (now : ℤ) : SeenCache :=
  let cutoff := (Number.fin now).sub (timesNat ttlSeconds 1000)
  seen.values.foldl
    (fun seen entry => if (Number.fin entry.2).lt cutoff then seen.delete entry.1 else seen) seen

/-- The idempotency service with any number for its retention time. -/
def gateFor (ttlSeconds : Number) : Machine SeenCache GateCall (Option Bool) where
  step seen
    | .claim packetHash now =>
      let (first, seen) := seen.claim packetHash now
      (some first, seen)
    | .evictExpired now => (none, evictExpiredFor seen ttlSeconds now)

example : (config fun _ => none).idempotencyTtlSeconds = .fin 86400 := by decide +kernel

section

/-- A run of digits is an integer or nothing. -/
theorem scanDigits_cases (text : List Char) :
    scanDigits text = .nan ∨ ∃ n : ℤ, scanDigits text = .fin (n : ℚ) := by
  unfold scanDigits
  simp only
  split
  case isTrue => exact Or.inl rfl
  case isFalse => exact Or.inr ⟨(Nat.ofDigitChars 10 (text.takeWhile Char.isDigit) 0 : ℕ), rfl⟩

/-- So is what `parseInt` reads. -/
theorem parseInt_cases (text : String) :
    parseInt text = .nan ∨ ∃ n : ℤ, parseInt text = .fin (n : ℚ) := by
  unfold parseInt
  split
  case h_1 rest _ =>
    rcases scanDigits_cases rest with hnone | ⟨n, hdigits⟩
    · rw [hnone]
      exact Or.inl rfl
    · rw [hdigits]
      refine Or.inr ⟨-n, ?_⟩
      push_cast
      rfl
  case h_2 rest _ => exact scanDigits_cases rest
  case h_3 => exact scanDigits_cases _

/-- For an integer the general service is the one of the other results. -/
theorem gateFor_fin (q : ℚ) : gateFor (.fin q) = gate q := by
  have hevict : ∀ (seen : SeenCache) (now : ℤ),
      evictExpiredFor seen (.fin q) now = seen.evictExpired q now := by
    intro seen now
    unfold evictExpiredFor SeenCache.evictExpired SeenCache.cutoff
    simp only [timesNat, Number.sub_fin, Number.lt_fin, decide_eq_true_eq, Nat.cast_ofNat]
  unfold gateFor gate
  congr 1
  funext seen call
  cases call with
  | claim packetHash now => rfl
  | evictExpired now => simp only [hevict]

/-- With `NaN` nothing is evicted. -/
theorem evictExpiredFor_nan (seen : SeenCache) (now : ℤ) :
    evictExpiredFor seen .nan now = seen := by
  have hkeep : ∀ (entries : List SeenEntry) (seen : SeenCache), entries.foldl (fun seen entry =>
      if (Number.fin entry.2).lt ((Number.fin now).sub (timesNat .nan 1000)) then
        seen.delete entry.1 else seen) seen = seen := by
    intro entries
    induction entries with
    | nil => exact fun _ => rfl
    | cons entry entries ih => exact fun seen => ih seen
  exact hkeep seen.values seen

/-- With `NaN` the cache holds every hash that was ever claimed. -/
theorem has_final_gateFor_nan (calls : List GateCall) (packetHash : String) :
    ((gateFor .nan).final .empty calls).has packetHash = true ↔
      ∃ now, .claim packetHash now ∈ calls := by
  induction calls using List.reverseRecOn with
  | nil => simp
  | append_singleton calls call ih =>
    rw [Machine.final_append, Machine.final_cons, Machine.final_nil]
    generalize (gateFor .nan).final .empty calls = seen at ih ⊢
    cases call with
    | evictExpired now =>
      change (evictExpiredFor seen .nan now).has packetHash = true ↔ _
      rw [evictExpiredFor_nan, ih]
      simp
    | claim other now =>
      have hclaimed : (seen.claim other now).2.has packetHash =
          (decide (other = packetHash) || seen.has packetHash) := by
        unfold SeenCache.claim
        split
        case isFalse => exact KeyedMap.has_set _ _ _
        case isTrue hhas =>
          by_cases hsame : other = packetHash
          · rw [← hsame, hhas, Bool.or_true]
          · simp [hsame]
      change (seen.claim other now).2.has packetHash = true ↔ _
      rw [hclaimed, Bool.or_eq_true, decide_eq_true_iff, ih]
      simp only [List.mem_append, List.mem_singleton, GateCall.claim.injEq]
      constructor
      · rintro (rfl | ⟨earlier, hmem⟩)
        · exact ⟨now, Or.inr ⟨rfl, rfl⟩⟩
        · exact ⟨earlier, Or.inl hmem⟩
      · rintro ⟨earlier, hmem | ⟨rfl, -⟩⟩
        · exact Or.inr ⟨earlier, hmem⟩
        · exact Or.inl rfl

/-- No claim of a run is later than the calls to come. -/
theorem instants_le {ttlSeconds : ℚ} {calls : List GateCall} {now : ℤ}
    (hpast : ∀ call ∈ calls, call.reading ≤ now) :
    ∀ entry ∈ (cacheAfter ttlSeconds calls).values, entry.2 ≤ now := by
  rintro ⟨packetHash, instant⟩ hentry
  obtain ⟨before, after, rfl, -⟩ :=
    get_cacheAfter_iff.mp (KeyedMap.get_key_of_mem _ hentry)
  exact hpast (.claim packetHash instant) (by simp)

end

/-- **What the environment makes of the retention time.** In every run of a new service on
a clock that does not run backwards, for every text of the environment: either the text
gives an integer, and the service answers and ends as the one with that retention time,
where a negative one leaves an empty cache after every cleanup; or it gives `NaN`, and then
a claim returns true exactly when it is the first of its hash, whatever was cleaned up. -/
theorem retention_of_env (env : Environment) (calls : List GateCall)
    (hordered : (calls.map GateCall.reading).Pairwise (· ≤ ·)) :
    (∃ n : ℤ, (config env).idempotencyTtlSeconds = .fin (n : ℚ) ∧
      (gateFor (config env).idempotencyTtlSeconds).transitions .empty calls =
        (gate n).transitions .empty calls ∧
      (n < 0 → ∀ before now after, calls = before ++ .evictExpired now :: after →
        ((gateFor (config env).idempotencyTtlSeconds).final .empty
          (before ++ [.evictExpired now])).values = [])) ∨
    ((config env).idempotencyTtlSeconds = .nan ∧
      ∀ before packetHash now after, calls = before ++ .claim packetHash now :: after →
        ((((gateFor (config env).idempotencyTtlSeconds).final .empty before).claim packetHash
          now).1 = true ↔ ∀ earlier, .claim packetHash earlier ∉ before)) := by
  rcases parseInt_cases (headerOr (env "IDEMPOTENCY_TTL_SECONDS") "86400") with hread | ⟨n, hread⟩
  · have httl : (config env).idempotencyTtlSeconds = .nan := hread
    refine Or.inr ⟨httl, ?_⟩
    intro before packetHash now after _
    rw [httl]
    have hhas := has_final_gateFor_nan before packetHash
    generalize (gateFor .nan).final .empty before = seen at hhas ⊢
    rw [SeenCache.claim]
    cases hclaimed : seen.has packetHash with
    | true =>
      obtain ⟨earlier, hmem⟩ := hhas.mp hclaimed
      simp only [if_true, Bool.false_eq_true, false_iff, not_forall, not_not]
      exact ⟨earlier, hmem⟩
    | false =>
      simp only [Bool.false_eq_true, if_false, true_iff]
      intro earlier hmem
      have hseen := hhas.mpr ⟨earlier, hmem⟩
      simp [hclaimed] at hseen
  · have httl : (config env).idempotencyTtlSeconds = .fin (n : ℚ) := hread
    refine Or.inl ⟨n, httl, by rw [httl, gateFor_fin], ?_⟩
    rintro hnegative before now after rfl
    rw [httl, gateFor_fin]
    change (cacheAfter n (before ++ [.evictExpired now])).values = []
    rw [cacheAfter_concat, gate_next_evictExpired, SeenCache.values_evictExpired,
      List.filter_eq_nil_iff]
    intro entry hentry
    have hpast : ∀ call ∈ before, call.reading ≤ now := by
      intro call hcall
      rw [List.map_append, List.map_cons, List.pairwise_append] at hordered
      exact hordered.2.2 _ (List.mem_map_of_mem hcall) now List.mem_cons_self
    have hinstant : (entry.2 : ℚ) ≤ now := by exact_mod_cast instants_le hpast entry hentry
    have hnegative' : (n : ℚ) < 0 := by exact_mod_cast hnegative
    rw [decide_eq_true_iff, SeenCache.cutoff, not_le]
    linarith

/-- A negative retention time, and a text that is no number. -/
theorem retention_of_env_twoTexts :
    ((config fun _ => some "-5").idempotencyTtlSeconds = .fin ((-5 : ℤ) : ℚ) ∧
      ((gateFor (config fun _ => some "-5").idempotencyTtlSeconds).final .empty
        [.claim "c1" 1000, .evictExpired 1001]).values = []) ∧
    (config fun _ => some "one day").idempotencyTtlSeconds = .nan := by
  have hnegative : (config fun _ => some "-5").idempotencyTtlSeconds = .fin ((-5 : ℤ) : ℚ) := by
    decide +kernel
  refine ⟨⟨hnegative, ?_⟩, by decide +kernel⟩
  rcases retention_of_env (fun _ => some "-5") [.claim "c1" 1000, .evictExpired 1001] (by decide)
    with ⟨n, httl, -, hempty⟩ | ⟨hnan, -⟩
  · rw [hnegative, Number.fin.injEq, Int.cast_inj] at httl
    exact hempty (by omega) [.claim "c1" 1000] 1001 [] rfl
  · rw [hnegative] at hnan
    cases hnan

end UpiOfflineMesh
