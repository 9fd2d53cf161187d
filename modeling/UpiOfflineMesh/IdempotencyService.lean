import UpiOfflineMesh.Js.KeyedMap
import Mathlib.Data.Rat.Cast.Order
import Mathlib.Tactic.Linarith

/-!
# The idempotency gate

The cache of claimed packet hashes of `src/services/idempotencyService.js`, with
the instant of each first claim. Evictions iterate over the map while deleting
from it; the result is the map without the entries that were too old.
-/

namespace UpiOfflineMesh

open Js

/-- Packet hash and instant of its first claim, in epoch milliseconds. -/
abbrev SeenEntry := String × ℤ

/-- The map `seen` of claimed hashes. -/
abbrev SeenCache := KeyedMap (Prod.fst : SeenEntry → String)

namespace SeenCache

/-- Tries to claim a packet hash: true for the first caller, false for a duplicate. -/
def claim (seen : SeenCache) (packetHash : String) (now : ℤ) : Bool × SeenCache :=
  if seen.has packetHash then (false, seen) else (true, seen.set (packetHash, now))

/-- A claimed hash keeps its instant, whoever claims next. -/
theorem get_claim_of_get {seen : SeenCache} {packetHash : String} {instant : ℤ}
    (h : seen.get packetHash = some (packetHash, instant)) (other : String) (now : ℤ) :
    (seen.claim other now).2.get packetHash = some (packetHash, instant) := by
  rw [claim]
  split
  case isTrue => exact h
  case isFalse hnew =>
    have hne : other ≠ packetHash := by
      rintro rfl
      exact hnew (KeyedMap.has_of_get h)
    rw [KeyedMap.get_set, if_neg hne, h]

/-- A new hash is claimed at the instant of the call. -/
theorem get_claim_of_new {seen : SeenCache} {packetHash : String}
    (h : seen.has packetHash = false) (now : ℤ) :
    (seen.claim packetHash now).2.get packetHash = some (packetHash, now) := by
  rw [claim, h]
  exact seen.get_set_self (packetHash, now)

/-- Claims older than this instant have expired. -/
def cutoff (ttlSeconds : ℚ) (now : ℤ) : ℚ := now - ttlSeconds * 1000

/-- Removes the entries older than the retention window, deleting while iterating. -/
def evictExpired (seen : SeenCache) (ttlSeconds : ℚ) (now : ℤ) : SeenCache :=
  seen.values.foldl
    (fun seen entry => if (entry.2 : ℚ) < cutoff ttlSeconds now then seen.delete entry.1 else seen)
    seen

/-- Deleting a list of expired entries keeps the lookups of all other hashes. -/
private theorem get_foldl_delete (ttlSeconds : ℚ) (now : ℤ) (entries : List SeenEntry)
    (seen : SeenCache) (packetHash : String) :
    (entries.foldl (fun seen entry =>
        if (entry.2 : ℚ) < cutoff ttlSeconds now then seen.delete entry.1 else seen) seen).get
      packetHash =
        if ∃ entry ∈ entries, entry.1 = packetHash ∧ (entry.2 : ℚ) < cutoff ttlSeconds now then none
        else seen.get packetHash := by
  induction entries generalizing seen with
  | nil => simp
  | cons entry entries ih =>
    rw [List.foldl_cons, ih]
    simp only [List.exists_mem_cons_iff]
    by_cases hrest : ∃ entry ∈ entries, entry.1 = packetHash ∧
        (entry.2 : ℚ) < cutoff ttlSeconds now
    · simp only [hrest, if_true, or_true]
    · by_cases hold : (entry.2 : ℚ) < cutoff ttlSeconds now
      · by_cases hkey : entry.1 = packetHash
        · simp [hkey, hold, KeyedMap.get_delete]
        · simp only [if_neg hrest, if_pos hold, KeyedMap.get_delete, hkey, false_and, false_or,
            if_neg (Ne.symm hkey)]
      · simp only [hold, and_false, false_or, if_false]

/-- **Eviction** forgets exactly the claims older than the retention window. -/
theorem get_evictExpired (seen : SeenCache) (ttlSeconds : ℚ) (now : ℤ) (packetHash : String) :
    (seen.evictExpired ttlSeconds now).get packetHash =
      (seen.get packetHash).filter (fun entry => cutoff ttlSeconds now ≤ entry.2) := by
  rw [evictExpired, get_foldl_delete]
  cases hget : seen.get packetHash with
  | none =>
    simp
  | some found =>
    obtain ⟨hmem, hkey⟩ := seen.get_eq_some_iff.mp hget
    by_cases hold : (found.2 : ℚ) < cutoff ttlSeconds now
    · rw [if_pos ⟨found, hmem, hkey, hold⟩]
      simp [Option.filter, hold]
    · have hnone : ¬∃ entry ∈ seen.values, entry.1 = packetHash ∧
          (entry.2 : ℚ) < cutoff ttlSeconds now := by
        rintro ⟨entry, hentry, hentryKey, hexpired⟩
        rw [seen.eq_of_key_eq hentry hmem (hentryKey.trans hkey.symm)] at hexpired
        exact hold hexpired
      rw [if_neg hnone]
      simp [Option.filter, not_lt.mp hold]

/-- A claim that is still in the cache after an eviction was there before it. -/
theorem has_of_has_evictExpired {seen : SeenCache} {ttlSeconds : ℚ} {now : ℤ} {packetHash : String}
    (h : (seen.evictExpired ttlSeconds now).has packetHash = true) :
    seen.has packetHash = true := by
  obtain ⟨entry, hget⟩ := KeyedMap.has_iff_get _ |>.mp h
  rw [get_evictExpired, Option.filter_eq_some_iff] at hget
  exact KeyedMap.has_of_get hget.1

/-- A claim within the retention window survives an eviction. -/
theorem get_evictExpired_of_recent {seen : SeenCache} {packetHash : String} {instant now : ℤ}
    {ttlSeconds : ℚ} (hget : seen.get packetHash = some (packetHash, instant))
    (hrecent : cutoff ttlSeconds now ≤ instant) :
    (seen.evictExpired ttlSeconds now).get packetHash = some (packetHash, instant) := by
  rw [get_evictExpired, hget]
  simp [Option.filter, hrecent]

/-- Deleting the expired ones of a list of entries keeps the other entries in their order. -/
private theorem values_foldl_delete (ttlSeconds : ℚ) (now : ℤ) (entries : List SeenEntry)
    (seen : SeenCache) :
    (entries.foldl (fun seen entry =>
        if (entry.2 : ℚ) < cutoff ttlSeconds now then seen.delete entry.1 else seen) seen).values =
      seen.values.filter fun v =>
        ¬∃ entry ∈ entries, entry.1 = v.1 ∧ (entry.2 : ℚ) < cutoff ttlSeconds now := by
  induction entries generalizing seen with
  | nil => simp
  | cons entry entries ih =>
    rw [List.foldl_cons, ih]
    by_cases hold : (entry.2 : ℚ) < cutoff ttlSeconds now
    · rw [if_pos hold, KeyedMap.delete, KeyedMap.values_filter, List.filter_filter]
      refine List.filter_congr fun v _ => ?_
      rw [Bool.eq_iff_iff, Bool.and_eq_true, decide_eq_true_iff, decide_eq_true_iff,
        decide_eq_true_iff, List.exists_mem_cons_iff, not_or]
      constructor
      · rintro ⟨hrest, hne⟩
        exact ⟨fun hsame => hne hsame.1.symm, hrest⟩
      · rintro ⟨hhead, hrest⟩
        exact ⟨hrest, fun heq => hhead ⟨heq.symm, hold⟩⟩
    · rw [if_neg hold]
      refine List.filter_congr fun v _ => ?_
      simp [hold]

/-- What an eviction leaves stays in its order. -/
theorem values_evictExpired (seen : SeenCache) (ttlSeconds : ℚ) (now : ℤ) :
    (seen.evictExpired ttlSeconds now).values =
      seen.values.filter fun entry => cutoff ttlSeconds now ≤ entry.2 := by
  rw [evictExpired, values_foldl_delete]
  refine List.filter_congr fun v hv => ?_
  rw [Bool.eq_iff_iff, decide_eq_true_iff, decide_eq_true_iff]
  constructor
  · intro hnone
    exact not_lt.mp fun hold => hnone ⟨v, hv, rfl, hold⟩
  · rintro hrecent ⟨entry, hentry, hkey, hold⟩
    rw [seen.eq_of_key_eq hentry hv hkey] at hold
    exact not_lt.mpr hrecent hold

end SeenCache

end UpiOfflineMesh
