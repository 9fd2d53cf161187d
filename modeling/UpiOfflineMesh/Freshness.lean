import UpiOfflineMesh.Recording

/-!
# Freshness of the recorded rows

The freshness check reads `signedAt` as an operand, the ledger row as a date. On
numbers and on the other scalars the two readings agree. A text that is no number
has an age that is `NaN`, passes both comparisons, and is then recorded with
whatever instant it names.
-/

namespace UpiOfflineMesh

open Js InMemoryDb

namespace Backend

/-- Both windows are whole numbers of milliseconds. The configuration has whole
numbers of seconds. -/
def WholeWindows (backend : Backend) : Prop :=
  ∃ maxAge skew : ℤ, backend.maxAgeSeconds * 1000 = maxAge ∧
    backend.clockSkewTolerance * 1000 = skew

section

variable {backend : Backend} {now : ℤ} {instruction : PaymentInstruction}

/-- Dropping the fraction of a millisecond does not leave a whole window. -/
theorem InWindow.truncate (hwhole : backend.WholeWindows) {t : ℚ} (h : backend.InWindow now t) :
    backend.InWindow now (Js.truncate t) := by
  obtain ⟨maxAge, skew, hmaxAge, hskew⟩ := hwhole
  rw [InWindow, hmaxAge, hskew] at h ⊢
  have hlower : ((now - maxAge : ℤ) : ℚ) ≤ t := by
    push_cast
    exact h.1
  have hupper : t ≤ ((now + skew : ℤ) : ℚ) := by
    push_cast
    exact h.2
  obtain ⟨hge, hle⟩ := truncate_mem_of_intCast_le hlower hupper
  exact ⟨by exact_mod_cast hge, by exact_mod_cast hle⟩

end

end Backend

end UpiOfflineMesh
