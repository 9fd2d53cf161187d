import Mathlib.Algebra.BigOperators.Group.List.Basic
import Mathlib.Algebra.Order.BigOperators.Group.List
import Mathlib.Algebra.Order.Group.Defs
import Mathlib.Tactic.Abel

/-!
# Transfers between accounts

The purpose of the bank, without its database: balances in an additive group,
and payments that take an amount from one account and give it to another. The
balances after a list of payments depend only on what each account sent and
received, hence not on the order, and a sender whose payments together are
covered at the start covers each of them whenever it comes.
-/

namespace Transfers

universe u v

/-- A payment between two accounts. -/
structure Payment (ι : Type u) (M : Type v) where
  sender : ι
  receiver : ι
  amount : M

section

variable {ι : Type u} {M : Type v} [DecidableEq ι] [AddCommGroup M]

/-- The balances after one payment. -/
def Payment.apply (p : Payment ι M) (balance : ι → M) : ι → M := fun account =>
  balance account - (if p.sender = account then p.amount else 0) +
    (if p.receiver = account then p.amount else 0)

/-- What an account pays in a list of payments. -/
def sent (payments : List (Payment ι M)) (account : ι) : M :=
  (payments.map fun p => if p.sender = account then p.amount else 0).sum

/-- What an account is paid in a list of payments. -/
def received (payments : List (Payment ι M)) (account : ι) : M :=
  (payments.map fun p => if p.receiver = account then p.amount else 0).sum

/-- The balances after a list of payments. -/
def applyAll (payments : List (Payment ι M)) (balance : ι → M) : ι → M :=
  payments.foldl (fun b p => p.apply b) balance

@[simp] theorem sent_nil (account : ι) : sent ([] : List (Payment ι M)) account = 0 := rfl

@[simp] theorem received_nil (account : ι) : received ([] : List (Payment ι M)) account = 0 := rfl

@[simp] theorem sent_cons (p : Payment ι M) (payments : List (Payment ι M)) (account : ι) :
    sent (p :: payments) account =
      (if p.sender = account then p.amount else 0) + sent payments account := by
  simp [sent]

@[simp] theorem received_cons (p : Payment ι M) (payments : List (Payment ι M)) (account : ι) :
    received (p :: payments) account =
      (if p.receiver = account then p.amount else 0) + received payments account := by
  simp [received]

@[simp] theorem sent_append (first second : List (Payment ι M)) (account : ι) :
    sent (first ++ second) account = sent first account + sent second account := by
  simp [sent]

/-- Balances after payments are the old ones less what was sent plus what was received. -/
theorem applyAll_eq (payments : List (Payment ι M)) (balance : ι → M) (account : ι) :
    applyAll payments balance account =
      balance account - sent payments account + received payments account := by
  induction payments generalizing balance with
  | nil => simp [applyAll]
  | cons p payments ih =>
    have hstep : applyAll (p :: payments) balance = applyAll payments (p.apply balance) := rfl
    rw [hstep, ih, sent_cons, received_cons, Payment.apply]
    abel

theorem applyAll_append_singleton (payments : List (Payment ι M)) (p : Payment ι M)
    (balance : ι → M) : applyAll (payments ++ [p]) balance = p.apply (applyAll payments balance) := by
  simp [applyAll]

theorem sent_perm {first second : List (Payment ι M)} (h : first.Perm second) (account : ι) :
    sent first account = sent second account :=
  (h.map _).sum_eq

theorem received_perm {first second : List (Payment ι M)} (h : first.Perm second) (account : ι) :
    received first account = received second account :=
  (h.map _).sum_eq

/-- **Order does not matter:** rearranged payments lead to the same balances. -/
theorem applyAll_perm {first second : List (Payment ι M)} (h : first.Perm second)
    (balance : ι → M) : applyAll first balance = applyAll second balance := by
  funext account
  rw [applyAll_eq, applyAll_eq, sent_perm h, received_perm h]

end

section

variable {ι : Type u} {M : Type v} [DecidableEq ι] [AddCommGroup M] [PartialOrder M]
  [IsOrderedAddMonoid M]

theorem received_nonneg {payments : List (Payment ι M)} (h : ∀ p ∈ payments, 0 ≤ p.amount)
    (account : ι) : 0 ≤ received payments account := by
  apply List.sum_nonneg
  intro x hx
  obtain ⟨p, hp, rfl⟩ := List.mem_map.mp hx
  split
  · exact h p hp
  · exact le_rfl

theorem sent_nonneg {payments : List (Payment ι M)} (h : ∀ p ∈ payments, 0 ≤ p.amount)
    (account : ι) : 0 ≤ sent payments account := by
  apply List.sum_nonneg
  intro x hx
  obtain ⟨p, hp, rfl⟩ := List.mem_map.mp hx
  split
  · exact h p hp
  · exact le_rfl

/-- **Funding:** when the start covers all of a sender's payments, then after any
of them the balance still covers each one that has not been made. -/
theorem amount_le_applyAll {all made : List (Payment ι M)} {p : Payment ι M} {rest}
    (hsplit : all.Perm (made ++ p :: rest)) (hnonneg : ∀ q ∈ all, 0 ≤ q.amount) {balance : ι → M}
    (hfunded : sent all p.sender ≤ balance p.sender) :
    p.amount ≤ applyAll made balance p.sender := by
  have hmade : ∀ q ∈ made, 0 ≤ q.amount := fun q hq =>
    hnonneg q (hsplit.mem_iff.mpr (by simp [hq]))
  have hrest : ∀ q ∈ rest, 0 ≤ q.amount := fun q hq =>
    hnonneg q (hsplit.mem_iff.mpr (by simp [hq]))
  rw [sent_perm hsplit, sent_append, sent_cons, if_pos rfl] at hfunded
  rw [applyAll_eq]
  calc p.amount
      ≤ p.amount + sent rest p.sender + received made p.sender :=
        le_add_of_le_of_nonneg (le_add_of_nonneg_right (sent_nonneg hrest _))
          (received_nonneg hmade _)
    _ = sent made p.sender + (p.amount + sent rest p.sender) - sent made p.sender +
          received made p.sender := by abel
    _ ≤ balance p.sender - sent made p.sender + received made p.sender := by
        gcongr

end

end Transfers
