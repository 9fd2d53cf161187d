import Mathlib.Algebra.BigOperators.Ring.Finset
import Mathlib.Data.ENat.Basic
import UpiOfflineMesh.Machine

/-!
# A bank with whole balances

What a settlement server is for, in its own terms. Accounts hold whole amounts, and an
order moves a whole amount from its payer, who has to have it, to its payee. It comes under
a key, which its first delivery claims; a key in the ledger is not executed again. Whatever
is delivered, the total of all balances stays as it is.
-/

universe u v

namespace Bank

/-- Who pays whom how much; an infinite amount is one that nobody has. -/
structure Order (α : Type u) where
  payer : α
  payee : α
  amount : ℕ∞

/-- The books: the balance of each account there is, the keys of the executed orders with
whether they were paid, and the claimed keys with the instants of their claims. -/
structure Books (α : Type u) (κ : Type v) where
  balance : α → Option ℕ
  ledger : List (κ × Bool)
  claims : κ → Option ℤ

/-- What can happen to the bank. -/
inductive Request (α : Type u) (κ : Type v) where
  /-- A key is delivered, with an order if it opens to one. -/
  | deliver (key : κ) (instant : ℤ) (order : Option (Order α))
  /-- The claims from these instants are given up. -/
  | forget (expired : ℤ → Bool)

/-- How a delivery ends. -/
inductive Answer where
  | dropped
  | refused
  | declined
  | paid
  deriving DecidableEq

variable {α : Type u} {κ : Type v} [DecidableEq α] [DecidableEq κ]

namespace Books

/-- The books after a payment between these balances. -/
def move (books : Books α κ) (order : Order α) (available held : ℕ) : Books α κ :=
  let debited := Function.update books.balance order.payer (some (available - order.amount.toNat))
  { books with balance := Function.update debited order.payee (some (held + order.amount.toNat)) }

/-- The books with one more entry in the ledger. -/
def enter (books : Books α κ) (key : κ) (paid : Bool) : Books α κ :=
  { books with ledger := books.ledger ++ [(key, paid)] }

/-- The books with a claimed key. -/
def claim (books : Books α κ) (key : κ) (instant : ℤ) : Books α κ :=
  { books with claims := Function.update books.claims key (some instant) }

/-- Executes an order. An account cannot pay itself. -/
def execute (books : Books α κ) (key : κ) (order : Order α) : Answer × Books α κ :=
  if key ∈ books.ledger.map Prod.fst then (.refused, books)
  else
    match books.balance order.payer, books.balance order.payee with
    | some available, some held =>
      if (available : ℕ∞) < order.amount then (.declined, books.enter key false)
      else if order.payer = order.payee then (.refused, books)
      else (.paid, (books.move order available held).enter key true)
    | _, _ => (.refused, books)

/-- Takes in a delivery. -/
def deliver (books : Books α κ) (key : κ) (instant : ℤ) (order : Option (Order α)) :
    Answer × Books α κ :=
  if (books.claims key).isSome then (.dropped, books)
  else
    match order with
    | none => (.refused, books.claim key instant)
    | some order => (books.claim key instant).execute key order

/-- Gives up the claims from these instants. -/
def forget (books : Books α κ) (expired : ℤ → Bool) : Books α κ :=
  { books with claims := fun key => (books.claims key).filter fun instant => !expired instant }

/-- These are the accounts of the bank. -/
def Over (books : Books α κ) (accounts : Finset α) : Prop :=
  ∀ account, (books.balance account).isSome ↔ account ∈ accounts

/-- What these accounts hold together. -/
def total (books : Books α κ) (accounts : Finset α) : ℕ :=
  ∑ account ∈ accounts, (books.balance account).getD 0

end Books

/-- The bank as a machine; only deliveries are answered. -/
def machine : Machine (Books α κ) (Request α κ) (Option Answer) where
  step books
    | .deliver key instant order =>
      let (answer, books) := books.deliver key instant order
      (some answer, books)
    | .forget expired => (none, books.forget expired)

section

variable {books : Books α κ} {accounts : Finset α} {order : Order α} {available held : ℕ}

/-! ### What a delivery can do -/

theorem deliver_of_claimed {key : κ} {instant : ℤ} {order : Option (Order α)}
    (h : (books.claims key).isSome = true) :
    books.deliver key instant order = (.dropped, books) := by
  unfold Books.deliver
  rw [if_pos h]

theorem deliver_none {key : κ} {instant : ℤ} (h : (books.claims key).isSome = false) :
    books.deliver key instant none = (.refused, books.claim key instant) := by
  unfold Books.deliver
  rw [h, if_neg Bool.false_ne_true]

theorem deliver_some {key : κ} {instant : ℤ} (h : (books.claims key).isSome = false) :
    books.deliver key instant (some order) = (books.claim key instant).execute key order := by
  unfold Books.deliver
  rw [h, if_neg Bool.false_ne_true]

/-- An execution is refused, or it enters the key as declined or as paid. -/
inductive Executed (books : Books α κ) (key : κ) (order : Order α) : Answer × Books α κ → Prop
  | refused : Executed books key order (.refused, books)
  | declined : Executed books key order (.declined, books.enter key false)
  | paid (available held : ℕ) (hpayer : books.balance order.payer = some available)
      (hpayee : books.balance order.payee = some held) (hne : order.payer ≠ order.payee)
      (hamount : order.amount ≤ available) :
      Executed books key order (.paid, (books.move order available held).enter key true)

theorem executed (books : Books α κ) (key : κ) (order : Order α) :
    Executed books key order (books.execute key order) := by
  unfold Books.execute
  split
  case isTrue => exact .refused
  case isFalse =>
    split
    case h_1 available held hpayer hpayee =>
      split
      case isTrue => exact .declined
      case isFalse hamount =>
        split
        case isTrue => exact .refused
        case isFalse hne => exact .paid available held hpayer hpayee hne (not_lt.mp hamount)
    case h_2 => exact .refused

/-- A new order between two accounts that the payer does not cover. -/
theorem execute_declined {key : κ} (hnew : key ∉ books.ledger.map Prod.fst)
    (hpayer : books.balance order.payer = some available)
    (hpayee : books.balance order.payee = some held) (hamount : (available : ℕ∞) < order.amount) :
    books.execute key order = (.declined, books.enter key false) := by
  rw [Books.execute, if_neg hnew, hpayer, hpayee]
  exact if_pos hamount

/-- A new order between two accounts that the payer covers. -/
theorem execute_paid {key : κ} (hnew : key ∉ books.ledger.map Prod.fst)
    (hpayer : books.balance order.payer = some available)
    (hpayee : books.balance order.payee = some held) (hamount : ¬(available : ℕ∞) < order.amount)
    (hne : order.payer ≠ order.payee) :
    books.execute key order = (.paid, (books.move order available held).enter key true) := by
  rw [Books.execute, if_neg hnew, hpayer, hpayee]
  exact (if_neg hamount).trans (if_neg hne)

/-- Every other order is refused. -/
theorem execute_refused {key : κ} (hwhy : key ∉ books.ledger.map Prod.fst → ∀ available held,
    books.balance order.payer = some available → books.balance order.payee = some held →
      ¬(available : ℕ∞) < order.amount ∧ order.payer = order.payee) :
    books.execute key order = (.refused, books) := by
  unfold Books.execute
  split
  case isTrue => rfl
  case isFalse hnew =>
    split
    case h_1 available held hpayer hpayee =>
      obtain ⟨hamount, hsame⟩ := hwhy hnew available held hpayer hpayee
      rw [if_neg hamount, if_pos hsame]
    case h_2 => rfl

/-! ### The total -/

omit [DecidableEq κ] in
theorem balance_move (account : α) : (books.move order available held).balance account =
    if account = order.payee then some (held + order.amount.toNat)
    else if account = order.payer then some (available - order.amount.toNat)
    else books.balance account := by
  simp only [Books.move, Function.update_apply]

omit [DecidableEq κ] in
/-- A covered payment between two accounts gives what it takes. -/
theorem total_move (hpayer : books.balance order.payer = some available)
    (hpayee : books.balance order.payee = some held) (hne : order.payer ≠ order.payee)
    (hamount : order.amount ≤ available) (hover : books.Over accounts) :
    (books.move order available held).Over accounts ∧
      (books.move order available held).total accounts = books.total accounts := by
  have hmem : order.payer ∈ accounts := (hover _).mp (by rw [hpayer]; rfl)
  have hmem' : order.payee ∈ accounts := (hover _).mp (by rw [hpayee]; rfl)
  constructor
  · intro account
    rw [balance_move]
    split
    case isTrue heq => simp [heq, hmem']
    case isFalse =>
      split
      case isTrue heq => simp [heq, hmem]
      case isFalse => exact hover account
  · have hcovers : order.amount.toNat ≤ available := ENat.toNat_le_of_le_natCast hamount
    have hsplit : ∀ b : Books α κ, b.total accounts =
        (b.balance order.payer).getD 0 + ((b.balance order.payee).getD 0 +
          ∑ account ∈ (accounts.erase order.payer).erase order.payee,
            (b.balance account).getD 0) := by
      intro b
      rw [Finset.add_sum_erase _ (fun account => (b.balance account).getD 0)
        (Finset.mem_erase.mpr ⟨hne.symm, hmem'⟩),
        Finset.add_sum_erase _ (fun account => (b.balance account).getD 0) hmem, Books.total]
    have hothers : ∑ account ∈ (accounts.erase order.payer).erase order.payee,
        ((books.move order available held).balance account).getD 0 =
          ∑ account ∈ (accounts.erase order.payer).erase order.payee,
            (books.balance account).getD 0 := by
      refine Finset.sum_congr rfl fun account haccount => ?_
      obtain ⟨hpayee', hrest⟩ := Finset.mem_erase.mp haccount
      rw [balance_move, if_neg hpayee', if_neg (Finset.mem_erase.mp hrest).1]
    rw [hsplit books, hsplit (books.move order available held), hothers, balance_move, balance_move,
      if_neg hne, if_pos rfl, if_pos rfl, hpayer, hpayee]
    simp only [Option.getD_some]
    omega

/-- A step keeps the accounts and their total. -/
theorem total_next (hover : books.Over accounts) (request : Request α κ) :
    (machine.next books request).Over accounts ∧
      (machine.next books request).total accounts = books.total accounts := by
  cases request with
  | forget expired => exact ⟨hover, rfl⟩
  | deliver key instant order =>
    simp only [Machine.next, machine]
    cases hclaimed : (books.claims key).isSome with
    | true =>
      rw [deliver_of_claimed hclaimed]
      exact ⟨hover, rfl⟩
    | false =>
      cases order with
      | none =>
        rw [deliver_none hclaimed]
        exact ⟨hover, rfl⟩
      | some order =>
        rw [deliver_some hclaimed]
        have hexecuted := executed (books.claim key instant) key order
        generalize (books.claim key instant).execute key order = result at hexecuted ⊢
        cases hexecuted with
        | refused => exact ⟨hover, rfl⟩
        | declined => exact ⟨hover, rfl⟩
        | paid available held hpayer hpayee hne hamount =>
          exact total_move hpayer hpayee hne hamount hover

end

/-- **The total over a run.** Whatever is delivered and forgotten, the total stays. -/
theorem total_final {books : Books α κ} {accounts : Finset α} (hover : books.Over accounts)
    (requests : List (Request α κ)) :
    (machine.final books requests).total accounts = books.total accounts := by
  have hstep : ∀ (current : Books α κ) (request : Request α κ),
      (current.Over accounts ∧ current.total accounts = books.total accounts) →
        (machine.next current request).Over accounts ∧
          (machine.next current request).total accounts = books.total accounts := by
    rintro current request ⟨hcurrent, htotal⟩
    obtain ⟨hnext, hkept⟩ := total_next hcurrent request
    exact ⟨hnext, hkept.trans htotal⟩
  exact (Machine.invariant_all hstep ⟨hover, rfl⟩ requests).2

end Bank
