import Mathlib.Algebra.Order.Floor.Ring
import Mathlib.Data.Rat.Floor
import Mathlib.Tactic.FieldSimp
import Mathlib.Tactic.Linarith
import Mathlib.Tactic.Push

/-!
# JavaScript numbers as exact rationals

A number is an exact rational, `NaN` or one of the two infinities. Every double but
`-0` is one of them, and comparisons of doubles are those here. The operations are
the exact ones; `Binary64` and `Arithmetic` round their results. `toFixed(2)` takes
a finite number to the nearest hundredth with ties going up, and prints two decimals.
-/

namespace Js

/-- A rational or a special value of JavaScript, without signed zero. -/
inductive Number where
  | nan
  | negInfinity
  | infinity
  | fin (q : ℚ)
  deriving DecidableEq, Repr

namespace Number

instance : Inhabited Number := ⟨nan⟩

/-- Unary minus. -/
def neg : Number → Number
  | nan => nan
  | negInfinity => infinity
  | infinity => negInfinity
  | fin q => fin (-q)

/-- The operator `+` on numbers. -/
def add : Number → Number → Number
  | nan, _ => nan
  | _, nan => nan
  | fin a, fin b => fin (a + b)
  | infinity, negInfinity => nan
  | negInfinity, infinity => nan
  | infinity, _ => infinity
  | _, infinity => infinity
  | negInfinity, _ => negInfinity
  | _, negInfinity => negInfinity

/-- The operator `-` on numbers. -/
def sub (x y : Number) : Number := x.add y.neg

/-- Division by a positive integer constant. -/
def divNat (x : Number) (d : ℕ) : Number :=
  match x with
  | fin q => fin (q / d)
  | other => other

/-- The operator `<`; every comparison with `NaN` is false. -/
def lt : Number → Number → Bool
  | nan, _ => false
  | _, nan => false
  | fin a, fin b => decide (a < b)
  | negInfinity, negInfinity => false
  | negInfinity, _ => true
  | fin _, infinity => true
  | fin _, negInfinity => false
  | infinity, _ => false

/-- The operator `<=`; false when either side is `NaN`. -/
def le (x y : Number) : Bool := x ≠ nan && y ≠ nan && !y.lt x

/-- `isNaN(x)`. -/
def isNaN (x : Number) : Bool := x = nan

/-- The rational behind a finite number, zero for the others. -/
def toRat : Number → ℚ
  | fin q => q
  | _ => 0

@[simp] theorem toRat_fin (q : ℚ) : (fin q).toRat = q := rfl

@[simp] theorem add_fin (a b : ℚ) : (fin a).add (fin b) = fin (a + b) := rfl

@[simp] theorem sub_fin (a b : ℚ) : (fin a).sub (fin b) = fin (a - b) := by
  simp [sub, neg, add, sub_eq_add_neg]

@[simp] theorem sub_zero (x : Number) : x.sub (fin 0) = x := by
  cases x with
  | fin a => simp
  | _ => rfl

/-- Subtracting two finite numbers one after the other subtracts their sum. -/
theorem sub_sub (x : Number) (a b : ℚ) : (x.sub (fin a)).sub (fin b) = x.sub (fin (a + b)) := by
  cases x with
  | fin q => simp [sub_add_eq_sub_sub]
  | _ => rfl

@[simp] theorem divNat_fin (a : ℚ) (d : ℕ) : (fin a).divNat d = fin (a / d) := rfl

@[simp] theorem lt_fin (a b : ℚ) : (fin a).lt (fin b) = decide (a < b) := rfl

@[simp] theorem le_fin (a b : ℚ) : (fin a).le (fin b) = decide (a ≤ b) := by
  simp only [le, ne_eq, reduceCtorEq, not_false_eq_true, decide_true, Bool.true_and, lt_fin,
    ← not_lt, decide_not]

@[simp] theorem isNaN_fin (a : ℚ) : (fin a).isNaN = false := rfl

/-- A number that is neither `NaN` nor at most zero, and that a finite number
is not below, is finite and positive: the guards of a payment amount. -/
theorem exists_fin_of_guards {x : Number} {b : ℚ} (hnan : x.isNaN = false)
    (hpos : x.le (fin 0) = false) (hcovered : (fin b).lt x = false) :
    ∃ a : ℚ, x = fin a ∧ 0 < a ∧ a ≤ b := by
  cases x with
  | nan => simp [isNaN] at hnan
  | negInfinity => simp [le, lt] at hpos
  | infinity => simp [lt] at hcovered
  | fin a =>
    simp only [le_fin, decide_eq_false_iff_not, not_le] at hpos
    simp only [lt_fin, decide_eq_false_iff_not, not_lt] at hcovered
    exact ⟨a, rfl, hpos, hcovered⟩

/-! ### Rounding to hundredths -/

/-- The integer number of hundredths nearest to a nonnegative rational, the
larger one of two that are equally near. -/
def roundHundredths (q : ℚ) : ℕ := ⌊q * 100 + 1 / 2⌋.toNat

/-- A whole number of hundredths rounds to itself. -/
@[simp] theorem roundHundredths_div (n : ℕ) : roundHundredths ((n : ℚ) / 100) = n := by
  have hfloor : ⌊(n : ℚ) / 100 * 100 + 1 / 2⌋ = (n : ℤ) := by
    rw [Int.floor_eq_iff]
    push_cast
    constructor
    · linarith
    · linarith
  rw [roundHundredths, hfloor, Int.toNat_natCast]

/-- Adding a nonnegative amount to whole hundredths rounds the amount alone. -/
theorem roundHundredths_add {n : ℕ} {a : ℚ} (ha : 0 ≤ a) :
    roundHundredths ((n : ℚ) / 100 + a) = n + roundHundredths a := by
  have hfloor : ⌊((n : ℚ) / 100 + a) * 100 + 1 / 2⌋ = (n : ℤ) + ⌊a * 100 + 1 / 2⌋ := by
    rw [← Int.floor_natCast_add]
    congr 1
    ring
  have hnonneg : 0 ≤ ⌊a * 100 + 1 / 2⌋ := Int.floor_nonneg.mpr (by linarith)
  rw [roundHundredths, roundHundredths, hfloor]
  omega

/-- Subtracting a covered amount from whole hundredths takes off the amount
rounded with ties going *down*: the tie favours the balance that remains. -/
theorem roundHundredths_sub {n : ℕ} {a : ℚ} (ha : a ≤ (n : ℚ) / 100) :
    (roundHundredths ((n : ℚ) / 100 - a) : ℤ) = (n : ℤ) - ⌈a * 100 - 1 / 2⌉ := by
  have hfloor : ⌊((n : ℚ) / 100 - a) * 100 + 1 / 2⌋ = (n : ℤ) - ⌈a * 100 - 1 / 2⌉ := by
    have hneg : (n : ℤ) - ⌈a * 100 - 1 / 2⌉ = (n : ℤ) + ⌊-(a * 100 - 1 / 2)⌋ := by
      rw [Int.floor_neg]
      ring
    rw [hneg, ← Int.floor_natCast_add]
    congr 1
    ring
  have hnonneg : 0 ≤ ⌊((n : ℚ) / 100 - a) * 100 + 1 / 2⌋ := Int.floor_nonneg.mpr (by linarith)
  rw [roundHundredths, Int.toNat_of_nonneg hnonneg, hfloor]

/-- A whole number of hundredths. -/
def IsHundredths (q : ℚ) : Prop := ∃ k : ℤ, q = k / 100

theorem isHundredths_natCast_div (n : ℕ) : IsHundredths ((n : ℚ) / 100) := ⟨n, by push_cast; rfl⟩

theorem IsHundredths.add {p q : ℚ} (hp : IsHundredths p) (hq : IsHundredths q) :
    IsHundredths (p + q) := by
  obtain ⟨k, rfl⟩ := hp
  obtain ⟨l, rfl⟩ := hq
  exact ⟨k + l, by push_cast; ring⟩

theorem IsHundredths.sub {p q : ℚ} (hp : IsHundredths p) (hq : IsHundredths q) :
    IsHundredths (p - q) := by
  obtain ⟨k, rfl⟩ := hp
  obtain ⟨l, rfl⟩ := hq
  exact ⟨k - l, by push_cast; ring⟩

/-- Rounding leaves whole hundredths alone. -/
theorem IsHundredths.roundHundredths_div {q : ℚ} (h : IsHundredths q) (hnonneg : 0 ≤ q) :
    (roundHundredths q : ℚ) / 100 = q := by
  obtain ⟨k, rfl⟩ := h
  have hk : (0 : ℚ) ≤ k := by linarith
  obtain ⟨n, rfl⟩ := Int.eq_ofNat_of_zero_le (by exact_mod_cast hk : 0 ≤ k)
  rw [Int.cast_natCast, Number.roundHundredths_div]

/-- Half-way between two hundredths: the only amounts that round differently
up and down. -/
def IsHalfHundredth (a : ℚ) : Prop := ∃ k : ℤ, a * 100 = k + 1 / 2

instance (a : ℚ) : Decidable (IsHalfHundredth a) :=
  decidable_of_iff ((⌊a * 100⌋ : ℚ) + 1 / 2 = a * 100) (by
    constructor
    · intro h
      exact ⟨⌊a * 100⌋, h.symm⟩
    · rintro ⟨k, hk⟩
      have hfloor : ⌊a * 100⌋ = k := by
        rw [Int.floor_eq_iff, hk]
        constructor
        · linarith
        · linarith
      rw [hfloor, hk])

/-- Rounding with ties up and with ties down differ by one exactly on the
half-way amounts, and agree on all others. -/
theorem floor_add_half (a : ℚ) :
    ⌊a * 100 + 1 / 2⌋ = ⌈a * 100 - 1 / 2⌉ + if IsHalfHundredth a then 1 else 0 := by
  split
  case isTrue h =>
    obtain ⟨k, hk⟩ := h
    have hfloor : ⌊a * 100 + 1 / 2⌋ = k + 1 := by
      rw [hk, show (k : ℚ) + 1 / 2 + 1 / 2 = ((k + 1 : ℤ) : ℚ) by push_cast; ring, Int.floor_intCast]
    have hceil : ⌈a * 100 - 1 / 2⌉ = k := by
      rw [hk, show (k : ℚ) + 1 / 2 - 1 / 2 = (k : ℚ) by ring, Int.ceil_intCast]
    rw [hfloor, hceil]
  case isFalse h =>
    have hlower := Int.lt_floor_add_one (a * 100 + 1 / 2)
    have hupper := Int.floor_le (a * 100 + 1 / 2)
    have hne : (⌊a * 100 + 1 / 2⌋ : ℚ) ≠ a * 100 + 1 / 2 := by
      intro heq
      refine h ⟨⌊a * 100 + 1 / 2⌋ - 1, ?_⟩
      push_cast
      linarith
    rw [add_zero, eq_comm, Int.ceil_eq_iff]
    constructor
    · linarith [lt_of_le_of_ne hupper hne]
    · linarith

/-! ### `toFixed(2)` -/

/-- `n` hundredths printed with two decimals. -/
def fixedText (n : ℕ) : String :=
  (n / 100).repr ++ "." ++ (n / 10 % 10).repr ++ (n % 10).repr

/-- `x.toFixed(2)`. From `10 ^ 21` on the language writes the number with an exponent instead,
which `Arithmetic` adds; the decimals here are read as the same number. -/
def toFixed2 : Number → String
  | nan => "NaN"
  | infinity => "Infinity"
  | negInfinity => "-Infinity"
  | fin q => if q < 0 then "-" ++ fixedText (roundHundredths (-q)) else fixedText (roundHundredths q)

theorem toFixed2_of_nonneg {q : ℚ} (h : 0 ≤ q) :
    (fin q).toFixed2 = fixedText (roundHundredths q) := by
  simp [toFixed2, not_lt.mpr h]

@[simp] theorem toFixed2_hundredths (n : ℕ) : (fin ((n : ℚ) / 100)).toFixed2 = fixedText n := by
  rw [toFixed2_of_nonneg (by positivity), roundHundredths_div]

example : (fin (1 / 8)).toFixed2 = "0.13" := by decide +kernel

end Number

end Js
