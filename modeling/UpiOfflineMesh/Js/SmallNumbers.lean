import UpiOfflineMesh.Js.Arithmetic

/-!
# Small numbers in binary64

Integers of 53 bits are doubles. Up to `2 ^ 38` a double is so close to the number it stands
for that nothing of two decimals is lost: hundredths keep their order, and the double of a sum
or a difference of two of them is printed with the two decimals of the exact one.
-/

namespace Js

/-- A number of whole hundredths up to `2 ^ 36`, if it is finite. -/
def Number.SmallHundredths (x : Number) : Prop :=
  ∀ q, x = .fin q → Number.IsHundredths q ∧ |q| ≤ 2 ^ 36

/-- A number of whole milliseconds up to `2 ^ 51`, if it is finite. -/
def Number.SmallInstant (x : Number) : Prop := ∀ t, x = .fin t → ∃ k : ℤ, t = k ∧ |k| ≤ 2 ^ 51

/-- Half of the least bit is next to nothing. -/
theorem half_leastBit_le : (2 : ℚ) ^ (-1075 : ℤ) ≤ 1 / 32768 :=
  (zpow_le_zpow_right₀ (by norm_num) (by norm_num : (-1075 : ℤ) ≤ -15)).trans (by norm_num)

/-- Numbers up to `2 ^ 53` do not overflow. -/
theorem toDouble_fin {q : ℚ} (h : |q| ≤ 2 ^ 53) : (Number.fin q).toDouble = .fin (roundDouble q) := by
  have herror : |roundDouble q - q| ≤ 1 := by
    refine (abs_roundDouble_sub_le_max q).trans
      (max_le ?_ (half_leastBit_le.trans (by norm_num)))
    calc |q| * 2 ^ (-53 : ℤ) ≤ 2 ^ 53 * 2 ^ (-53 : ℤ) := by gcongr
      _ = 1 := by norm_num
  have hsplit : |roundDouble q| ≤ |roundDouble q - q| + |q| := by
    simpa using abs_add_le (roundDouble q - q) q
  refine if_pos (lt_of_le_of_lt (b := (2 : ℚ) ^ 54) ?_
    (pow_lt_pow_right₀ (by norm_num) (by norm_num)))
  linarith

/-! ### Integers -/

/-- An integer of at most 53 bits is a double. -/
theorem roundDouble_intCast {k : ℤ} (h : |k| < 2 ^ 53) : roundDouble k = k := by
  by_cases hzero : k = 0
  · rw [hzero, Int.cast_zero, roundDouble_zero]
  have hpos : (0 : ℚ) < |(k : ℚ)| := abs_pos.mpr (by exact_mod_cast hzero)
  have hlog : Int.log 2 |(k : ℚ)| < 53 := by
    rw [← Int.lt_zpow_iff_log_lt (by norm_num) hpos]
    exact_mod_cast h
  obtain ⟨j, hj⟩ : ∃ j : ℕ, lastBit k = -(j : ℤ) :=
    Int.exists_eq_neg_ofNat (max_le (by omega) (by norm_num))
  have hscaled : (k : ℚ) / 2 ^ lastBit k = ((k * 2 ^ j : ℤ) : ℚ) := by
    rw [hj, zpow_neg, zpow_natCast, div_inv_eq_mul]
    push_cast
    rfl
  have hbit : (2 : ℚ) ^ lastBit k ≠ 0 := by positivity
  rw [roundDouble, hscaled, roundEven_intCast, ← hscaled, div_mul_cancel₀ _ hbit]

theorem toDouble_intCast {k : ℤ} (h : |k| < 2 ^ 53) :
    (Number.fin (k : ℚ)).toDouble = .fin (k : ℚ) := by
  have hsmall : |(k : ℚ)| ≤ 2 ^ 53 := by exact_mod_cast h.le
  rw [toDouble_fin hsmall, roundDouble_intCast h]

/-- Whole milliseconds are doubles. -/
theorem Number.SmallInstant.toDouble_eq {x : Number} (h : x.SmallInstant) : x.toDouble = x := by
  cases x with
  | fin t =>
    obtain ⟨k, rfl, hk⟩ := h t rfl
    exact toDouble_intCast (lt_of_le_of_lt hk (by norm_num))
  | _ => rfl

/-- A thousandth of an integer compares with integers as its double does. -/
theorem roundDouble_div_thousand {d : ℤ} (h : |d| ≤ 2 ^ 52) (m : ℤ) :
    ((m : ℚ) < roundDouble ((d : ℚ) / 1000) ↔ (m : ℚ) < (d : ℚ) / 1000) ∧
      (roundDouble ((d : ℚ) / 1000) < m ↔ (d : ℚ) / 1000 < m) := by
  have hd : |(d : ℚ)| ≤ 2 ^ 52 := by exact_mod_cast h
  have herror : |roundDouble ((d : ℚ) / 1000) - (d : ℚ) / 1000| ≤ 1 / 2000 := by
    refine (abs_roundDouble_sub_le_max _).trans
      (max_le ?_ (half_leastBit_le.trans (by norm_num)))
    rw [abs_div, abs_of_pos (by norm_num : (0 : ℚ) < 1000), zpow_neg]
    norm_num at hd ⊢
    linarith
  rw [abs_le] at herror
  rcases lt_trichotomy d (m * 1000) with hlt | rfl | hgt
  · have hgap : (d : ℚ) + 1 ≤ m * 1000 := by exact_mod_cast hlt
    exact ⟨iff_of_false (by linarith) (by linarith), iff_of_true (by linarith) (by linarith)⟩
  · have hm : |m| < 2 ^ 53 := by
      rw [abs_mul] at h
      norm_num at h ⊢
      linarith [abs_nonneg m]
    have hexact : ((m * 1000 : ℤ) : ℚ) / 1000 = m := by
      push_cast
      ring
    rw [hexact, roundDouble_intCast hm]
    exact ⟨Iff.rfl, Iff.rfl⟩
  · have hgap : (m : ℚ) * 1000 + 1 ≤ d := by exact_mod_cast hgt
    exact ⟨iff_of_true (by linarith) (by linarith), iff_of_false (by linarith) (by linarith)⟩

/-! ### Two decimals -/

section

variable {p q x y : ℚ} {n m : ℕ} {numberText : Number → String}

/-- Doubles up to `2 ^ 38` are exact to four decimals and more. -/
theorem abs_roundDouble_sub_le_small (h : |q| ≤ 2 ^ 38) : |roundDouble q - q| ≤ 1 / 32768 := by
  refine (abs_roundDouble_sub_le_max q).trans (max_le ?_ half_leastBit_le)
  calc |q| * 2 ^ (-53 : ℤ) ≤ 2 ^ 38 * 2 ^ (-53 : ℤ) := by gcongr
    _ = 1 / 32768 := by norm_num

/-- Rounding a second time adds no more than the first. -/
theorem abs_roundDouble_sub_le_of_near (hy : |y| ≤ 2 ^ 37) (h : |x - y| ≤ 2 / 32768) :
    |x| ≤ 2 ^ 38 ∧ |roundDouble x - y| ≤ 3 / 32768 := by
  have hx : |x| ≤ 2 ^ 38 := by
    have hsplit : |x| ≤ |x - y| + |y| := by simpa using abs_add_le (x - y) y
    linarith
  refine ⟨hx, ?_⟩
  have herror := abs_roundDouble_sub_le_small hx
  have hsplit : |roundDouble x - y| ≤ |roundDouble x - x| + |x - y| := by
    simpa using abs_add_le (roundDouble x - x) (x - y)
  linarith

/-- A sum of two small doubles is close to that of the numbers they stand for. -/
theorem exists_add_toDouble (hp : |p| ≤ 2 ^ 36) (hq : |q| ≤ 2 ^ 36) :
    ∃ x, (Arithmetic.binary64 numberText).add (Number.fin p).toDouble (Number.fin q).toDouble =
      .fin x ∧ |x - (p + q)| ≤ 3 / 32768 := by
  have hp' : |p| ≤ 2 ^ 38 := by linarith
  have hq' : |q| ≤ 2 ^ 38 := by linarith
  have hnear : |roundDouble p + roundDouble q - (p + q)| ≤ 2 / 32768 := by
    have hsplit := abs_add_le (roundDouble p - p) (roundDouble q - q)
    rw [sub_add_sub_comm] at hsplit
    linarith [abs_roundDouble_sub_le_small hp', abs_roundDouble_sub_le_small hq']
  have hsum : |p + q| ≤ 2 ^ 37 := by linarith [abs_add_le p q]
  obtain ⟨hsmall, hround⟩ := abs_roundDouble_sub_le_of_near hsum hnear
  refine ⟨_, ?_, hround⟩
  rw [toDouble_fin (by linarith), toDouble_fin (by linarith), Arithmetic.binary64_add,
    Number.add_fin, toDouble_fin (by linarith)]

/-- A difference of two small doubles is close to that of the numbers they stand for. -/
theorem exists_sub_toDouble (hp : |p| ≤ 2 ^ 36) (hq : |q| ≤ 2 ^ 36) :
    ∃ x, (Arithmetic.binary64 numberText).sub (Number.fin p).toDouble (Number.fin q).toDouble =
      .fin x ∧ |x - (p - q)| ≤ 3 / 32768 ∧ (p = q → x = 0) := by
  have hp' : |p| ≤ 2 ^ 38 := by linarith
  have hq' : |q| ≤ 2 ^ 38 := by linarith
  have hnear : |roundDouble p - roundDouble q - (p - q)| ≤ 2 / 32768 := by
    have hsplit := abs_sub (roundDouble p - p) (roundDouble q - q)
    rw [sub_sub_sub_comm] at hsplit
    linarith [abs_roundDouble_sub_le_small hp', abs_roundDouble_sub_le_small hq']
  have hdiff : |p - q| ≤ 2 ^ 37 := by linarith [abs_sub p q]
  obtain ⟨hsmall, hround⟩ := abs_roundDouble_sub_le_of_near hdiff hnear
  refine ⟨_, ?_, hround, ?_⟩
  · rw [toDouble_fin (by linarith), toDouble_fin (by linarith), Arithmetic.binary64_sub,
      Number.sub_fin, toDouble_fin (by linarith)]
  · rintro rfl
    rw [sub_self, roundDouble_zero]

/-- Rounding keeps the order of small hundredths. -/
theorem roundDouble_lt_iff (hp : Number.IsHundredths p) (hq : Number.IsHundredths q)
    (hp' : |p| ≤ 2 ^ 38) (hq' : |q| ≤ 2 ^ 38) : roundDouble p < roundDouble q ↔ p < q := by
  have herror := abs_le.mp (abs_roundDouble_sub_le_small hp')
  have herror' := abs_le.mp (abs_roundDouble_sub_le_small hq')
  have hgap : ∀ {a b : ℚ}, Number.IsHundredths a → Number.IsHundredths b → a < b →
      a + 1 / 100 ≤ b := by
    rintro _ _ ⟨k, rfl⟩ ⟨l, rfl⟩ hlt
    have hkl : (k : ℚ) + 1 ≤ l := by
      have hlt' : (k : ℚ) < l := by linarith
      exact_mod_cast hlt'
    linarith
  rcases lt_trichotomy p q with hlt | rfl | hgt
  · have hpq := hgap hp hq hlt
    exact iff_of_true (by linarith) hlt
  · exact iff_of_false (lt_irrefl _) (lt_irrefl _)
  · have hqp := hgap hq hp hgt
    exact iff_of_false (by linarith) (by linarith)

/-- What is close to whole hundredths is rounded to them. -/
theorem roundHundredths_of_near (h : |x - (n : ℚ) / 100| < 1 / 200) :
    Number.roundHundredths x = n := by
  rw [abs_lt] at h
  have hfloor : ⌊x * 100 + 1 / 2⌋ = (n : ℤ) := by
    rw [Int.floor_eq_iff]
    push_cast
    constructor
    · linarith
    · linarith
  rw [Number.roundHundredths, hfloor, Int.toNat_natCast]

/-- What is as close to whole hundredths as a calculated balance is printed as they are. -/
theorem toFixed2Of_of_near (hy : Number.IsHundredths y) (hnonneg : 0 ≤ y) (hsmall : y ≤ 2 ^ 37)
    (hnear : |x - y| ≤ 3 / 32768) (hzero : y = 0 → x = 0) :
    Arithmetic.toFixed2Of numberText (.fin x) = (Number.fin y).toFixed2 := by
  obtain ⟨n, rfl⟩ : ∃ n : ℕ, y = (n : ℚ) / 100 := ⟨_, (hy.roundHundredths_div hnonneg).symm⟩
  have hbounds := abs_le.mp hnear
  have hx : 0 ≤ x := by
    rcases Nat.eq_zero_or_pos n with rfl | hpos
    · rw [hzero (by norm_num)]
    · have hone : (1 : ℚ) ≤ n := by exact_mod_cast hpos
      linarith
  have hbelow : |x| < 10 ^ 21 := by
    rw [abs_of_nonneg hx]
    linarith
  rw [Arithmetic.toFixed2Of, if_pos hbelow, Number.toFixed2_of_nonneg hx,
    roundHundredths_of_near (lt_of_le_of_lt hnear (by norm_num)), Number.toFixed2_hundredths]

/-! ### Amounts of any size -/

theorem roundDouble_nonneg (h : 0 ≤ q) : 0 ≤ roundDouble q := by
  have hscaled : 0 ≤ q / 2 ^ lastBit q := by positivity
  have hfloor : 0 ≤ ⌊q / 2 ^ lastBit q⌋ := Int.floor_nonneg.mpr hscaled
  have heven : 0 ≤ roundEven (q / 2 ^ lastBit q) := by
    rw [roundEven]
    split_ifs <;> omega
  have hcast : (0 : ℚ) ≤ roundEven (q / 2 ^ lastBit q) := by exact_mod_cast heven
  rw [roundDouble]
  positivity

theorem roundDouble_nonpos (h : q ≤ 0) : roundDouble q ≤ 0 := by
  have hscaled : q / 2 ^ lastBit q ≤ 0 := div_nonpos_of_nonpos_of_nonneg h (by positivity)
  have heven : roundEven (q / 2 ^ lastBit q) ≤ 0 := by
    generalize q / 2 ^ lastBit q = r at hscaled
    have hsplit := Int.floor_add_fract r
    have hfract := Int.fract_nonneg r
    -- Rounding up stays at or below zero, as a number that is rounded up is no integer.
    have hup : 0 < Int.fract r → ⌊r⌋ + 1 ≤ 0 := by
      intro hpos
      have hneg : (⌊r⌋ : ℚ) < 0 := by linarith
      have hneg' : ⌊r⌋ < 0 := by exact_mod_cast hneg
      omega
    rw [roundEven]
    split
    case isTrue =>
      have hle : (⌊r⌋ : ℚ) ≤ 0 := by linarith
      exact_mod_cast hle
    case isFalse hhigh =>
      have hup' := hup (by linarith)
      split_ifs <;> omega
  have hcast : (roundEven (q / 2 ^ lastBit q) : ℚ) ≤ 0 := by exact_mod_cast heven
  exact mul_nonpos_of_nonpos_of_nonneg hcast (by positivity)

/-- A double above zero stands for a number above zero. -/
theorem pos_of_toDouble (h : (Number.fin q).toDouble.le (.fin 0) = false) : 0 < q := by
  by_contra hnonpos
  rw [not_lt] at hnonpos
  have hround := roundDouble_nonpos hnonpos
  rw [Number.toDouble] at h
  split at h
  case isTrue =>
    rw [Number.le_fin, decide_eq_false_iff_not] at h
    exact h hround
  case isFalse hlarge =>
    rcases hnonpos.lt_or_eq with hneg | rfl
    · rw [if_pos hneg] at h
      exact Bool.noConfusion h
    · rw [roundDouble_zero, abs_zero] at hlarge
      exact hlarge (by positivity)

/-- A small number is written as the nearest hundredths. -/
theorem exists_toFixed2Of (hx : 0 ≤ x) (hsmall : x ≤ 2 ^ 38) :
    ∃ k : ℕ, Arithmetic.toFixed2Of numberText (.fin x) = Number.fixedText k ∧
      |(k : ℚ) / 100 - x| ≤ 1 / 200 := by
  have hbelow : |x| < 10 ^ 21 := by
    rw [abs_of_nonneg hx]
    linarith
  refine ⟨Number.roundHundredths x, ?_, ?_⟩
  · rw [Arithmetic.toFixed2Of, if_pos hbelow, Number.toFixed2_of_nonneg hx]
  · have hfloor : 0 ≤ ⌊x * 100 + 1 / 2⌋ := Int.floor_nonneg.mpr (by linarith)
    have hround : (Number.roundHundredths x : ℚ) = ⌊x * 100 + 1 / 2⌋ := by
      exact_mod_cast congrArg (Int.cast : ℤ → ℚ) (Int.toNat_of_nonneg hfloor)
    have hle := Int.floor_le (x * 100 + 1 / 2)
    have hlt := Int.lt_floor_add_one (x * 100 + 1 / 2)
    rw [hround, abs_le]
    constructor
    · linarith
    · linarith

/-- What is left of a small balance is written with two decimals again, at most this far
from what it should be. -/
theorem exists_toFixed2_sub (hp : 0 ≤ p) (hp' : p ≤ 2 ^ 36) (hx : 0 ≤ x)
    (hcovered : x ≤ roundDouble p) :
    ∃ k : ℕ, (Arithmetic.binary64 numberText).toFixed2 ((Arithmetic.binary64 numberText).sub
        (Number.fin p).toDouble (.fin x)) = Number.fixedText k ∧
      |(k : ℚ) / 100 - (p - x)| ≤ 1 / 200 + 2 / 32768 := by
  have hp'' : |p| ≤ 2 ^ 38 := by
    rw [abs_of_nonneg hp]
    linarith
  have herror := abs_le.mp (abs_roundDouble_sub_le_small hp'')
  have hrest : 0 ≤ roundDouble p - x := sub_nonneg.mpr hcovered
  have hrest' : |roundDouble p - x| ≤ 2 ^ 38 - 1 := by
    rw [abs_of_nonneg hrest]
    linarith
  have hround := abs_le.mp (abs_roundDouble_sub_le_small (by linarith : |roundDouble p - x| ≤ 2 ^ 38))
  obtain ⟨k, htext, hk⟩ := @exists_toFixed2Of _ numberText (roundDouble_nonneg hrest)
    (by linarith [le_abs_self (roundDouble p - x)])
  refine ⟨k, ?_, ?_⟩
  · rw [toDouble_fin (by linarith), Arithmetic.binary64_sub, Number.sub_fin,
      toDouble_fin (by linarith)]
    exact htext
  · rw [abs_le] at hk ⊢
    constructor
    · linarith
    · linarith

/-- What a small balance grows to is written with two decimals again, at most this far from
what it should be. -/
theorem exists_toFixed2_add (hp : 0 ≤ p) (hp' : p ≤ 2 ^ 36) (hx : 0 ≤ x) (hx' : x ≤ 2 ^ 37) :
    ∃ k : ℕ, (Arithmetic.binary64 numberText).toFixed2 ((Arithmetic.binary64 numberText).add
        (Number.fin p).toDouble (.fin x)) = Number.fixedText k ∧
      |(k : ℚ) / 100 - (p + x)| ≤ 1 / 200 + 2 / 32768 := by
  have hp'' : |p| ≤ 2 ^ 38 := by
    rw [abs_of_nonneg hp]
    linarith
  have herror := abs_le.mp (abs_roundDouble_sub_le_small hp'')
  have hsum : 0 ≤ roundDouble p + x := add_nonneg (roundDouble_nonneg hp) hx
  have hsum' : |roundDouble p + x| ≤ 2 ^ 38 - 1 := by
    rw [abs_of_nonneg hsum]
    linarith
  have hround := abs_le.mp (abs_roundDouble_sub_le_small (by linarith : |roundDouble p + x| ≤ 2 ^ 38))
  obtain ⟨k, htext, hk⟩ := @exists_toFixed2Of _ numberText (roundDouble_nonneg hsum)
    (by linarith [le_abs_self (roundDouble p + x)])
  refine ⟨k, ?_, ?_⟩
  · rw [toDouble_fin (by linarith), Arithmetic.binary64_add, Number.add_fin,
      toDouble_fin (by linarith)]
    exact htext
  · rw [abs_le] at hk ⊢
    constructor
    · linarith
    · linarith

/-- A number far above a small one has a double above its double, or is infinite. -/
theorem lt_toDouble_of_large (hp : |p| ≤ 2 ^ 35) (hq : 2 ^ 36 < q) :
    (Number.fin p).toDouble.lt (Number.fin q).toDouble = true := by
  have herror := abs_le.mp (abs_roundDouble_sub_le_small (by linarith : |p| ≤ 2 ^ 38))
  have hpos : 0 < q := by linarith
  have hquarter : |roundDouble q - q| ≤ q / 4 := by
    refine (abs_roundDouble_sub_le_max q).trans
      (max_le ?_ (half_leastBit_le.trans (by linarith)))
    rw [abs_of_pos hpos, zpow_neg]
    norm_num
    linarith
  have hlower := (abs_le.mp hquarter).1
  have hbelow := (abs_le.mp hp).2
  rw [toDouble_fin (by linarith), Number.toDouble]
  split
  case isTrue =>
    rw [Number.lt_fin, decide_eq_true_iff]
    linarith
  case isFalse =>
    rw [if_neg hpos.not_gt]
    rfl

end

/-! ### Small hundredths -/

section

variable {q : ℚ} {x y : Number} {numberText : Number → String}

/-- The double of small hundredths. -/
theorem toDouble_of_small (h : (Number.fin q).SmallHundredths) :
    (Number.fin q).toDouble = .fin (roundDouble q) := by
  have hsmall := (h q rfl).2
  exact toDouble_fin (by linarith)

/-- Small hundredths are compared as without rounding. -/
theorem lt_toDouble (hx : x.SmallHundredths) (hy : y.SmallHundredths) :
    x.toDouble.lt y.toDouble = x.lt y := by
  cases x with
  | fin p =>
    rw [toDouble_of_small hx]
    cases y with
    | fin q =>
      obtain ⟨hp, hp'⟩ := hx p rfl
      obtain ⟨hq, hq'⟩ := hy q rfl
      rw [toDouble_of_small hy, Number.lt_fin, Number.lt_fin, decide_eq_decide]
      exact roundDouble_lt_iff hp hq (by linarith) (by linarith)
    | _ => rfl
  | _ =>
    cases y with
    | fin q =>
      rw [toDouble_of_small hy]
      rfl
    | _ => rfl

/-- What is not a positive number is no positive double. -/
theorem isNaN_or_le_zero_toDouble (h : x.SmallHundredths) :
    (x.toDouble.isNaN || x.toDouble.le (.fin 0)) = (x.isNaN || x.le (.fin 0)) := by
  cases x with
  | fin p =>
    have hzero : (Number.fin 0).SmallHundredths := by
      rintro _ ⟨rfl⟩
      exact ⟨⟨0, by norm_num⟩, by norm_num⟩
    have hlt := lt_toDouble hzero h
    rw [toDouble_of_small hzero, roundDouble_zero, toDouble_of_small h, Number.lt_fin,
      Number.lt_fin, decide_eq_decide] at hlt
    have hle : roundDouble p ≤ 0 ↔ p ≤ 0 := by rw [← not_lt, ← not_lt, hlt]
    rw [toDouble_of_small h, Number.le_fin, Number.le_fin, decide_eq_decide.mpr hle]
    rfl
  | _ => rfl

/-- A positive number is written as without rounding. -/
theorem toFixed2Of_toDouble (h : x.SmallHundredths) (hpositive : x.le (.fin 0) = false) :
    Arithmetic.toFixed2Of numberText x.toDouble = x.toFixed2 := by
  cases x with
  | fin p =>
    obtain ⟨hwhole, hsmall⟩ := h p rfl
    rw [Number.le_fin, decide_eq_false_iff_not, not_le] at hpositive
    have herror := abs_roundDouble_sub_le_small (hsmall.trans (by norm_num))
    rw [abs_of_pos hpositive] at hsmall
    rw [toDouble_of_small h]
    refine toFixed2Of_of_near hwhole hpositive.le (by linarith) (by linarith) ?_
    rintro rfl
    exact roundDouble_zero
  | _ => rfl

end

end Js
