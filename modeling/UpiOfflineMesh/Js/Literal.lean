import Mathlib.Data.List.TakeWhile
import UpiOfflineMesh.Js.Numeral

/-!
# The grammar of decimal literals

The decimal literals of the language as a grammar with values, independent of the
scanner in `Numeral`. The scanner reads this grammar: what it reads is a literal with
its value, and it reads a literal to its end when the text after it does not continue
it. A text is a numeral when it is one literal with white space around it; whether
`parseFloat` met the end of its text is thereby decided.
-/

namespace Js

/-- Decimal digits only. -/
def Digits (text : List Char) : Prop := ∀ c ∈ text, c.isDigit = true

/-- A sign with its value, or none at all. -/
inductive IsSign : List Char → ℤ → Prop
  | none : IsSign [] 1
  | plus : IsSign ['+'] 1
  | minus : IsSign ['-'] (-1)

/-- An exponent with its value, or none at all. -/
inductive IsExponent : List Char → ℤ → Prop
  | none : IsExponent [] 0
  | some (e : Char) (signText digits : List Char) (sign : ℤ) (he : e = 'e' ∨ e = 'E')
      (hsign : IsSign signText sign) (hdigits : Digits digits) (hne : digits ≠ []) :
      IsExponent (e :: (signText ++ digits)) (sign * Nat.ofDigitChars 10 digits 0)

/-- A decimal point with the digits after it, or none at all. -/
inductive IsFraction : List Char → List Char → Prop
  | none : IsFraction [] []
  | point (digits : List Char) (hdigits : Digits digits) : IsFraction ('.' :: digits) digits

/-- An unsigned numeral with its value: it has a digit before or after the point. -/
inductive IsUnsigned : List Char → ℚ → Prop
  | mk (whole fractionText fraction exponentText : List Char) (exponent : ℤ)
      (hwhole : Digits whole) (hfraction : IsFraction fractionText fraction)
      (hdigit : ¬(whole = [] ∧ fraction = [])) (hexponent : IsExponent exponentText exponent) :
      IsUnsigned (whole ++ (fractionText ++ exponentText))
        ((Nat.ofDigitChars 10 (whole ++ fraction) 0 : ℚ) * 10 ^ (exponent - fraction.length))

/-- A literal without a sign. -/
inductive IsMagnitude : List Char → Number → Prop
  | infinity : IsMagnitude "Infinity".toList .infinity
  | numeral {text : List Char} {q : ℚ} (h : IsUnsigned text q) : IsMagnitude text (.fin q)

/-- A decimal literal with its value. -/
inductive IsLiteral : List Char → Number → Prop
  | plain {text : List Char} {x : Number} (h : IsMagnitude text x) : IsLiteral text x
  | plus {text : List Char} {x : Number} (h : IsMagnitude text x) : IsLiteral ('+' :: text) x
  | minus {text : List Char} {x : Number} (h : IsMagnitude text x) : IsLiteral ('-' :: text) x.neg

/-- The text is one literal with white space around it, and denotes its value. -/
def IsNumeral (text : String) (x : Number) : Prop :=
  ∃ before literal after, text.toList = before ++ (literal ++ after) ∧
    (∀ c ∈ before, isWhiteSpace c = true) ∧ (∀ c ∈ after, isWhiteSpace c = true) ∧
      IsLiteral literal x

/-! ### What is read is a literal -/

theorem digits_takeWhile (text : List Char) : Digits (text.takeWhile Char.isDigit) :=
  fun _ hc => List.mem_takeWhile_imp hc

/-- The exponent scanner takes off the sign and then reads digits. -/
theorem scanExponent_sign {signText : List Char} {sign : ℤ} (hsign : IsSign signText sign)
    (e : Char) (digits : List Char)
    (hunsigned : signText = [] → ∀ c ∈ digits.head?, c ≠ '-' ∧ c ≠ '+') :
    scanExponent (e :: (signText ++ digits)) =
      if e = 'e' ∨ e = 'E' then
        if digits.takeWhile Char.isDigit = [] then none
        else some (sign * Nat.ofDigitChars 10 (digits.takeWhile Char.isDigit) 0,
          digits.dropWhile Char.isDigit)
      else none := by
  cases hsign with
  | plus => rfl
  | minus => rfl
  | none =>
    rw [List.nil_append, scanExponent]
    · rintro tail rfl
      exact (hunsigned rfl '-' rfl).1 rfl
    · rintro tail rfl
      exact (hunsigned rfl '+' rfl).2 rfl

/-- Every text consists of a sign and what follows it. -/
theorem exists_sign (text : List Char) :
    ∃ signText sign digits, text = signText ++ digits ∧ IsSign signText sign ∧
      (signText = [] → ∀ c ∈ digits.head?, c ≠ '-' ∧ c ≠ '+') := by
  cases text with
  | nil => exact ⟨[], 1, [], rfl, .none, by simp⟩
  | cons c tail =>
    by_cases hminus : c = '-'
    · exact ⟨['-'], -1, tail, by rw [hminus]; rfl, .minus, by simp⟩
    by_cases hplus : c = '+'
    · exact ⟨['+'], 1, tail, by rw [hplus]; rfl, .plus, by simp⟩
    · exact ⟨[], 1, c :: tail, rfl, .none, by simp [hminus, hplus]⟩

theorem scanExponent_sound {text rest : List Char} {exponent : ℤ}
    (h : (scanExponent text).getD (0, text) = (exponent, rest)) :
    ∃ read, text = read ++ rest ∧ IsExponent read exponent := by
  cases hscan : scanExponent text with
  | none =>
    rw [hscan, Option.getD_none, Prod.mk.injEq] at h
    obtain ⟨rfl, rfl⟩ := h
    exact ⟨[], rfl, .none⟩
  | some found =>
    rw [hscan, Option.getD_some] at h
    subst h
    cases text with
    | nil => cases hscan
    | cons e tail =>
      obtain ⟨signText, sign, digits, rfl, hsign, hunsigned⟩ := exists_sign tail
      rw [scanExponent_sign hsign e digits hunsigned] at hscan
      split at hscan
      case isFalse => cases hscan
      case isTrue he =>
      split at hscan
      case isTrue => cases hscan
      case isFalse hne =>
        obtain ⟨rfl, rfl⟩ := Prod.mk.inj (Option.some.inj hscan)
        refine ⟨e :: (signText ++ digits.takeWhile Char.isDigit), ?_,
          .some e _ _ _ he hsign (digits_takeWhile _) hne⟩
        rw [List.cons_append, List.append_assoc, List.takeWhile_append_dropWhile]

theorem scanFraction_sound {text fraction rest : List Char}
    (h : scanFraction text = (fraction, rest)) :
    ∃ read, text = read ++ rest ∧ IsFraction read fraction := by
  unfold scanFraction at h
  split at h
  next tail =>
    obtain ⟨rfl, rfl⟩ := Prod.mk.inj h
    refine ⟨'.' :: tail.takeWhile Char.isDigit, ?_, .point _ (digits_takeWhile _)⟩
    rw [List.cons_append, List.takeWhile_append_dropWhile]
  next =>
    obtain ⟨rfl, rfl⟩ := Prod.mk.inj h
    exact ⟨[], rfl, .none⟩

theorem scanUnsigned_sound {text rest : List Char} {q : ℚ}
    (h : scanUnsigned text = some (q, rest)) :
    ∃ read, text = read ++ rest ∧ IsUnsigned read q := by
  unfold scanUnsigned at h
  simp only at h
  split at h
  case isTrue => cases h
  case isFalse hdigit =>
    rw [Option.some.injEq, Prod.mk.injEq] at h
    obtain ⟨rfl, rfl⟩ := h
    obtain ⟨fractionText, hfractionText, hfraction⟩ :=
      @scanFraction_sound (text.dropWhile Char.isDigit) _ _ Prod.mk.eta.symm
    obtain ⟨exponentText, hexponentText, hexponent⟩ :=
      @scanExponent_sound (scanFraction (text.dropWhile Char.isDigit)).2 _ _ Prod.mk.eta.symm
    refine ⟨text.takeWhile Char.isDigit ++ (fractionText ++ exponentText), ?_,
      .mk _ _ _ _ _ (digits_takeWhile _) hfraction hdigit hexponent⟩
    rw [List.append_assoc, List.append_assoc, ← hexponentText, ← hfractionText,
      List.takeWhile_append_dropWhile]

theorem scanMagnitude_sound {text rest : List Char} {x : Number}
    (h : scanMagnitude text = some (x, rest)) :
    ∃ read, text = read ++ rest ∧ IsMagnitude read x := by
  unfold scanMagnitude at h
  split at h
  case isTrue hinfinity =>
    rw [Option.some.injEq, Prod.mk.injEq] at h
    obtain ⟨rfl, rfl⟩ := h
    obtain ⟨after, rfl⟩ := List.isPrefixOf_iff_prefix.mp hinfinity
    exact ⟨"Infinity".toList, rfl, .infinity⟩
  case isFalse =>
    obtain ⟨⟨q, rest'⟩, hscan, heq⟩ := Option.map_eq_some_iff.mp h
    obtain ⟨rfl, rfl⟩ := Prod.mk.inj heq
    obtain ⟨read, htext, hread⟩ := scanUnsigned_sound hscan
    exact ⟨read, htext, .numeral hread⟩

/-- **What the scanner reads is a literal,** with its value, at the front of the text. -/
theorem scanLiteral_sound {text rest : List Char} {x : Number}
    (h : scanLiteral text = some (x, rest)) :
    ∃ read, text = read ++ rest ∧ IsLiteral read x := by
  cases text with
  | nil => cases h
  | cons c tail =>
    rw [scanLiteral] at h
    by_cases hminus : c = '-'
    · rw [if_pos hminus] at h
      obtain ⟨⟨y, rest'⟩, hscan, heq⟩ := Option.map_eq_some_iff.mp h
      obtain ⟨rfl, rfl⟩ := Prod.mk.inj heq
      obtain ⟨read, rfl, hread⟩ := scanMagnitude_sound hscan
      exact ⟨'-' :: read, by rw [hminus]; rfl, .minus hread⟩
    rw [if_neg hminus] at h
    by_cases hplus : c = '+'
    · rw [if_pos hplus] at h
      obtain ⟨read, rfl, hread⟩ := scanMagnitude_sound h
      exact ⟨'+' :: read, by rw [hplus]; rfl, .plus hread⟩
    · rw [if_neg hplus] at h
      obtain ⟨read, htext, hread⟩ := scanMagnitude_sound h
      exact ⟨read, htext, .plain hread⟩

/-! ### What is a literal is read -/

/-- A text that does not continue a literal before it. -/
def Stops (rest : List Char) : Prop :=
  ∀ c ∈ rest.head?, c.isDigit = false ∧ c ≠ '.' ∧ c ≠ 'e' ∧ c ≠ 'E'

section

variable {text rest : List Char}

theorem scanExponent_append {exponent : ℤ} (h : IsExponent text exponent) (hrest : Stops rest) :
    (scanExponent (text ++ rest)).getD (0, text ++ rest) = (exponent, rest) := by
  cases h with
  | none =>
    cases rest with
    | nil => rfl
    | cons c rest =>
      obtain ⟨-, -, hlower, hupper⟩ := hrest c rfl
      simp [scanExponent, hlower, hupper]
  | some e signText digits sign he hsign hdigits hne =>
    obtain ⟨htake, hdrop⟩ := takeWhile_digits_append hdigits fun c hc => (hrest c hc).1
    have hunsigned : signText = [] → ∀ c ∈ (digits ++ rest).head?, c ≠ '-' ∧ c ≠ '+' := by
      intro _ c hc
      rw [List.head?_append_of_ne_nil _ hne] at hc
      have hdigit := hdigits c (List.mem_of_mem_head? hc)
      exact ⟨ne_of_isDigit hdigit (by decide), ne_of_isDigit hdigit (by decide)⟩
    rw [List.cons_append, List.append_assoc, scanExponent_sign hsign e _ hunsigned, if_pos he,
      htake, hdrop, if_neg hne, Option.getD_some]

/-- An exponent does not continue digits or a fraction. -/
theorem IsExponent.head?_append {exponent : ℤ} (h : IsExponent text exponent) (hrest : Stops rest) :
    ∀ c ∈ (text ++ rest).head?, c.isDigit = false ∧ c ≠ '.' := by
  intro c hc
  cases h with
  | none => exact ⟨(hrest c hc).1, (hrest c hc).2.1⟩
  | some e signText digits sign he =>
    obtain rfl : e = c := Option.some.inj hc
    rcases he with rfl | rfl
    · decide
    · decide

theorem scanFraction_append {fraction : List Char} (h : IsFraction text fraction)
    (hrest : ∀ c ∈ rest.head?, c.isDigit = false ∧ c ≠ '.') :
    scanFraction (text ++ rest) = (fraction, rest) := by
  cases h with
  | none =>
    rw [List.nil_append, scanFraction]
    rintro tail rfl
    exact (hrest '.' rfl).2 rfl
  | point digits hdigits =>
    obtain ⟨htake, hdrop⟩ := takeWhile_digits_append hdigits fun c hc => (hrest c hc).1
    rw [List.cons_append, scanFraction, htake, hdrop]

/-- A fraction does not continue digits. -/
theorem IsFraction.head?_append {fraction : List Char} (h : IsFraction text fraction)
    (hrest : ∀ c ∈ rest.head?, c.isDigit = false) :
    ∀ c ∈ (text ++ rest).head?, c.isDigit = false := by
  intro c hc
  cases h with
  | none => exact hrest c hc
  | point digits hdigits =>
    obtain rfl : '.' = c := Option.some.inj hc
    decide

theorem scanUnsigned_append {q : ℚ} (h : IsUnsigned text q) (hrest : Stops rest) :
    scanUnsigned (text ++ rest) = some (q, rest) := by
  obtain ⟨whole, fractionText, fraction, exponentText, exponent, hwhole, hfraction, hdigit,
    hexponent⟩ := h
  have hafter := hexponent.head?_append hrest
  obtain ⟨htake, hdrop⟩ := takeWhile_digits_append hwhole
    (hfraction.head?_append fun c hc => (hafter c hc).1)
  rw [List.append_assoc, List.append_assoc, scanUnsigned, htake, hdrop,
    scanFraction_append hfraction hafter]
  simp only [if_neg hdigit, scanExponent_append hexponent hrest]

/-- An unsigned numeral begins with a digit or a point. -/
theorem IsUnsigned.exists_cons {q : ℚ} (h : IsUnsigned text q) :
    ∃ c tail, text = c :: tail ∧ (c.isDigit = true ∨ c = '.') := by
  obtain ⟨whole, fractionText, fraction, exponentText, exponent, hwhole, hfraction, hdigit, -⟩ := h
  cases whole with
  | cons c whole => exact ⟨c, _, rfl, Or.inl (hwhole c List.mem_cons_self)⟩
  | nil =>
    cases hfraction with
    | none => exact absurd ⟨rfl, rfl⟩ hdigit
    | point digits hdigits => exact ⟨'.', _, rfl, Or.inr rfl⟩

theorem scanMagnitude_append {x : Number} (h : IsMagnitude text x) (hrest : Stops rest) :
    scanMagnitude (text ++ rest) = some (x, rest) := by
  cases h with
  | infinity => rfl
  | numeral h =>
    obtain ⟨c, tail, rfl, hc⟩ := h.exists_cons
    have hnot : "Infinity".toList.isPrefixOf (c :: tail ++ rest) = false := by
      have hI : ('I' == c) = false := by
        rw [beq_eq_false_iff_ne]
        rcases hc with hdigit | rfl
        · exact (ne_of_isDigit hdigit (by decide)).symm
        · decide
      rw [show "Infinity".toList = 'I' :: "nfinity".toList from rfl, List.cons_append,
        List.isPrefixOf_cons_cons, hI, Bool.false_and]
    rw [scanMagnitude, hnot, scanUnsigned_append h hrest]
    rfl

/-- A literal without a sign begins with a digit, a point or the letter `I`. -/
theorem IsMagnitude.exists_cons {x : Number} (h : IsMagnitude text x) :
    ∃ c tail, text = c :: tail ∧ (c.isDigit = true ∨ c = '.' ∨ c = 'I') := by
  cases h with
  | infinity => exact ⟨'I', _, rfl, Or.inr (Or.inr rfl)⟩
  | numeral h =>
    obtain ⟨c, tail, htext, hc⟩ := h.exists_cons
    exact ⟨c, tail, htext, hc.imp_right Or.inl⟩

/-- **A literal is read to its end** unless the text after it continues it. -/
theorem scanLiteral_append {x : Number} (h : IsLiteral text x) (hrest : Stops rest) :
    scanLiteral (text ++ rest) = some (x, rest) := by
  cases h with
  | plus h =>
    rw [List.cons_append, scanLiteral, if_neg (by decide), if_pos rfl, scanMagnitude_append h hrest]
  | minus h =>
    rw [List.cons_append, scanLiteral, if_pos rfl, scanMagnitude_append h hrest]
    rfl
  | plain h =>
    have hscan := scanMagnitude_append h hrest
    obtain ⟨c, tail, rfl, hc⟩ := h.exists_cons
    have hsign : c ≠ '-' ∧ c ≠ '+' := by
      rcases hc with hdigit | rfl | rfl
      · exact ⟨ne_of_isDigit hdigit (by decide), ne_of_isDigit hdigit (by decide)⟩
      · decide
      · decide
    rw [List.cons_append, scanLiteral, if_neg hsign.1, if_neg hsign.2]
    exact hscan

/-! ### Numerals -/

/-- White space does not continue a literal. -/
theorem stops_of_isWhiteSpace (h : ∀ c ∈ rest, isWhiteSpace c = true) : Stops rest := by
  intro c hc
  have hspace := h c (List.mem_of_mem_head? hc)
  refine ⟨?_, ?_, ?_, ?_⟩
  · by_contra hdigit
    simp [not_isWhiteSpace_of_isDigit (Bool.eq_true_of_not_eq_false hdigit)] at hspace
  all_goals rintro rfl; revert hspace; decide

/-- A literal does not begin with white space. -/
theorem IsLiteral.exists_cons {x : Number} (h : IsLiteral text x) :
    ∃ c tail, text = c :: tail ∧ isWhiteSpace c = false := by
  cases h with
  | plus => exact ⟨'+', _, rfl, by decide⟩
  | minus => exact ⟨'-', _, rfl, by decide⟩
  | plain h =>
    obtain ⟨c, tail, htext, hc⟩ := h.exists_cons
    refine ⟨c, tail, htext, ?_⟩
    rcases hc with hdigit | rfl | rfl
    · exact not_isWhiteSpace_of_isDigit hdigit
    · decide
    · decide

/-- **Numerals, as the scanner sees them:** it reads a literal and leaves white space. -/
theorem isNumeral_iff {text : String} {x : Number} :
    IsNumeral text x ↔ ∃ rest, scanLiteral (text.toList.dropWhile isWhiteSpace) = some (x, rest) ∧
      ∀ c ∈ rest, isWhiteSpace c = true := by
  constructor
  · rintro ⟨before, literal, after, htext, hbefore, hafter, hliteral⟩
    refine ⟨after, ?_, hafter⟩
    have hscan := scanLiteral_append hliteral (stops_of_isWhiteSpace hafter)
    obtain ⟨c, tail, rfl, hc⟩ := hliteral.exists_cons
    rw [htext, List.dropWhile_append_of_pos hbefore, List.cons_append, List.dropWhile_cons, hc,
      if_neg Bool.false_ne_true]
    exact hscan
  · rintro ⟨rest, hscan, hrest⟩
    obtain ⟨literal, hsplit, hliteral⟩ := scanLiteral_sound hscan
    refine ⟨text.toList.takeWhile isWhiteSpace, literal, rest, ?_,
      fun c hc => List.mem_takeWhile_imp hc, hrest, hliteral⟩
    rw [← hsplit, List.takeWhile_append_dropWhile]

/-- `parseFloat` reads a numeral as what it denotes. -/
theorem IsNumeral.parseFloat_eq {text : String} {x : Number} (h : IsNumeral text x) :
    parseFloat text = x := by
  obtain ⟨rest, hscan, -⟩ := isNumeral_iff.mp h
  rw [parseFloat, hscan]

instance (text : String) : Decidable (∃ x, IsNumeral text x) :=
  decidable_of_iff (((scanLiteral (text.toList.dropWhile isWhiteSpace)).map Prod.snd).any
      fun rest => rest.all isWhiteSpace) (by
    simp only [isNumeral_iff]
    cases scanLiteral (text.toList.dropWhile isWhiteSpace) with
    | none => simp
    | some found => simp [Prod.ext_iff])

example : ∃ x, IsNumeral " -1.5e3\n" x := by decide +kernel

example : ¬∃ x, IsNumeral "1,000.00" x := by decide +kernel

end

end Js
