import UpiOfflineMesh.Js.Number

/-!
# Reading numbers from text

`parseFloat` and the conversion `Number(string)` share one scanner for the
decimal literals of the language and differ in what they do with the text after
it: `parseFloat` ignores it, `Number` accepts white space only. Amounts and
balances travel as text, so what `toFixed(2)` prints has to be read back exactly.
-/

namespace Js

/-- The white space and line terminators that numeric conversions skip. -/
def isWhiteSpace (c : Char) : Bool :=
  c.toNat ∈ [0x09, 0x0A, 0x0B, 0x0C, 0x0D, 0x20, 0xA0, 0x1680, 0x2028, 0x2029, 0x202F, 0x205F,
    0x3000, 0xFEFF] || (0x2000 ≤ c.toNat && c.toNat ≤ 0x200A)

/-- The exponent part `e`, an optional sign and at least one digit, with the
text after it; none when the text does not begin with one. -/
def scanExponent : List Char → Option (ℤ × List Char)
  | [] => none
  | e :: rest =>
    if e = 'e' ∨ e = 'E' then
      let (sign, digits) := match rest with
        | '-' :: tail => ((-1 : ℤ), tail)
        | '+' :: tail => (1, tail)
        | _ => (1, rest)
      if digits.takeWhile Char.isDigit = [] then none
      else some (sign * Nat.ofDigitChars 10 (digits.takeWhile Char.isDigit) 0,
        digits.dropWhile Char.isDigit)
    else none

/-- The digits after a decimal point, with the text after them. -/
def scanFraction : List Char → List Char × List Char
  | '.' :: rest => (rest.takeWhile Char.isDigit, rest.dropWhile Char.isDigit)
  | rest => ([], rest)

/-- The longest unsigned decimal numeral at the front of a text, with the text
after it; none when no digit stands before or after the decimal point. -/
def scanUnsigned (text : List Char) : Option (ℚ × List Char) :=
  let whole := text.takeWhile Char.isDigit
  let (fraction, rest) := scanFraction (text.dropWhile Char.isDigit)
  if whole = [] ∧ fraction = [] then none
  else
    let (exponent, rest) := (scanExponent rest).getD (0, rest)
    some ((Nat.ofDigitChars 10 (whole ++ fraction) 0 : ℚ) * 10 ^ (exponent - fraction.length), rest)

/-- An unsigned decimal literal: `Infinity` or a numeral. -/
def scanMagnitude (text : List Char) : Option (Number × List Char) :=
  if "Infinity".toList.isPrefixOf text then some (.infinity, text.drop 8)
  else (scanUnsigned text).map fun (q, rest) => (.fin q, rest)

/-- A decimal literal with its optional sign, and the text after it. -/
def scanLiteral : List Char → Option (Number × List Char)
  | [] => none
  | c :: rest =>
    if c = '-' then (scanMagnitude rest).map fun (x, rest) => (x.neg, rest)
    else if c = '+' then scanMagnitude rest
    else scanMagnitude (c :: rest)

/-- `parseFloat(text)`: the literal after leading white space, whatever follows it. -/
def parseFloat (text : String) : Number :=
  match scanLiteral (text.toList.dropWhile isWhiteSpace) with
  | some (x, _) => x
  | none => .nan

/-- The run of digits at the front of a text; `NaN` when there is none. -/
def scanDigits (text : List Char) : Number :=
  let digits := text.takeWhile Char.isDigit
  if digits = [] then .nan else .fin (Nat.ofDigitChars 10 digits 0 : ℕ)

/-- `parseInt(text, 10)`: the digits after leading white space and a sign, whatever
follows them. The integer is exact; the language rounds it to a double, and from more than
308 digits to an infinity. -/
def parseInt (text : String) : Number :=
  match text.toList.dropWhile isWhiteSpace with
  | '-' :: rest => (scanDigits rest).neg
  | '+' :: rest => scanDigits rest
  | rest => scanDigits rest

/-- `text.trim()` as a list of characters. -/
def trim (text : List Char) : List Char :=
  ((text.dropWhile isWhiteSpace).reverse.dropWhile isWhiteSpace).reverse

/-- The value of a digit of the number systems with letters, if `c` is one. -/
def digitValue (c : Char) : Option ℕ :=
  if c.isDigit then some (c.toNat - 48)
  else if 'a' ≤ c ∧ c ≤ 'f' then some (c.toNat - 87)
  else if 'A' ≤ c ∧ c ≤ 'F' then some (c.toNat - 55)
  else none

/-- An integer literal in the given base, all of whose characters are digits of it. -/
def scanInBase (base : ℕ) (digits : List Char) : Number :=
  if digits = [] then .nan
  else
    match digits.mapM digitValue with
    | some values =>
      if values.all (· < base) then .fin (values.foldl (fun n d => base * n + d) 0 : ℕ) else .nan
    | none => .nan

/-- `Number(text)`: the conversion of a string operand of an arithmetic operator. -/
def numberOfText (text : String) : Number :=
  match trim text.toList with
  | [] => .fin 0
  | '0' :: 'x' :: digits => scanInBase 16 digits
  | '0' :: 'X' :: digits => scanInBase 16 digits
  | '0' :: 'o' :: digits => scanInBase 8 digits
  | '0' :: 'O' :: digits => scanInBase 8 digits
  | '0' :: 'b' :: digits => scanInBase 2 digits
  | '0' :: 'B' :: digits => scanInBase 2 digits
  | literal =>
    match scanLiteral literal with
    | some (x, []) => x
    | _ => .nan

/-! ### Reading back what `toFixed(2)` prints -/

/-- The fixed-point text, character by character. -/
theorem toList_fixedText (n : ℕ) :
    (Number.fixedText n).toList =
      Nat.toDigits 10 (n / 100) ++ '.' :: [(n / 10 % 10).digitChar, (n % 10).digitChar] := by
  have htenth : n / 10 % 10 < 10 := Nat.mod_lt _ (by omega)
  have hunit : n % 10 < 10 := Nat.mod_lt _ (by omega)
  simp [Number.fixedText, Nat.toDigits_of_lt_base htenth, Nat.toDigits_of_lt_base hunit]

/-- The digits before and after the point spell the number of hundredths. -/
theorem ofDigitChars_fixedText (n : ℕ) :
    Nat.ofDigitChars 10
      (Nat.toDigits 10 (n / 100) ++ [(n / 10 % 10).digitChar, (n % 10).digitChar]) 0 = n := by
  rw [Nat.ofDigitChars_append, Nat.ofDigitChars_ten_toDigits,
    Nat.ofDigitChars_cons_digitChar_of_lt_ten (by omega),
    Nat.ofDigitChars_cons_digitChar_of_lt_ten (by omega), Nat.ofDigitChars_nil]
  omega

theorem isDigit_digitChar {d : ℕ} (h : d < 10) : d.digitChar.isDigit = true := by
  have hmem : d.digitChar ∈ Nat.toDigits 10 d := by simp [Nat.toDigits_of_lt_base h]
  exact Nat.isDigit_of_mem_toDigits (by omega) (by omega) hmem

theorem not_isWhiteSpace_of_isDigit {c : Char} (h : c.isDigit = true) : isWhiteSpace c = false := by
  have hrange : 48 ≤ c.toNat ∧ c.toNat ≤ 57 := by
    simpa [Char.isDigit, UInt32.le_iff_toNat_le] using h
  simp only [isWhiteSpace, List.mem_cons, List.not_mem_nil, or_false, Bool.or_eq_false_iff,
    decide_eq_false_iff_not, Bool.and_eq_false_iff]
  omega

/-- Digits are neither a sign nor a point, and no letter. -/
theorem ne_of_isDigit {c d : Char} (hc : c.isDigit = true) (hd : d.isDigit = false) : c ≠ d := by
  rintro rfl
  simp [hc] at hd

/-- Scanning stops at the first character after a run of digits. -/
theorem takeWhile_digits_append {digits rest : List Char} (h : ∀ c ∈ digits, c.isDigit = true)
    (hrest : ∀ c ∈ rest.head?, c.isDigit = false) :
    (digits ++ rest).takeWhile Char.isDigit = digits ∧
      (digits ++ rest).dropWhile Char.isDigit = rest := by
  rw [List.takeWhile_append_of_pos h, List.dropWhile_append_of_pos h]
  cases rest with
  | nil => simp
  | cons c rest =>
    have hc : c.isDigit = false := hrest c rfl
    simp [hc]

/-- The scanner reads the fixed-point text of `n` hundredths as `n / 100`. -/
theorem scanUnsigned_fixedText (n : ℕ) :
    scanUnsigned (Number.fixedText n).toList = some ((n : ℚ) / 100, []) := by
  have hwhole : ∀ c ∈ Nat.toDigits 10 (n / 100), c.isDigit = true := fun c hc =>
    Nat.isDigit_of_mem_toDigits (by omega) (by omega) hc
  obtain ⟨htake, hdrop⟩ := @takeWhile_digits_append _
    ('.' :: [(n / 10 % 10).digitChar, (n % 10).digitChar]) hwhole (by simp)
  have htenth : (n / 10 % 10).digitChar.isDigit = true := isDigit_digitChar (by omega)
  have hunit : (n % 10).digitChar.isDigit = true := isDigit_digitChar (by omega)
  rw [toList_fixedText, scanUnsigned, htake, hdrop]
  simp only [scanFraction, List.takeWhile_cons, List.dropWhile_cons, htenth, hunit, if_true,
    List.takeWhile_nil, List.dropWhile_nil, Nat.toDigits_ne_nil, false_and, if_false,
    scanExponent, Option.getD_none, ofDigitChars_fixedText]
  norm_num
  ring

/-- The decimal text of a number begins with a digit. -/
theorem toDigits_eq_digit_cons (n : ℕ) :
    ∃ c rest, Nat.toDigits 10 n = c :: rest ∧ c.isDigit = true := by
  cases hdigits : Nat.toDigits 10 n with
  | nil => exact absurd hdigits Nat.toDigits_ne_nil
  | cons c rest =>
    have hmem : c ∈ Nat.toDigits 10 n := by simp [hdigits]
    exact ⟨c, rest, rfl, Nat.isDigit_of_mem_toDigits (by omega) (by omega) hmem⟩

/-- The text begins with a digit: no sign and no `Infinity` is read before it. -/
theorem scanMagnitude_fixedText (n : ℕ) :
    scanMagnitude (Number.fixedText n).toList = some (.fin ((n : ℚ) / 100), []) := by
  obtain ⟨c, rest, hdigits, hdigit⟩ := toDigits_eq_digit_cons (n / 100)
  have htext := toList_fixedText n
  rw [hdigits, List.cons_append] at htext
  have hprefix : "Infinity".toList.isPrefixOf (Number.fixedText n).toList = false := by
    have hI : ('I' == c) = false :=
      beq_eq_false_iff_ne.mpr (ne_of_isDigit hdigit (by decide)).symm
    rw [htext, show "Infinity".toList = 'I' :: "nfinity".toList from rfl,
      List.isPrefixOf_cons_cons, hI, Bool.false_and]
  rw [scanMagnitude, hprefix, scanUnsigned_fixedText]
  rfl

/-- **Round trip:** `parseFloat` inverts `toFixed(2)` on whole hundredths. -/
@[simp] theorem parseFloat_fixedText (n : ℕ) :
    parseFloat (Number.fixedText n) = .fin ((n : ℚ) / 100) := by
  have hscan := scanMagnitude_fixedText n
  obtain ⟨c, rest, hdigits, hdigit⟩ := toDigits_eq_digit_cons (n / 100)
  have htext := toList_fixedText n
  rw [hdigits, List.cons_append] at htext
  rw [htext] at hscan
  rw [parseFloat, htext, List.dropWhile_cons, not_isWhiteSpace_of_isDigit hdigit,
    if_neg Bool.false_ne_true, scanLiteral, if_neg (ne_of_isDigit hdigit (by decide)),
    if_neg (ne_of_isDigit hdigit (by decide)), hscan]

/-- The text of a negative number reads as one. -/
theorem parseFloat_neg_fixedText (n : ℕ) :
    parseFloat ("-" ++ Number.fixedText n) = .fin (-((n : ℚ) / 100)) := by
  have htext : ("-" ++ Number.fixedText n).toList = '-' :: (Number.fixedText n).toList := by
    rw [String.toList_append]
    rfl
  have hspace : isWhiteSpace '-' = false := by decide
  rw [parseFloat, htext, List.dropWhile_cons, hspace, if_neg Bool.false_ne_true, scanLiteral,
    if_pos rfl, scanMagnitude_fixedText]
  rfl

@[simp] theorem parseFloat_nan : parseFloat "NaN" = .nan := by decide +kernel

@[simp] theorem parseFloat_infinity : parseFloat "Infinity" = .infinity := by decide +kernel

/-- Reading back a nonnegative number printed with two decimals gives the
nearest hundredth. -/
theorem parseFloat_toFixed2 {q : ℚ} (h : 0 ≤ q) :
    parseFloat (Number.fin q).toFixed2 = .fin ((Number.roundHundredths q : ℚ) / 100) := by
  rw [Number.toFixed2_of_nonneg h, parseFloat_fixedText]

/-- A finite number that was printed with two decimals reads back as whole hundredths. -/
theorem isHundredths_of_written {x : Number} {q : ℚ} (h : parseFloat x.toFixed2 = .fin q) :
    Number.IsHundredths q := by
  cases x with
  | nan => cases h.symm.trans parseFloat_nan
  | infinity => cases h.symm.trans parseFloat_infinity
  | negInfinity =>
    have hread : parseFloat Number.negInfinity.toFixed2 = .negInfinity := by decide +kernel
    cases h.symm.trans hread
  | fin p =>
    by_cases hp : 0 ≤ p
    · obtain rfl := Number.fin.inj (h.symm.trans (parseFloat_toFixed2 hp))
      exact Number.isHundredths_natCast_div _
    · rw [Number.toFixed2, if_pos (not_le.mp hp), parseFloat_neg_fixedText,
        Number.fin.injEq] at h
      refine ⟨-(Number.roundHundredths (-p) : ℤ), ?_⟩
      rw [← h]
      push_cast
      ring

example : parseFloat " 1.25e1 rupees" = .fin (25 / 2) := by decide +kernel

/-! ### Integers -/

theorem scanDigits_toDigits (n : ℕ) : scanDigits (Nat.toDigits 10 n) = .fin (n : ℚ) := by
  have hdigits : ∀ c ∈ Nat.toDigits 10 n, c.isDigit = true := fun c hc =>
    Nat.isDigit_of_mem_toDigits (by omega) (by omega) hc
  have hall := (@takeWhile_digits_append _ [] hdigits (by simp)).1
  rw [List.append_nil] at hall
  unfold scanDigits
  rw [hall, if_neg Nat.toDigits_ne_nil, Nat.ofDigitChars_ten_toDigits]

/-- **Round trip:** `parseInt` reads the decimal text of an integer. -/
theorem parseInt_toString (k : ℤ) : parseInt (toString k) = .fin (k : ℚ) := by
  cases k with
  | ofNat n =>
    obtain ⟨c, rest, hdigits, hdigit⟩ := toDigits_eq_digit_cons n
    have htext : (toString (Int.ofNat n)).toList = Nat.toDigits 10 n := Nat.toList_repr
    rw [parseInt, htext, hdigits, List.dropWhile_cons, not_isWhiteSpace_of_isDigit hdigit,
      if_neg Bool.false_ne_true]
    split
    case h_1 heq => exact absurd (List.cons.inj heq).1 (ne_of_isDigit hdigit (by decide))
    case h_2 heq => exact absurd (List.cons.inj heq).1 (ne_of_isDigit hdigit (by decide))
    case h_3 =>
      rw [← hdigits, scanDigits_toDigits]
      rfl
  | negSucc n =>
    have htext : (toString (Int.negSucc n)).toList = '-' :: Nat.toDigits 10 (n + 1) := by
      have hminus : toString (Int.negSucc n) = "-" ++ (n + 1).repr := rfl
      rw [hminus, String.toList_append, Nat.toList_repr]
      rfl
    have hspace : isWhiteSpace '-' = false := by decide
    rw [parseInt, htext, List.dropWhile_cons, hspace, if_neg Bool.false_ne_true]
    change (scanDigits (Nat.toDigits 10 (n + 1))).neg = _
    rw [scanDigits_toDigits, Number.neg, Int.cast_negSucc]

/-- There is no number to read in an empty text. -/
theorem parseInt_empty : parseInt "" = .nan := by decide

end Js
