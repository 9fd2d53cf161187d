import Mathlib.Data.List.Basic
import Mathlib.Tactic.Common

/-!
# Base64 as Node reads and writes it

`buffer.toString('base64')` writes one text for a sequence of bytes, with the
standard alphabet and padding. `Buffer.from(text, 'base64')` reads far more
texts: it also knows the URL-safe alphabet, skips every other character, stops
at the first `=` and ignores bits that fill no byte. Reading inverts writing,
but many texts denote the same bytes.
-/

namespace Js

/-- The contents of a buffer. -/
abbrev Bytes := List UInt8

/-- The character of the standard alphabet for six bits. -/
def alphabetChar (n : ℕ) : Char :=
  if n < 26 then Char.ofNat (65 + n)
  else if n < 52 then Char.ofNat (71 + n)
  else if n < 62 then Char.ofNat (n - 4)
  else if n = 62 then '+'
  else '/'

/-- The six bits of a character of either alphabet; none for a character that is skipped. -/
def sextet (c : Char) : Option ℕ :=
  if 'A' ≤ c ∧ c ≤ 'Z' then some (c.toNat - 65)
  else if 'a' ≤ c ∧ c ≤ 'z' then some (c.toNat - 71)
  else if '0' ≤ c ∧ c ≤ '9' then some (c.toNat + 4)
  else if c = '+' ∨ c = '-' then some 62
  else if c = '/' ∨ c = '_' then some 63
  else none

/-- Three bytes are four groups of six bits; a shorter end is filled up with zero bits. -/
def toSextets : Bytes → List ℕ
  | a :: b :: c :: rest =>
    a.toNat / 4 :: (a.toNat % 4 * 16 + b.toNat / 16) :: (b.toNat % 16 * 4 + c.toNat / 64) ::
      c.toNat % 64 :: toSextets rest
  | [a, b] => [a.toNat / 4, a.toNat % 4 * 16 + b.toNat / 16, b.toNat % 16 * 4]
  | [a] => [a.toNat / 4, a.toNat % 4 * 16]
  | [] => []

/-- The bytes that groups of six bits fill; bits left over at the end are dropped. -/
def fromSextets : List ℕ → Bytes
  | a :: b :: c :: d :: rest =>
    UInt8.ofNat (a * 4 + b / 16) :: UInt8.ofNat (b % 16 * 16 + c / 4) ::
      UInt8.ofNat (c % 4 * 64 + d) :: fromSextets rest
  | [a, b, c] => [UInt8.ofNat (a * 4 + b / 16), UInt8.ofNat (b % 16 * 16 + c / 4)]
  | [a, b] => [UInt8.ofNat (a * 4 + b / 16)]
  | _ => []

/-- `bytes.toString('base64')`. -/
def toBase64 (bytes : Bytes) : String :=
  String.ofList ((toSextets bytes).map alphabetChar ++
    List.replicate ((3 - bytes.length % 3) % 3) '=')

/-- The groups of six bits that the decoder finds in a text. -/
def textSextets (text : List Char) : List ℕ := (text.takeWhile (· ≠ '=')).filterMap sextet

/-- `Buffer.from(text, 'base64')`. -/
def fromBase64 (text : String) : Bytes := fromSextets (textSextets text.toList)

theorem sextet_alphabetChar : ∀ n < 64, sextet (alphabetChar n) = some n := by decide

theorem alphabetChar_ne_padding : ∀ n < 64, alphabetChar n ≠ '=' := by decide

theorem toSextets_lt (bytes : Bytes) : ∀ n ∈ toSextets bytes, n < 64 := by
  induction bytes using toSextets.induct with
  | case1 a b c rest ih =>
    have ha := a.toNat_lt
    have hb := b.toNat_lt
    have hc := c.toNat_lt
    simp only [toSextets, List.mem_cons]
    rintro n (rfl | rfl | rfl | rfl | hn)
    · omega
    · omega
    · omega
    · omega
    · exact ih n hn
  | case2 a b =>
    have ha := a.toNat_lt
    have hb := b.toNat_lt
    simp only [toSextets, List.mem_cons, List.not_mem_nil, or_false]
    rintro n (rfl | rfl | rfl)
    · omega
    · omega
    · omega
  | case3 a =>
    have ha := a.toNat_lt
    simp only [toSextets, List.mem_cons, List.not_mem_nil, or_false]
    rintro n (rfl | rfl)
    · omega
    · omega
  | case4 => simp [toSextets]

private theorem ofNat_eq {n : ℕ} {a : UInt8} (h : n = a.toNat) : UInt8.ofNat n = a := by
  rw [h, UInt8.ofNat_toNat]

/-- Regrouping the bits loses nothing. -/
theorem fromSextets_toSextets (bytes : Bytes) : fromSextets (toSextets bytes) = bytes := by
  induction bytes using toSextets.induct with
  | case1 a b c rest ih =>
    have hb := b.toNat_lt
    have hc := c.toNat_lt
    rw [toSextets, fromSextets, ih, ofNat_eq (a := a) (by omega), ofNat_eq (a := b) (by omega),
      ofNat_eq (a := c) (by omega)]
  | case2 a b =>
    have hb := b.toNat_lt
    rw [toSextets, fromSextets, ofNat_eq (a := a) (by omega), ofNat_eq (a := b) (by omega)]
  | case3 a => rw [toSextets, fromSextets, ofNat_eq (a := a) (by omega)]
  | case4 => rfl

/-- The decoder finds the groups of six bits that the encoder wrote. -/
theorem textSextets_map_alphabetChar {sextets : List ℕ} (h : ∀ n ∈ sextets, n < 64) (k : ℕ) :
    textSextets (sextets.map alphabetChar ++ List.replicate k '=') = sextets := by
  have hkeep : ∀ c ∈ sextets.map alphabetChar, decide (c ≠ '=') = true := by
    intro c hc
    obtain ⟨n, hn, rfl⟩ := List.mem_map.mp hc
    exact decide_eq_true (alphabetChar_ne_padding n (h n hn))
  have hpadding : (List.replicate k '=').takeWhile (· ≠ '=') = [] := by
    cases k with
    | zero => rfl
    | succ k => simp [List.replicate_succ]
  rw [textSextets, List.takeWhile_append_of_pos hkeep, hpadding, List.append_nil]
  clear hkeep hpadding
  induction sextets with
  | nil => rfl
  | cons n sextets ih =>
    rw [List.map_cons, List.filterMap_cons_some (sextet_alphabetChar n (h n (by simp))),
      ih (fun m hm => h m (by simp [hm]))]

/-- **Round trip:** reading inverts writing. -/
@[simp] theorem fromBase64_toBase64 (bytes : Bytes) : fromBase64 (toBase64 bytes) = bytes := by
  rw [fromBase64, toBase64, String.toList_ofList,
    textSextets_map_alphabetChar (toSextets_lt bytes), fromSextets_toSextets]

/-- **Many spellings:** text of skipped characters at the end changes no byte. -/
theorem fromBase64_append_of_skipped (text : String) {suffix : String}
    (h : ∀ c ∈ suffix.toList, sextet c = none) : fromBase64 (text ++ suffix) = fromBase64 text := by
  have hsuffix : (suffix.toList.takeWhile (· ≠ '=')).filterMap sextet = [] := by
    rw [List.filterMap_eq_nil_iff]
    intro c hc
    exact h c (List.takeWhile_subset _ hc)
  have hsextets : textSextets (text.toList ++ suffix.toList) = textSextets text.toList := by
    rw [textSextets, textSextets, List.takeWhile_append]
    split
    case isTrue hall =>
      rw [List.filterMap_append, hsuffix, List.append_nil,
        (List.takeWhile_prefix _).eq_of_length hall]
    case isFalse => rfl
  rw [fromBase64, fromBase64, String.toList_append, hsextets]

/-- A line feed at the end is such text, though it makes another text. -/
theorem fromBase64_append_newline (text : String) :
    fromBase64 (text ++ "\n") = fromBase64 text ∧ text ++ "\n" ≠ text := by
  constructor
  · have hskipped : ("\n" : String).toList.all (fun c => sextet c = none) = true := by
      decide +kernel
    apply fromBase64_append_of_skipped
    intro c hc
    exact of_decide_eq_true (List.all_eq_true.mp hskipped c hc)
  · intro heq
    have hlength := congrArg String.length heq
    rw [String.length_append] at hlength
    have hnewline : ("\n" : String).length = 1 := by decide +kernel
    omega

end Js
