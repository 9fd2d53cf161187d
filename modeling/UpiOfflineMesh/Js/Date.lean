import UpiOfflineMesh.Js.Value

/-!
# Instants and `new Date`

An instant is a whole number of milliseconds since the epoch. `new Date(v)`
reads a string with `Date.parse` and everything else as a number, while an
arithmetic operator converts every operand to a number: the two readings of one
value are different functions, and both are modelled.
-/

namespace Js

/-- The largest distance from the epoch that a date may have, in milliseconds. -/
def maxTime : ℤ := 8640000000000000

/-- `ToIntegerOrInfinity` of a finite number: the fraction is dropped. -/
def truncate (q : ℚ) : ℤ := if 0 ≤ q then ⌊q⌋ else ⌈q⌉

/-- The instant of a number, if a date may hold it. -/
def timeClip : Number → Option ℤ
  | .fin q => if |q| ≤ maxTime then some (truncate q) else none
  | _ => none

/-- Truncation keeps a number between whole bounds. -/
theorem truncate_mem_of_intCast_le {q : ℚ} {lower upper : ℤ} (hlower : (lower : ℚ) ≤ q)
    (hupper : q ≤ upper) : lower ≤ truncate q ∧ truncate q ≤ upper := by
  rw [truncate]
  split
  · exact ⟨Int.le_floor.mpr hlower, Int.floor_le_iff.mpr (by linarith)⟩
  · exact ⟨Int.le_ceil_iff.mpr (by linarith), Int.ceil_le.mpr hupper⟩

/-! ### The standard date-time format -/

/-- Exactly `n` digits at the front of a text. -/
def scanFixed (n : ℕ) (text : List Char) : Option (ℕ × List Char) :=
  if (text.take n).length = n ∧ (text.take n).all Char.isDigit then
    some (Nat.ofDigitChars 10 (text.take n) 0, text.drop n)
  else none

/-- Four digits, or a sign and six; the year minus zero is excluded. -/
def scanYear : List Char → Option (ℤ × List Char)
  | '+' :: rest => do
    let (year, rest) ← scanFixed 6 rest
    return (year, rest)
  | '-' :: rest => do
    let (year, rest) ← scanFixed 6 rest
    if year = 0 then none else return (-year, rest)
  | text => do
    let (year, rest) ← scanFixed 4 text
    return (year, rest)

/-- A two-digit part after its separator, the default when the separator is missing. -/
def scanPart (separator : Char) (lower upper default : ℕ) : List Char → Option (ℕ × List Char)
  | [] => some (default, [])
  | c :: rest =>
    if c = separator then do
      let (part, rest) ← scanFixed 2 rest
      if lower ≤ part ∧ part ≤ upper then return (part, rest) else none
    else some (default, c :: rest)

/-- The number of days from the epoch to a date of the Gregorian calendar. -/
def daysOfDate (year : ℤ) (month day : ℕ) : ℤ :=
  let shifted := if month ≤ 2 then year - 1 else year
  let era := shifted / 400
  let yearOfEra := shifted % 400
  let monthFromMarch : ℤ := if month ≤ 2 then month + 9 else month - 3
  let dayOfYear := (153 * monthFromMarch + 2) / 5 + day - 1
  era * 146097 + (yearOfEra * 365 + yearOfEra / 4 - yearOfEra / 100 + dayOfYear) - 719468

/-- Year, month and day, in days from the epoch; a day requires a month. -/
def scanDate (text : List Char) : Option (ℤ × List Char) := do
  let (year, rest) ← scanYear text
  let (month, afterMonth) ← scanPart '-' 1 12 1 rest
  if afterMonth = rest then return (daysOfDate year 1 1, rest)
  else
    let (day, afterDay) ← scanPart '-' 1 31 1 afterMonth
    return (daysOfDate year month day, afterDay)

/-- Hours and minutes, seconds and milliseconds when given, in milliseconds. -/
def scanTime (text : List Char) : Option (ℤ × List Char) := do
  let (hour, rest) ← scanFixed 2 text
  let (minute, afterMinute) ← scanPart ':' 0 59 0 rest
  let (second, afterSecond) ← scanPart ':' 0 59 0 afterMinute
  let (milli, afterMilli) ← match afterSecond with
    | '.' :: tail => if afterSecond = afterMinute then none else scanFixed 3 tail
    | tail => some (0, tail)
  let time : ℤ := ((hour * 60 + minute) * 60 + second) * 1000 + milli
  if afterMinute = rest ∨ 86400000 < time then none else return (time, afterMilli)

/-- The offset of a time zone, in milliseconds; none stands for local time. -/
def scanZone : List Char → Option (Option ℤ)
  | [] => some none
  | ['Z'] => some (some 0)
  | sign :: text => do
    let (hour, rest) ← scanFixed 2 text
    let (minute, rest') ← scanPart ':' 0 59 0 rest
    let offset : ℤ := (hour * 60 + minute) * 60000
    if rest = rest' ∨ rest' ≠ [] ∨ 23 < hour then none
    else if sign = '+' then return some offset
    else if sign = '-' then return some (-offset)
    else none

/-- The instant of a text in the standard format. A date alone is in UTC, a
date with a time and no zone in local time. -/
def parseStandardDate (platform : Platform) (text : List Char) : Option ℤ := do
  let (days, rest) ← scanDate text
  match rest with
  | [] => return days * 86400000
  | 'T' :: rest =>
    let (time, rest) ← scanTime rest
    let zone ← scanZone rest
    match zone with
    | some offset => return days * 86400000 + time - offset
    | none => return platform.localToUtc (days * 86400000 + time)
  | _ => none

/-- `Date.parse(text)`; none is `NaN`. -/
def parseDate (platform : Platform) (text : String) : Option ℤ :=
  let instant := match parseStandardDate platform text.toList with
    | some t => some t
    | none => platform.parseOtherDate text
  instant.bind fun t => timeClip (.fin t)

/-- `new Date(v)` as the instant it holds; none is an invalid date. -/
def newDate (platform : Platform) (v : Value) : Except Error (Option ℤ) :=
  match v with
  | .str s => .ok (parseDate platform s)
  | .arr items => do
    let text ← (Value.arr items).toText platform
    return parseDate platform text
  | .obj fields => do
    let text ← (Value.obj fields).toText platform
    return parseDate platform text
  | scalar => do
    let x ← scalar.toNumber platform
    return timeClip x

/-- `date.toISOString()`, kept as the instant that the text denotes: the text of
a valid date determines its instant, and an invalid date throws. -/
def toISOString : Option ℤ → Except Error ℤ
  | some t => .ok t
  | none => .error ⟨"Invalid time value"⟩

@[simp] theorem newDate_num (platform : Platform) (x : Number) :
    newDate platform (.num x) = .ok (timeClip x) := rfl

@[simp] theorem newDate_str (platform : Platform) (s : String) :
    newDate platform (.str s) = .ok (parseDate platform s) := rfl

example : scanDate "2020-02-29T23:59".toList = some (18321, "T23:59".toList) := by decide

example : scanTime "24:00:00.000Z".toList = some (86400000, ['Z']) := by decide

end Js
