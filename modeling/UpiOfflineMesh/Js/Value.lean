import UpiOfflineMesh.Js.Arithmetic

/-!
# JSON values and the conversions of the language

What arrives from outside is parsed JSON, so any field may hold any JSON value
or be missing. Operators convert such a value implicitly; arrays and objects are
first turned into a string, which fails for an object with its own `toString`.
-/

namespace Js

/-- A thrown error, identified by its message. -/
structure Error where
  /-- `err.message` -/
  message : String
  deriving DecidableEq, Repr

/-- A sequence of two computations succeeds when both do. -/
theorem bind_eq_ok_iff {α β : Type} {x : Except Error α} {f : α → Except Error β} {b : β} :
    x >>= f = .ok b ↔ ∃ a, x = .ok a ∧ f a = .ok b := by
  cases x with
  | error err => simp [bind, Except.bind]
  | ok a => simp [bind, Except.bind]

/-- What the platform fixes and the language leaves open: the digits of a
number's text, the time zone, and date texts outside the standard format. -/
structure Platform where
  /-- `String(x)` for a number. -/
  numberText : Number → String
  /-- The instant of a local time given in milliseconds. -/
  localToUtc : ℤ → ℤ
  /-- `Date.parse` of a text that is not in the standard date-time format. -/
  parseOtherDate : String → Option ℤ

/-- The arithmetic of the language, in binary64. -/
def Platform.arithmetic (platform : Platform) : Arithmetic := .binary64 platform.numberText

/-- A parsed JSON value, or `undefined` for a missing property. -/
inductive Value where
  | undefined
  | null
  | bool (b : Bool)
  | num (x : Number)
  | str (s : String)
  | arr (items : List Value)
  | obj (fields : List (String × Value))

namespace Value

instance : Inhabited Value := ⟨undefined⟩

mutual

/-- `String(v)`: the properties of a JSON object are not callable, so its own
`toString` hides the inherited one and makes the conversion throw. -/
def toText (platform : Platform) : Value → Except Error String
  | undefined => .ok "undefined"
  | null => .ok "null"
  | bool b => .ok (if b then "true" else "false")
  | num x => .ok (platform.numberText x)
  | str s => .ok s
  | arr items => do
    let parts ← joinParts platform items
    return ",".intercalate parts
  | obj fields =>
    if fields.any (fun field => field.1 = "toString") then
      .error ⟨"Cannot convert object to primitive value"⟩
    else .ok "[object Object]"

/-- The parts that `Array.prototype.join` puts together. -/
def joinParts (platform : Platform) : List Value → Except Error (List String)
  | [] => .ok []
  | item :: items => do
    let part ← match item with
      | undefined => .ok ""
      | null => .ok ""
      | other => toText platform other
    let parts ← joinParts platform items
    return part :: parts

end

/-- The conversion of an operand of an arithmetic operator. -/
def toNumberWith (arith : Arithmetic) (platform : Platform) (v : Value) : Except Error Number :=
  match v with
  | undefined => .ok .nan
  | null => .ok (.fin 0)
  | bool b => .ok (.fin (if b then 1 else 0))
  | num x => .ok x
  | str s => .ok (arith.numberOfText s)
  | composite => do
    let text ← composite.toText platform
    return arith.numberOfText text

/-- The conversion without rounding. -/
def toNumber (platform : Platform) (v : Value) : Except Error Number :=
  v.toNumberWith .exact platform

/-- `parseFloat(v)`, which reads the text of its argument. -/
def parseFloatWith (arith : Arithmetic) (platform : Platform) (v : Value) : Except Error Number := do
  let text ← v.toText platform
  return arith.parseFloat text

/-- `parseFloat(v)` without rounding. -/
def parseFloat (platform : Platform) (v : Value) : Except Error Number :=
  v.parseFloatWith .exact platform

/-- `parseInt(v, 10)`, which reads the text of its argument. -/
def parseInt (platform : Platform) (v : Value) : Except Error Number := do
  let text ← v.toText platform
  return Js.parseInt text

/-- Conditions take the value for true. -/
def truthy : Value → Bool
  | undefined => false
  | null => false
  | bool b => b
  | num x => x ≠ .nan && x ≠ .fin 0
  | str s => s ≠ ""
  | arr _ => true
  | obj _ => true

/-- `v || fallback`. -/
def orElse (v fallback : Value) : Value := if v.truthy then v else fallback

/-- `typeof v === 'object'`. -/
def isObject : Value → Bool
  | null => true
  | arr _ => true
  | obj _ => true
  | _ => false

/-- `v.name` for an object, whose prototype has no property of that name. -/
def field (v : Value) (name : String) : Value :=
  match v with
  | obj fields => ((fields.find? (fun field => field.1 = name)).map Prod.snd).getD undefined
  | _ => undefined

/-- The property of that name, in a destructuring pattern. -/
def property (v : Value) (name : String) : Except Error Value :=
  match v with
  | undefined => .error ⟨"Cannot destructure 'undefined' as it is undefined."⟩
  | null => .error ⟨"Cannot destructure 'null' as it is null."⟩
  | obj fields => .ok (((fields.find? (fun field => field.1 = name)).map Prod.snd).getD undefined)
  | _ => .ok undefined

/-- The value as a string that may be a key of a map, if it is a string. -/
def asText : Value → Option String
  | str s => some s
  | _ => none

@[simp] theorem asText_str (s : String) : (str s).asText = some s := rfl

theorem asText_eq_some_iff {v : Value} {s : String} : v.asText = some s ↔ v = str s := by
  cases v with
  | str t => simp [asText]
  | _ => simp [asText]

@[simp] theorem toText_str (platform : Platform) (s : String) :
    (str s).toText platform = .ok s := by
  rw [toText]

@[simp] theorem parseFloatWith_str (arith : Arithmetic) (platform : Platform) (s : String) :
    (str s).parseFloatWith arith platform = .ok (arith.parseFloat s) := by
  rw [parseFloatWith, toText_str]
  rfl

@[simp] theorem parseFloat_str (platform : Platform) (s : String) :
    (str s).parseFloat platform = .ok (Js.parseFloat s) :=
  parseFloatWith_str .exact platform s

@[simp] theorem toNumber_num (platform : Platform) (x : Number) :
    (num x).toNumber platform = .ok x := rfl

end Value

end Js
