import UpiOfflineMesh.Js.Binary64
import UpiOfflineMesh.Js.Numeral

/-!
# The arithmetic of the language as a parameter

Code that calculates is translated once, over the operations that round. Without rounding
they are the exact ones. In binary64 each of them is the exact operation on doubles,
rounded to a double. Comparisons do not round and are no part of this.
-/

namespace Js

/-- The operations whose results may be rounded. -/
structure Arithmetic where
  /-- `x + y`. -/
  add : Number → Number → Number
  /-- `x - y`. -/
  sub : Number → Number → Number
  /-- `x / d` for a positive integer constant. -/
  divNat : Number → ℕ → Number
  /-- `parseFloat(s)`. -/
  parseFloat : String → Number
  /-- `Number(s)`. -/
  numberOfText : String → Number
  /-- `x.toFixed(2)`. -/
  toFixed2 : Number → String

namespace Arithmetic

/-- Arithmetic without rounding. -/
def exact : Arithmetic where
  add := Number.add
  sub := Number.sub
  divNat := Number.divNat
  parseFloat := Js.parseFloat
  numberOfText := Js.numberOfText
  toFixed2 := Number.toFixed2

/-- `x.toFixed(2)` of a double: from `10 ^ 21` on it is the text of the number. -/
def toFixed2Of (numberText : Number → String) : Number → String
  | .fin q => if |q| < 10 ^ 21 then (Number.fin q).toFixed2 else numberText (.fin q)
  | other => other.toFixed2

/-- The arithmetic of JavaScript, with `String(x)` for the text of a number. -/
def binary64 (numberText : Number → String) : Arithmetic where
  add x y := (x.add y).toDouble
  sub x y := (x.sub y).toDouble
  divNat x d := (x.divNat d).toDouble
  parseFloat text := (Js.parseFloat text).toDouble
  numberOfText text := (Js.numberOfText text).toDouble
  toFixed2 := toFixed2Of numberText

section

variable {numberText : Number → String} {x y : Number}

@[simp] theorem binary64_add : (binary64 numberText).add x y = (x.add y).toDouble := rfl

@[simp] theorem binary64_sub : (binary64 numberText).sub x y = (x.sub y).toDouble := rfl

@[simp] theorem binary64_divNat (d : ℕ) :
    (binary64 numberText).divNat x d = (x.divNat d).toDouble := rfl

end

end Arithmetic

end Js
