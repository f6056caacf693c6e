import Awaitless.Decimal.Rounding

/-!
# Non-negative double-precision numbers

A number of the language is a 64-bit binary floating-point number; a literal is never negative.
The value is kept exactly, as a whole number times a power of two, or as overflow.

* `Binary64` — the value.
* `Binary64.ofRatio` — the nearest double of a quotient; ties go to the even significand.
* `Binary64.ofDecimal` — the nearest double of a whole number times a power of ten.
* `Binary64.accumulate` — digits taken in one after the other.
-/

namespace Awaitless.Decimal

/-- A non-negative double: `significand * 2 ^ exponent`, or too large to be finite. -/
inductive Binary64 where
  | finite (significand : Nat) (exponent : Int)
  | infinite
deriving Repr, DecidableEq, Inhabited

namespace Binary64

def zero : Binary64 := .finite 0 (-1074)

/-- `num / den` scaled by `2 ^ (-e)`, as a numerator and a denominator. -/
def scaled (num den : Nat) (e : Int) : Nat × Nat :=
  if e < 0 then (num * twoTo (-e).toNat, den) else (num, den * twoTo e.toNat)

/-- The nearest double of `num / den`. The exponent is the smallest one at which the significand
fits into 53 bits, and never below that of the smallest double. -/
def ofRatio (num den : Nat) : Binary64 :=
  if num = 0 then zero
  else
    let guess : Int := (Nat.log2 num : Int) - (Nat.log2 den : Int) - 52
    let (n, d) := scaled num den guess
    let e := if n < d * twoTo 52 then guess - 1 else guess
    let e := max e (-1074)
    let (n, d) := scaled num den e
    let m := roundDiv n d
    let (m, e) := if m = twoTo 53 then (twoTo 52, e + 1) else (m, e)
    if 971 < e then .infinite else .finite m e

/-- The nearest double of `digits * 10 ^ exponent`. Numbers far outside the range are decided by
their size alone. -/
def ofDecimal (digits : Nat) (exponent : Int) : Binary64 :=
  if digits = 0 then zero
  else
    let magnitude : Int := (Nat.log2 digits : Int) / 4 + exponent
    if 400 < magnitude then .infinite
    else if magnitude + (Nat.log2 digits : Int) < -400 then zero
    else if exponent < 0 then ofRatio digits (tenTo (-exponent).toNat)
    else ofRatio (digits * tenTo exponent.toNat) 1

/-- The value as a quotient of whole numbers; overflow has none. -/
def toRatio? : Binary64 → Option (Nat × Nat)
  | .finite m e => some (if e < 0 then (m, twoTo (-e).toNat) else (m * twoTo e.toNat, 1))
  | .infinite => none

/-- The value as a whole number, when it is one. -/
def toNat? (x : Binary64) : Option Nat :=
  match x.toRatio? with
  | some (n, d) => if n % d = 0 then some (n / d) else none
  | none => none

/-- Digits taken in one after the other, with every step rounded. -/
def accumulate (base : Nat) (digits : List Nat) : Binary64 :=
  digits.foldl (fun x d =>
    match x.toNat? with
    | some n => ofRatio (base * n + d) 1
    | none => .infinite) zero

end Binary64

end Awaitless.Decimal
