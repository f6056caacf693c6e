import Awaitless.Decimal.Binary64

/-!
# The shortest decimal that reads back

A double lies in an interval of reals that all round to it. The shortest decimal is the first one,
over 1, 2, … 17 significant digits, that falls into the interval; of two, the nearer.

* `Shortest.digits` — the digits and the place of the decimal point.
* `Shortest.text` — positional notation from `1e-7` up to `1e21`, scientific notation outside.
-/

namespace Awaitless.Decimal.Shortest

/-- The significant digits of a positive number and the place of the point: the value is
`0.d₁d₂… * 10 ^ point`. -/
structure Digits where
  digits : List Nat
  point : Int
deriving Repr, DecidableEq, Inhabited

/-- The decimal digits of a number, most significant first. -/
def decimalDigits (n : Nat) : List Nat :=
  (Nat.toDigits 10 n).map fun c => c.toNat - 48

/-- `a / b < c / d` for positive denominators. -/
def ratioLt (a b c d : Nat) : Bool := a * d < c * b

/-- `a / b ≤ c / d` for positive denominators. -/
def ratioLe (a b c d : Nat) : Bool := a * d ≤ c * b

/-- `10 ^ k` as a quotient. -/
def powTen (k : Int) : Nat × Nat :=
  if k < 0 then (1, tenTo (-k).toNat) else (tenTo k.toNat, 1)

/-- The whole number of decimal digits before the point: the largest `k ≤ bound` with
`10 ^ (k - 1) ≤ num / den`. -/
def magnitude (num den : Nat) : (steps : Nat) → (bound : Int) → Int
  | 0, k => k
  | steps + 1, k =>
    let (p, q) := powTen (k - 1)
    if ratioLe p q num den then k else magnitude num den steps (k - 1)

/-- The interval of reals that round to `m * 2 ^ e`, as two quotients; the lower gap is half as
wide at a power of two. -/
def interval (m : Nat) (e : Int) : (Nat × Nat) × (Nat × Nat) :=
  let low := if m = twoTo 52 && -1074 < e then 4 * m - 1 else 4 * m - 2
  let up := 4 * m + 2
  if e < 2 then ((low, twoTo (2 - e).toNat), (up, twoTo (2 - e).toNat))
  else ((low * twoTo (e - 2).toNat, 1), (up * twoTo (e - 2).toNat, 1))

/-- The candidate with `n` digits that lies in the interval, the nearer of two. -/
def candidate? (m : Nat) (e : Int) (num den : Nat) (point : Int) (n : Nat) : Option (Nat × Int) :=
  let unit : Int := point - n
  let (p, q) := powTen unit
  let below := (num * q) / (den * p)
  let above := below + 1
  let ((ln, ld), (un, ud)) := interval m e
  let inside (c : Nat) : Bool :=
    if m % 2 = 0 then ratioLe ln ld (c * p) q && ratioLe (c * p) q un ud
    else ratioLt ln ld (c * p) q && ratioLt (c * p) q un ud
  let nearerAbove : Bool :=
    -- above - value < value - below, all over the denominator den * q
    2 * (num * q) > (below + above) * (den * p) ||
      (2 * (num * q) == (below + above) * (den * p) && below % 2 == 1)
  if inside below && inside above then some (if nearerAbove then above else below, unit)
  else if below ≠ 0 && inside below then some (below, unit)
  else if inside above then some (above, unit)
  else none

/-- The first number of digits, from `n` on, that reads back. -/
def search (m : Nat) (e : Int) (num den : Nat) (point : Int) : (steps n : Nat) → Nat × Int
  | 0, n => (num / den, point - n)
  | steps + 1, n =>
    match candidate? m e num den point n with
    | some found => found
    | none => search m e num den point steps (n + 1)

/-- Drops the zeros at the end. -/
def dropZeros (ds : List Nat) : List Nat :=
  (ds.reverse.dropWhile (· == 0)).reverse

/-- The shortest digits of the positive number `m * 2 ^ e`. -/
def digits (m : Nat) (e : Int) : Digits :=
  let (num, den) : Nat × Nat := if e < 0 then (m, twoTo (-e).toNat) else (m * twoTo e.toNat, 1)
  -- one decimal digit is worth more than three bits, and less than ten thirds
  let bits : Int := (Nat.log2 num : Int) - (Nat.log2 den : Int)
  let point := magnitude num den 700 ((if bits < 0 then bits * 3 / 10 else bits / 3) + 3)
  let (value, unit) := search m e num den point 17 1
  let ds := decimalDigits value
  ⟨dropZeros ds, unit + ds.length⟩

def digitChars (ds : List Nat) : List Char := ds.map fun d => Char.ofNat (48 + d)

/-- Positional or scientific notation, whichever the size asks for. -/
def Digits.chars (x : Digits) : List Char :=
  let n : Int := x.digits.length
  let ds := digitChars x.digits
  if n ≤ x.point && x.point ≤ 21 then ds ++ List.replicate (x.point - n).toNat '0'
  else if 0 < x.point && x.point ≤ 21 then
    ds.take x.point.toNat ++ '.' :: ds.drop x.point.toNat
  else if -6 < x.point && x.point ≤ 0 then
    '0' :: '.' :: (List.replicate (-x.point).toNat '0' ++ ds)
  else
    let exponent := x.point - 1
    let power := (if exponent < 0 then '-' else '+') :: (toString exponent.natAbs).toList
    match ds with
    | [d] => d :: 'e' :: power
    | d :: rest => d :: '.' :: (rest ++ 'e' :: power)
    | [] => []

/-- The shortest text of a double. -/
def chars : Binary64 → List Char
  | .infinite => "Infinity".toList
  | .finite 0 _ => ['0']
  | .finite m e => (digits m e).chars

end Awaitless.Decimal.Shortest
