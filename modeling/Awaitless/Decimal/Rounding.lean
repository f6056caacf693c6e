/-!
# Powers and rounded quotients

* `twoTo`, `tenTo` — the powers that positions in a number stand for.
* `roundDiv` — a quotient rounded to a whole number, a half to the even neighbour.
-/

namespace Awaitless.Decimal

/-- The power of two. -/
def twoTo (k : Nat) : Nat := Nat.pow 2 k

/-- The power of ten. -/
def tenTo (k : Nat) : Nat := Nat.pow 10 k

/-- The quotient rounded to a whole number, a half to the even neighbour. -/
def roundDiv (num den : Nat) : Nat :=
  let q := num / den
  let r := num % den
  if 2 * r < den then q
  else if den < 2 * r then q + 1
  else if q % 2 = 0 then q else q + 1

end Awaitless.Decimal
