import Awaitless.Decimal.Rounding

/-!
# Decimals with two places

* `Fixed.text` — a quotient with two places after the point.
-/

namespace Awaitless.Decimal

/-- `num / den` with two places after the point; a half goes to the even neighbour. -/
def Fixed.text (num den : Nat) : String :=
  let hundredths := roundDiv (num * 100) den
  let places := hundredths % 100
  toString (hundredths / 100) ++ "." ++ (if places < 10 then "0" else "") ++ toString places

end Awaitless.Decimal
