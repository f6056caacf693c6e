import Awaitless.Text.Identifier
import Awaitless.Text.Lines

/-!
# A place in the source

* `Cursor` — the rest of the source and the number of characters before it.
* `Cursor.span` — the longest run of characters of one kind, and the place behind it.
-/

namespace Awaitless.Script

open Text

/-- The rest of the source and the number of characters before it. -/
structure Cursor where
  rest : List Char
  position : Nat
deriving Repr, Inhabited

namespace Cursor

def drop (c : Cursor) (n : Nat) : Cursor := ⟨c.rest.drop n, c.position + n⟩

/-- The longest run of characters of one kind, in front of a text that was read before. -/
def spanFrom (p : Char → Bool) : List Char → List Char → Nat → List Char × Cursor
  | [], taken, n => (taken.reverse, ⟨[], n⟩)
  | c :: rest, taken, n =>
    if p c then spanFrom p rest (c :: taken) (n + 1) else (taken.reverse, ⟨c :: rest, n⟩)

/-- The longest run of characters of one kind, and the place behind it. -/
def span (p : Char → Bool) (c : Cursor) : List Char × Cursor :=
  spanFrom p c.rest [] c.position

end Cursor

/-! ## Digits -/

/-- The value of a digit in any base up to sixteen. -/
def digitValue? (c : Char) : Option Nat :=
  if '0' ≤ c && c ≤ '9' then some (c.toNat - 48)
  else if 'a' ≤ c && c ≤ 'f' then some (c.toNat - 87)
  else if 'A' ≤ c && c ≤ 'F' then some (c.toNat - 55)
  else none

/-- Whether the character is a digit in the given base. -/
def isDigitOf (base : Nat) (c : Char) : Bool :=
  match digitValue? c with
  | some d => d < base
  | none => false

/-- The number that some digits stand for. -/
def digitsValue (base : Nat) (digits : List Char) : Nat :=
  digits.foldl (fun n c => base * n + (digitValue? c).getD 0) 0

end Awaitless.Script
