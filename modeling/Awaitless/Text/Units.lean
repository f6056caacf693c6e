/-!
# Text that may hold lone surrogates

A string of the language is a row of 16-bit units, and an escape can produce half of a surrogate
pair. `Units` keeps such halves beside ordinary characters.

* `Units` — the text, with `Units.ofString` and `Units.toString`.
-/

namespace Awaitless.Text

/-- A character, or half of a surrogate pair that has no partner. -/
inductive CodeUnit where
  | scalar (c : Char)
  | surrogate (code : Nat)
deriving Repr, DecidableEq, Inhabited

/-- Text in which lone surrogates may stand between characters. -/
abbrev Units := List CodeUnit

namespace Units

/-- Every ordinary string is such a text. -/
def ofString (s : String) : Units :=
  s.toList.map .scalar

/-- The hexadecimal digit of a number below sixteen, in lower case. -/
def hexDigit (n : Nat) : Char :=
  if n < 10 then Char.ofNat (48 + n) else Char.ofNat (87 + n)

/-- Four hexadecimal digits. -/
def hex4 (n : Nat) : List Char :=
  [hexDigit (n / 4096 % 16), hexDigit (n / 256 % 16), hexDigit (n / 16 % 16), hexDigit (n % 16)]

/-- Whether every unit is a character. -/
def isWellFormed (u : Units) : Bool :=
  u.all fun
    | .scalar _ => true
    | .surrogate _ => false

/-- The characters that stand for one unit: a lone surrogate is the replacement character with four
hexadecimal digits behind it. Where one occurs, a true replacement character gets its own digits. -/
def shownUnit (wellFormed : Bool) : CodeUnit → List Char
  | .scalar c => if !wellFormed && c == '\ufffd' then '\ufffd' :: hex4 0xFFFD else [c]
  | .surrogate n => '\ufffd' :: hex4 n

/-- The text as an ordinary string. -/
def toString (u : Units) : String :=
  String.ofList (u.flatMap (shownUnit u.isWellFormed))

/-- Reading an ordinary string as such a text and back is the identity. -/
theorem toString_ofString (s : String) : toString (ofString s) = s := by
  have sound : (ofString s).isWellFormed = true := by simp [isWellFormed, ofString]
  have h : ∀ cs : List Char, (cs.map CodeUnit.scalar).flatMap (shownUnit true) = cs := by
    intro cs
    induction cs with
    | nil => rfl
    | cons c cs ih => simp [List.flatMap_cons, shownUnit, ih]
  rw [toString, sound, ofString, h, String.ofList_toList]

end Units

end Awaitless.Text
