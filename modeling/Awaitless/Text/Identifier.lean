import Awaitless.Text.IdentifierRanges

/-!
# Identifier names

* `isIdentifierStart`, `isIdentifierPart` — the characters of identifier names.
* `isIdentifierName` — a start character and then parts; reserved words are names too.
-/

namespace Awaitless.Text

def isAsciiLetter (c : Char) : Bool :=
  ('a' ≤ c && c ≤ 'z') || ('A' ≤ c && c ≤ 'Z')

def isDigit (c : Char) : Bool :=
  '0' ≤ c && c ≤ '9'

/-- `$`, `_` and the characters with the property `ID_Start`. -/
def isIdentifierStart (c : Char) : Bool :=
  isAsciiLetter c || c == '$' || c == '_' ||
    (128 ≤ c.toNat && IdentifierRanges.idStart.contains c.toNat)

/-- A start character, a character with the property `ID_Continue`, or a zero-width joiner or
non-joiner. -/
def isIdentifierPart (c : Char) : Bool :=
  isIdentifierStart c || isDigit c ||
    (128 ≤ c.toNat &&
      (c == '\u200c' || c == '\u200d' || IdentifierRanges.idRest.contains c.toNat))

/-- Whether a text is an identifier name. -/
def isIdentifierName (name : String) : Bool :=
  match name.toList with
  | [] => false
  | c :: rest => isIdentifierStart c && rest.all isIdentifierPart

end Awaitless.Text
