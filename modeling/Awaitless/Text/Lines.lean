/-!
# Lines of a text

* `isNewline`, `isSpace` — the characters that end a line, and the blank ones inside of a line.
* `isWhite` — the characters with the property `White_Space`.
* `linesOf` — a text cut at the ends of its lines.
-/

namespace Awaitless.Text

/-- The characters that end a line. -/
def isNewline (c : Char) : Bool :=
  c == '\n' || c == '\r' || c == '\u2028' || c == '\u2029'

/-- White space inside of a line. -/
def isSpace (c : Char) : Bool :=
  c == ' ' || c == '\t' || c == '\x0b' || c == '\x0c' || c == '\u00a0' || c == '\ufeff' ||
    c == '\u0085' || c == '\u1680' || ('\u2000' ≤ c && c ≤ '\u200b') || c == '\u202f' ||
    c == '\u205f' || c == '\u3000'

/-- The characters with the property `White_Space`. The marks of width zero do not have it. -/
def isWhite (c : Char) : Bool :=
  isNewline c || (isSpace c && c != '\ufeff' && c != '\u200b')

/-- The lines of a text; a carriage return and a line feed end one line together. -/
def linesOf : List Char → List (List Char)
  | [] => [[]]
  | '\r' :: '\n' :: rest => [] :: linesOf rest
  | c :: rest =>
    if isNewline c then [] :: linesOf rest
    else
      match linesOf rest with
      | line :: others => (c :: line) :: others
      | [] => [[c]]

end Awaitless.Text
