import Awaitless.Text.PrintableRanges

/-!
# Quoted names

Names inside messages stand in double quotes, and whatever would be invisible or would join the
character before it is escaped.

* `Quoted.encode` — the quoted form of a text.
-/

namespace Awaitless.Text.Quoted

/-- A character that has a glyph of its own. -/
def isPlain (c : Char) : Bool :=
  if c.toNat < 128 then 32 ≤ c.toNat && c.toNat < 127
  else !PrintableRanges.unprintable.contains c.toNat &&
    !PrintableRanges.combining.contains c.toNat

/-- A character inside the quotes. -/
def encodeChar (c : Char) : List Char :=
  match c with
  | '\x00' => ['\\', '0']
  | '\t' => ['\\', 't']
  | '\n' => ['\\', 'n']
  | '\r' => ['\\', 'r']
  | '"' => ['\\', '"']
  | '\\' => ['\\', '\\']
  | c =>
    if isPlain c then [c]
    else ['\\', 'u', '{'] ++ Nat.toDigits 16 c.toNat ++ ['}']

/-- The text in double quotes. -/
def encode (text : String) : String :=
  String.ofList ('"' :: (text.toList.flatMap encodeChar ++ ['"']))

end Awaitless.Text.Quoted
