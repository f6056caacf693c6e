import Awaitless.Text.Quoted

/-!
# Raw texts

Names of files, paths and arguments are bytes. Most of them are texts in UTF-8, but nothing keeps a
folder from naming a file otherwise. What the command compares, takes apart or joins are therefore
bytes. They become a text only where one is needed: that may fail for a name of a chunk, and never
fails for a message, where whatever is no part of a text shows as a replacement character.

* `RawText` — bytes that are meant as a text.
* `RawText.ofString`, `RawText.text?` — the bytes of a text, and the text of bytes, if there is one.
* `RawText.pieces` — the characters of bytes, and what is broken between them.
* `RawText.shown`, `RawText.quoted` — bytes inside of messages.
-/

namespace Awaitless

/-- Bytes that are meant as a text. -/
abbrev RawText := List UInt8

namespace RawText

/-- The bytes of a text. -/
def ofString (text : String) : RawText :=
  text.toUTF8.data.toList

/-- The text of bytes, if they are those of one. -/
def text? (raw : RawText) : Option String :=
  String.fromUTF8? ⟨raw.toArray⟩

/-- Bytes are those of a text exactly if they are read as this text. -/
theorem text?_eq_some_iff {raw : RawText} {text : String} :
    raw.text? = some text ↔ raw = ofString text := by
  constructor
  · intro h
    unfold text? String.fromUTF8? at h
    split at h
    · cases h
      rfl
    · cases h
  · rintro rfl
    show String.fromUTF8? text.toByteArray = some text
    rw [String.fromUTF8?, dif_pos text.isValidUTF8]
    rfl

/-! ## Pieces -/

/-- A character, or bytes that are no part of one. -/
inductive Piece where
  | char (c : Char)
  | broken (bytes : RawText)
deriving Repr, DecidableEq, Inhabited

/-- The bounds of the bytes that have to follow the first byte of a character. The first of them
are narrower where a shorter row of bytes, a surrogate or no character at all would be meant. -/
def bounds (first : UInt8) : List (UInt8 × UInt8) :=
  let any : UInt8 × UInt8 := (0x80, 0xBF)
  if first < 0xC2 then []
  else if first < 0xE0 then [any]
  else if first = 0xE0 then [(0xA0, 0xBF), any]
  else if first = 0xED then [(0x80, 0x9F), any]
  else if first < 0xF0 then [any, any]
  else if first = 0xF0 then [(0x90, 0xBF), any, any]
  else if first < 0xF4 then [any, any, any]
  else if first = 0xF4 then [(0x80, 0x8F), any, any]
  else []

/-- The bytes that keep within bounds, up to the first one that does not. -/
def within : List (UInt8 × UInt8) → RawText → RawText
  | (low, high) :: rest, b :: raw => if low ≤ b ∧ b ≤ high then b :: within rest raw else []
  | _, _ => []

/-- The piece that starts with a byte, given the bytes behind that belong to it. -/
def pieceOf (first : UInt8) (behind : RawText) : Piece :=
  if first < 0x80 then .char (Char.ofNat first.toNat)
  else if behind = [] ∨ behind.length < (bounds first).length then .broken (first :: behind)
  else
    -- the first byte tells how many follow by its upper bits, and holds the value in the others
    .char (Char.ofNat
      (behind.foldl (fun value b => value * 64 + b.toNat % 64)
        (first.toNat % (64 >>> behind.length))))

/-- The pieces of bytes, after as many of them as belong to a piece before. -/
def piecesFrom : Nat → RawText → List Piece
  | _, [] => []
  | skipped + 1, _ :: raw => piecesFrom skipped raw
  | 0, first :: raw =>
    let behind := within (bounds first) raw
    pieceOf first behind :: piecesFrom behind.length raw

/-- The characters of bytes, and what is broken between them, in as large pieces as possible. -/
def pieces (raw : RawText) : List Piece :=
  piecesFrom 0 raw

/-! ## Messages -/

/-- The bytes inside of a message; what is broken shows as a replacement character. -/
def shown (raw : RawText) : String :=
  match raw.text? with
  | some text => text
  | none =>
    String.ofList (raw.pieces.map fun
      | .char c => c
      | .broken _ => '\uFFFD')

/-- Two digits of a byte. -/
def hexDigits (b : UInt8) : List Char :=
  let digits := (Nat.toDigits 16 b.toNat).map Char.toUpper
  List.replicate (2 - digits.length) '0' ++ digits

/-- The bytes in double quotes; what is broken shows byte by byte. -/
def quoted (raw : RawText) : String :=
  match raw.text? with
  | some text => Text.Quoted.encode text
  | none =>
    String.ofList ('"' :: (raw.pieces.flatMap fun
      | .char c => Text.Quoted.encodeChar c
      | .broken bytes => bytes.flatMap fun b => '\\' :: 'x' :: hexDigits b) ++ ['"'])

end RawText

end Awaitless
