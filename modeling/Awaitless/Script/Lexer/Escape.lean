import Awaitless.Script.Lexer.Cursor
import Awaitless.Script.Node

/-!
# Escapes and quoted text

* `readEscape` — what stands behind a backslash in a string or a template.
* `readQuoted`, `readTemplate` — the text of a string and of a piece of a template.
-/

namespace Awaitless.Script

open Text

/-- What stands behind a backslash: its value, its length, and what is wrong with it. -/
structure Escape where
  value : Units
  length : Nat
  flaw : LiteralFlaw := .sound
  sound : Bool := true
deriving Inhabited

/-- Exactly four hexadecimal digits. -/
def hex4? : List Char → Option Nat
  | a :: b :: c :: d :: _ =>
    if [a, b, c, d].all (isDigitOf 16) then some (digitsValue 16 [a, b, c, d]) else none
  | _ => none

def isHighSurrogate (n : Nat) : Bool := 0xD800 ≤ n && n < 0xDC00

def isLowSurrogate (n : Nat) : Bool := 0xDC00 ≤ n && n < 0xE000

/-- One unit; half of a pair stays a half. -/
def unitOf (n : Nat) : CodeUnit :=
  if isHighSurrogate n || isLowSurrogate n then .surrogate n else .scalar (Char.ofNat n)

/-- The escape behind `u` : four digits, two such escapes that form a pair, or digits in braces. -/
def readUnicode (rest : List Char) : Escape :=
  match rest with
  | '{' :: inner =>
    let digits := inner.takeWhile (isDigitOf 16)
    let value := digitsValue 16 digits
    match inner.drop digits.length with
    | '}' :: _ =>
      if digits.isEmpty || 0x10FFFF < value then ⟨[], 1, .sound, false⟩
      else ⟨[unitOf value], digits.length + 3, .sound, true⟩
    | _ => ⟨[], 1, .sound, false⟩
  | _ =>
    match hex4? rest with
    | none => ⟨[], 1, .sound, false⟩
    | some high =>
      let single : Escape := ⟨[unitOf high], 5, .sound, true⟩
      if isHighSurrogate high then
        match rest.drop 4 with
        | '\\' :: 'u' :: second =>
          match hex4? second with
          | some low =>
            if isLowSurrogate low then
              let code := 0x10000 + (high - 0xD800) * 0x400 + (low - 0xDC00)
              ⟨[.scalar (Char.ofNat code)], 11, .sound, true⟩
            else single
          | none => single
        | _ => single
      else single

/-- One to three octal digits that stay below 256. A zero in front of a zero is no flaw. -/
def readOctal (first : Char) (rest : List Char) : Escape :=
  let limit := if first < '4' then 2 else 1
  let digits := first :: (rest.take limit).takeWhile (isDigitOf 8)
  let flaw : LiteralFlaw := if first = '0' && rest.head? == some '0' then .sound else .octal
  ⟨[.scalar (Char.ofNat (digitsValue 8 digits))], digits.length, flaw, true⟩

/-- What stands behind a backslash. -/
def readEscape (inTemplate : Bool) (text : List Char) : Escape :=
  let one (c : Char) : Escape := ⟨[.scalar c], 1, .sound, true⟩
  match text with
  | [] => ⟨[], 0, .sound, true⟩
  | '\r' :: '\n' :: _ => ⟨[], 2, .sound, true⟩
  | 'n' :: _ => one '\n'
  | 'r' :: _ => one '\r'
  | 't' :: _ => one '\t'
  | 'b' :: _ => one '\x08'
  | 'v' :: _ => one '\x0b'
  | 'f' :: _ => one '\x0c'
  | 'x' :: a :: b :: _ =>
    if isDigitOf 16 a && isDigitOf 16 b then
      ⟨[.scalar (Char.ofNat (digitsValue 16 [a, b]))], 3, .sound, true⟩
    else ⟨[], 1, .sound, false⟩
  | 'x' :: _ => ⟨[], 1, .sound, false⟩
  | 'u' :: rest => readUnicode rest
  | '0' :: rest =>
    if !(rest.head?.any isDigit) then one '\x00'
    else if inTemplate then ⟨[], 1, .sound, false⟩
    else readOctal '0' rest
  | c :: rest =>
    if isNewline c then ⟨[], 1, .sound, true⟩
    else if isDigit c then
      if inTemplate then ⟨[], 1, .sound, false⟩
      else if c < '8' then readOctal c rest
      else ⟨[.scalar c], 1, .decimalEscape, true⟩
    else one c

/-- The text of a string or of a piece of a template. -/
structure QuotedText where
  /-- The value in reverse. -/
  reversed : Units := []
  /-- The number of characters up to the end mark. -/
  length : Nat := 0
  flaw : LiteralFlaw := .sound
  /-- The number of escapes that stand for nothing. -/
  wrongEscapes : Nat := 0
  /-- Whether the source ends behind a backslash. -/
  openEscape : Bool := false
  /-- Whether the end mark is there. -/
  closed : Bool := false
deriving Inhabited

namespace QuotedText

def push (q : QuotedText) (c : Char) : QuotedText :=
  { q with reversed := .scalar c :: q.reversed, length := q.length + 1 }

/-- Takes an escape in; the first flaw counts. -/
def escape (q : QuotedText) (e : Escape) : QuotedText :=
  { q with
    reversed := e.value.reverse ++ q.reversed
    length := q.length + 1 + e.length
    flaw := if q.flaw = .sound then e.flaw else q.flaw
    wrongEscapes := if e.sound then q.wrongEscapes else q.wrongEscapes + 1
    openEscape := e.length == 0 }

def value (q : QuotedText) : Units := q.reversed.reverse

/-- The flaw of a string that is written as `raw` between its quotes. It is not looked for where
the value, as ordinary text, is as long as the string. -/
def flawOf (q : QuotedText) (raw : String) : LiteralFlaw :=
  if q.flaw == .sound || raw.utf8ByteSize + 2 == q.value.toString.utf8ByteSize then .sound
  else q.flaw

end QuotedText

/-- Reads a string up to its closing quote; `skip` characters belong to an escape that was read
already. A line end closes nothing. -/
def readQuoted (quote : Char) : (skip : Nat) → List Char → QuotedText → QuotedText
  | _, [], q => q
  | skip + 1, _ :: rest, q => readQuoted quote skip rest q
  | 0, c :: rest, q =>
    if c = quote then { q with closed := true }
    else if c = '\\' then
      let e := readEscape false rest
      readQuoted quote e.length rest (q.escape e)
    else if c = '\n' || c = '\r' then q
    else readQuoted quote 0 rest (q.push c)

/-- Reads a piece of a template up to a backtick or an opening of a value. -/
def readTemplate : (skip : Nat) → List Char → QuotedText → QuotedText
  | _, [], q => q
  | skip + 1, _ :: rest, q => readTemplate skip rest q
  | 0, c :: rest, q =>
    if c = '\x60' then { q with closed := true }
    else if c = '$' && rest.head? == some ('{') then { q with closed := true }
    else if c = '\\' then
      let e := readEscape true rest
      readTemplate e.length rest (q.escape e)
    else readTemplate 0 rest (q.push c)

/-- The source text of a template piece; every kind of line end counts as a line feed. -/
def normalizeNewlines : List Char → List Char
  | '\r' :: '\n' :: rest => '\n' :: normalizeNewlines rest
  | '\r' :: rest => '\n' :: normalizeNewlines rest
  | c :: rest => c :: normalizeNewlines rest
  | [] => []

/-- The length of the body of a regular expression up to its closing slash, if there is one. -/
def regexLength? : (skip : Nat) → (inClass : Bool) → List Char → Nat → Option Nat
  | _, _, [], _ => none
  | skip + 1, inClass, c :: rest, n =>
    if isNewline c then none else regexLength? skip inClass rest (n + 1)
  | 0, inClass, c :: rest, n =>
    if isNewline c then none
    else if c = '\\' then regexLength? 1 inClass rest (n + 1)
    else if c = '[' then regexLength? 0 true rest (n + 1)
    else if c = ']' then regexLength? 0 false rest (n + 1)
    else if c = '/' && !inClass then some n
    else regexLength? 0 inClass rest (n + 1)

end Awaitless.Script
