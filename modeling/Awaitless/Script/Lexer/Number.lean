import Awaitless.Script.Lexer.Cursor
import Awaitless.Script.Diagnostic
import Awaitless.Script.Token

/-!
# Numbers in the source

* `readNumber` — the number at a place that starts with a digit, or with a point and a digit.
-/

namespace Awaitless.Script

open Decimal Text

/-- A number token, the place behind it, and what is wrong with it. -/
structure NumberRead where
  kind : TokenKind
  next : Cursor
  errors : List LexicalError := []
deriving Inhabited

/-- The complaint about a character that cannot stand at a place. -/
def unexpectedAt (c : Cursor) : LexicalError :=
  match c.rest with
  | [] => .unexpectedEnd
  | ch :: _ => .unexpectedCharacter ch

/-- Digits with single underscores between them: their text, the place behind them, and the
complaint if an underscore stands wrongly. -/
def readDigits (p : Char → Bool) : List Char → Nat → List Char × Cursor × List LexicalError
  | [], n => ([], ⟨[], n⟩, [])
  | '_' :: rest, n =>
    match rest with
    | [] => ([], ⟨[], n + 1⟩, [unexpectedAt ⟨[], n + 1⟩])
    | d :: more =>
      if p d then
        let (ds, c, es) := readDigits p more (n + 2)
        (d :: ds, c, es)
      else ([], ⟨d :: more, n + 1⟩, [unexpectedAt ⟨d :: more, n + 1⟩])
  | d :: rest, n =>
    if p d then
      let (ds, c, es) := readDigits p rest (n + 1)
      (d :: ds, c, es)
    else ([], ⟨d :: rest, n⟩, [])

/-- Digits of which there has to be one. -/
def requireDigits (p : Char → Bool) (c : Cursor) : List Char × Cursor × List LexicalError :=
  match c.rest with
  | d :: _ => if p d then readDigits p c.rest c.position else ([], c, [unexpectedAt c])
  | [] => ([], c, [unexpectedAt c])

/-- A number must not run into a name. -/
def checkEnd (r : NumberRead) : NumberRead :=
  match r.next.rest with
  | c :: _ =>
    if isDigit c || isIdentifierStart c then
      let (_, next) := (r.next.drop 1).span isIdentifierStart
      ⟨.invalid, next, r.errors ++ [.invalidNumberEnd]⟩
    else r
  | [] => r

/-- Whether a letter begins an exponent. -/
def isExponentMark (c : Char) : Bool := c = 'e' || c = 'E'

/-- The exponent at a place where its letter stands, and the place behind it. -/
def readExponent (c : Cursor) : Int × Cursor × List LexicalError :=
  let (isNegative, digits) : Bool × Cursor :=
    match c.rest.drop 1 with
    | '-' :: _ => (true, c.drop 2)
    | '+' :: _ => (false, c.drop 2)
    | _ => (false, c.drop 1)
  let (ds, next, es) := requireDigits isDigit digits
  let value : Int := digitsValue 10 ds
  (if isNegative then -value else value, next, es)

/-- The number with the given whole digits and decimal places and with the exponent that starts
here. What follows the number is not looked at. -/
def readExponential (whole places : List Char) (c : Cursor) (flaw : LiteralFlaw) : NumberRead :=
  let (exponent, next, es) := readExponent c
  let value := Binary64.ofDecimal (digitsValue 10 (whole ++ places)) (exponent - places.length)
  ⟨.number value flaw .fraction, next, es⟩

/-- The end of a number whose whole digits and decimal places are known. -/
def finishDecimal (whole places : List Char) (c : Cursor) (flaw : LiteralFlaw) (form : NumberClass)
    (errors : List LexicalError) : NumberRead :=
  if c.rest.head?.any isExponentMark then
    let r := readExponential whole places c flaw
    checkEnd ⟨r.kind, r.next, errors ++ r.errors⟩
  else
    let value := Binary64.ofDecimal (digitsValue 10 (whole ++ places)) (-places.length)
    checkEnd ⟨.number value flaw form, c, errors⟩

/-- The decimal places behind a point that was read. -/
def readPlaces (whole : List Char) (c : Cursor) (flaw : LiteralFlaw) (errors : List LexicalError) :
    NumberRead :=
  match c.rest with
  | d :: _ =>
    if isDigit d then
      let (places, next, es) := readDigits isDigit c.rest c.position
      finishDecimal whole places next flaw .fraction (errors ++ es)
    else finishDecimal whole [] c flaw .fraction errors
  | [] => finishDecimal whole [] c flaw .fraction errors

/-- The most digits in a base other than ten whose value fits into 64 bits. -/
def exactDigits (base : Nat) : Nat :=
  if base = 2 then 64 else if base = 8 then 21 else 16

/-- The value of digits in a base other than ten. A text that is longer than the digits that fit
into 64 bits, `length` with its underscores, is rounded at every step. -/
def baseValue (base : Nat) (digits : List Char) (length : Nat) : Binary64 :=
  if length ≤ exactDigits base then Binary64.ofRatio (digitsValue base digits) 1
  else Binary64.accumulate base (digits.map fun c => (digitValue? c).getD 0)

/-- A number in a base other than ten, behind its marker. -/
def readBase (base : Nat) (form : NumberClass) (c : Cursor) : NumberRead :=
  let (ds, next, es) := requireDigits (isDigitOf base) c
  if !es.isEmpty then ⟨.invalid, next, es⟩
  else
    match next.rest with
    | 'n' :: _ => checkEnd ⟨.bigint (digitsValue base ds) form, next.drop 1, []⟩
    | _ =>
      let value := baseValue base ds (next.position - c.position)
      checkEnd ⟨.number value .sound form, next, []⟩

/-- A number that starts with `0` and a digit. Only one that is not octal takes a point or an
exponent, and the exponent only behind a small letter. -/
def readLegacy (c : Cursor) : NumberRead :=
  let (ds, next) := c.span isDigit
  if ds.all (isDigitOf 8) then
    checkEnd ⟨.number (baseValue 8 (ds.drop 1) (ds.length - 1)) .octal .octal, next, []⟩
  else
    match next.rest with
    | '.' :: _ => readPlaces ds (next.drop 1) .leadingZero []
    | 'e' :: _ => readExponential ds [] next .leadingZero
    | _ =>
      let value := Binary64.ofRatio (digitsValue 10 ds) 1
      checkEnd ⟨.number value .leadingZero .decimal, next, []⟩

/-- The number at a place that starts with a digit, or with a point and a digit. -/
def readNumber (c : Cursor) : NumberRead :=
  match c.rest with
  | '.' :: _ => readPlaces [] (c.drop 1) .sound []
  | '0' :: b :: _ =>
    if b = 'x' || b = 'X' then readBase 16 .hexadecimal (c.drop 2)
    else if b = 'o' || b = 'O' then readBase 8 .octal (c.drop 2)
    else if b = 'b' || b = 'B' then readBase 2 .binary (c.drop 2)
    else if b = 'n' then checkEnd ⟨.bigint 0 .decimal, c.drop 2, []⟩
    else if b = '.' then readPlaces ['0'] (c.drop 2) .sound []
    else if isExponentMark b then readExponential ['0'] [] (c.drop 1) .sound
    else if isDigit b then readLegacy c
    else finishDecimal ['0'] [] (c.drop 1) .sound .decimal []
  | _ =>
    let (ds, next, es) := readDigits isDigit c.rest c.position
    match next.rest with
    | '.' :: _ => readPlaces ds (next.drop 1) .sound es
    | 'n' :: _ => checkEnd ⟨.bigint (digitsValue 10 ds) .decimal, next.drop 1, es⟩
    | _ => finishDecimal ds [] next .sound .decimal es

end Awaitless.Script
