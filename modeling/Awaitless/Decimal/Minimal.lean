import Awaitless.Decimal.Shortest

/-!
# The shortest literal of a number

A number has many literals: with or without a zero before the point, with an exponent, in base
sixteen. The shortest decimal is respelled as long as that saves a character.

* `Minimal.chars` — the literal.
* `Minimal.looksLikeInteger` — whether a point behind the literal would belong to it.
-/

namespace Awaitless.Decimal.Minimal

def number (n : Nat) : List Char := (toString n).toList

/-- The shorter of two texts; the first one, if they are equally long. -/
def shorter (old new : List Char) : List Char :=
  if new.length < old.length then new else old

/-- `0.5` becomes `.5`, and `1e+21` becomes `1e21`. -/
def stripped (text : List Char) : List Char :=
  let fraction :=
    match text with
    | '0' :: '.' :: rest => '.' :: rest
    | _ => text
  fraction.filter (· != '+')

/-- `.0001` becomes `1e-4`. -/
def smallFraction (text : List Char) : List Char :=
  match text with
  | '.' :: '0' :: rest =>
    let digits := rest.dropWhile (· == '0')
    let zeros := rest.length - digits.length + 1
    shorter text (digits ++ 'e' :: '-' :: number (digits.length + zeros))
  | _ => text

/-- `1000` becomes `1e3`. -/
def foldZeros (text : List Char) : List Char :=
  let base := (text.reverse.dropWhile (· == '0')).reverse
  let zeros := text.length - base.length
  if zeros = 0 then text else shorter text (base ++ 'e' :: number zeros)

/-- The number that a row of digits with an optional sign stands for. -/
def readExponent (text : List Char) : Int :=
  match text with
  | '-' :: rest => -(rest.foldl (fun n c => n * 10 + (c.toNat - 48)) 0 : Nat)
  | _ => (text.foldl (fun n c => n * 10 + (c.toNat - 48)) 0 : Nat)

/-- `1.2e101` becomes `12e100`. -/
def movePoint (text : List Char) : List Char :=
  let whole := text.takeWhile (· != '.')
  match text.dropWhile (· != '.') with
  | '.' :: rest =>
    let fraction := rest.takeWhile (· != 'e')
    match rest.dropWhile (· != 'e') with
    | 'e' :: exponent =>
      let moved := readExponent exponent - fraction.length
      shorter text (whole ++ fraction ++ 'e' :: (toString moved).toList)
    | _ => text
  | _ => text

/-- The literal in base sixteen. -/
def hexadecimal (n : Nat) : List Char := '0' :: 'x' :: Nat.toDigits 16 n

/-- The shortest literal of a finite number. -/
def chars (x : Binary64) : List Char :=
  let plain := Shortest.chars x
  match x.toNat? with
  | some n =>
    if n < 1000 then plain
    else
      let text := stripped plain
      let hex := hexadecimal n
      if hex.length < text.length then hex else movePoint (foldZeros text)
  | none => movePoint (foldZeros (smallFraction (stripped plain)))

/-- Whether a point behind the literal would be read as its decimal point. -/
def looksLikeInteger (text : List Char) : Bool :=
  text.all fun c => c != '.' && c != 'e' && c != 'x'

end Awaitless.Decimal.Minimal
