import Awaitless.Decimal.Minimal
import Awaitless.Script.Node
import Awaitless.Script.Printer.State

/-!
# Literals and names

* `Quote`, `Quote.cheapest` — the quotes of a string, and those that need the fewest escapes.
* `stringLiteral`, `numberLiteral`, `regexLiteral`, `templateText`, `moduleName` — the literals.
-/

namespace Awaitless.Script.Printer

open Decimal Text

/-! ## Strings -/

inductive Quote where
  | double
  | single
  | backtick
deriving Repr, DecidableEq, Inhabited

namespace Quote

def mark : Quote → Char
  | double => '"'
  | single => '\''
  | backtick => '\x60'

/-- What it costs to write a text in these quotes: one for each escape, less one for each line end
that needs none. -/
def cost (q : Quote) : Units → Int
  | [] => 0
  | .scalar c :: rest =>
    let own : Int :=
      if c == q.mark then 1
      else if q == backtick && c == '\n' then -1
      else if q == backtick && c == '$' && rest.head? == some (.scalar '{') then 1
      else 0
    own + cost q rest
  | .surrogate _ :: rest => cost q rest

/-- The quotes with the least cost; of equal ones, the first of backtick, double and single. -/
def cheapest (takesBacktick : Bool) (text : Units) : Quote :=
  let d := double.cost text
  let s := single.cost text
  let b := backtick.cost text
  if takesBacktick && b ≤ d && b ≤ s then backtick
  else if d ≤ s then double
  else single

end Quote

/-- The text of a character in a string in the given quotes; `next` stands behind it. -/
def escaped (q : Quote) (c : Char) (rest : Units) : List Char :=
  let next : Option Char :=
    match rest with
    | .scalar d :: _ => some d
    | _ => none
  let follows (text : List Char) : Bool :=
    (rest.take text.length).map (fun
      | .scalar d => d.toLower
      | .surrogate _ => ' ') == text
  if c == q.mark then ['\\', c]
  else
    match c with
    | '\x00' => if next.any Char.isDigit then "\\x00".toList else "\\0".toList
    | '\x07' => "\\x07".toList
    | '\x08' => "\\b".toList
    | '\x0b' => "\\v".toList
    | '\x0c' => "\\f".toList
    | '\n' => if q == .backtick then ['\n'] else "\\n".toList
    | '\r' => "\\r".toList
    | '\x1b' => "\\x1B".toList
    | '\\' => "\\\\".toList
    | '\u00a0' => "\\xA0".toList
    | '\u2028' => "\\u2028".toList
    | '\u2029' => "\\u2029".toList
    | '$' => if q == .backtick && next == some '{' then "\\$".toList else ['$']
    | '<' => if follows "/script".toList then "<\\".toList else ['<']
    | _ => [c]

/-- The text of a string between its quotes. -/
def escapedUnits (q : Quote) : Units → List Char
  | [] => []
  | .scalar c :: rest => escaped q c rest ++ escapedUnits q rest
  | .surrogate n :: rest => '\\' :: 'u' :: Units.hex4 n ++ escapedUnits q rest

/-- A string; where it may be minified to a template, `takesBacktick`. -/
def stringLiteral (takesBacktick : Bool) (value : Units) : W Unit := do
  let q := if ← minify then Quote.cheapest takesBacktick value else .double
  writeChars (q.mark :: escapedUnits q value ++ [q.mark])

/-- A name of a binding as it is seen from outside of the module. -/
def moduleName : ModuleName → W Unit
  | .word name => write name
  | .quoted text => stringLiteral false text.value

/-! ## Other literals -/

/-- A number. Minified, overflow is a quotient. -/
def numberLiteral (value : Binary64) (level : Precedence) : W Unit := do
  match value with
  | .infinite =>
    if ← minify then wrap (Precedence.multiplicative ≤ level) (word "1/0")
    else word "Infinity"
  | _ =>
    let text := Minimal.chars value
    separateWord
    writeChars text
    if Minimal.looksLikeInteger text then setEdge .integer

/-- A regular expression; its slash must not continue a slash or a `<` before it. -/
def regexLiteral (pattern flags : String) : W Unit := do
  let startsScript := "script".toList == (pattern.toList.take 6).map Char.toLower
  match (← get).output with
  | '/' :: _ => space
  | '<' :: _ => if startsScript then space
  | _ => pure ()
  write ("/" ++ pattern ++ "/" ++ flags)
  setEdge .regex

/-- A piece of a template, which is kept as it was written. -/
def templateText (text : String) : W Unit :=
  writeChars (escapeScriptEnd text.toList)

end Awaitless.Script.Printer
