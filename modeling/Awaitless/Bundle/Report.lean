import Awaitless.Bundle.Basic
import Awaitless.Text.Units

/-!
# The report on a bundle

The records of a bundle as a JSON object, keyed by name and indented by two spaces.

* `Report.quote` — a text as a JSON string.
* `Report.text` — the report.
-/

namespace Awaitless.Report

/-- A character inside a JSON string. -/
def escapeChar (c : Char) : List Char :=
  match c with
  | '"' => ['\\', '"']
  | '\\' => ['\\', '\\']
  | '\x08' => ['\\', 'b']
  | '\x0c' => ['\\', 'f']
  | '\n' => ['\\', 'n']
  | '\r' => ['\\', 'r']
  | '\t' => ['\\', 't']
  | c => if c.toNat < 32 then '\\' :: 'u' :: Text.Units.hex4 c.toNat else [c]

/-- A text as a JSON string. -/
def quote (text : String) : String :=
  String.ofList ('"' :: (text.toList.flatMap escapeChar ++ ['"']))

/-- Members on lines of their own between two brackets; nothing stands between the brackets when
there are none. -/
def block (opening closing : Char) (indent : Nat) (members : List String) : String :=
  if members.isEmpty then String.ofList [opening, closing]
  else
    let line (depth : Nat) : String := "\n" ++ String.ofList (List.replicate (2 * depth) ' ')
    opening.toString ++ line (indent + 1) ++
      String.intercalate ("," ++ line (indent + 1)) members ++ line indent ++ closing.toString

def openBrace : Char := '{'
def closeBrace : Char := '}'

def list (indent : Nat) (names : List String) : String :=
  block '[' ']' indent (names.map quote)

def flag (b : Bool) : String := if b then "true" else "false"

/-- One record. -/
def record (b : Bundle) (r : Record) : String :=
  block openBrace closeBrace 1 [
    "\"imported\": " ++ list 2 r.imports,
    "\"importedBy\": " ++ list 2 (b.importerNames r),
    "\"localPattern\": " ++ ((r.blocking.map fun p => quote p.name).getD "null"),
    "\"transformNeeded\": " ++ flag r.needsTransform,
    "\"withTopLevelAwait\": " ++ flag r.awaits]

/-- The report on a bundle. -/
def text (b : Bundle) : String :=
  block openBrace closeBrace 0 (b.records.map fun r => quote r.name ++ ": " ++ record b r)

end Awaitless.Report
