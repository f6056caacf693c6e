import Awaitless.Script.Parse
import Awaitless.Script.Printer.Statement

/-!
# Modules as text

* `Program.text` — the text of a module.
-/

namespace Awaitless.Script

namespace Printer

/-- The printer for every piece, down to a bounded depth of pieces in pieces. -/
def run : (depth : Nat) → Rules
  | 0, _ => pure ()
  | depth + 1, piece =>
    let rules := run depth
    match piece with
    | .statement n => statement rules n
    | .expression n place => expression rules n place
    | .pattern n => pattern rules n

/-- The module with its directives and the comments at its end. -/
def program (rules : Rules) (p : Program) : W Unit := do
  match p.interpreter with
  | some line => write ("#!" ++ line ++ "\n")
  | none => pure ()
  bodyStatements rules p.directives p.statements
  settleSemicolon
  commentsAt p.stop

/-- A node is printed at most twice before one of its parts is. -/
def depthOf (statements : List Node) : Nat :=
  3 * Node.total (statements.map Node.size) + 3

end Printer

open Printer in
/-- The text of a module. -/
def Program.text (p : Program) (minify : Bool) : String :=
  let start : State := { minify, comments := p.comments }
  let final := (program (run (depthOf p.statements)) p).run start
  String.ofList final.2.output.reverse

end Awaitless.Script
