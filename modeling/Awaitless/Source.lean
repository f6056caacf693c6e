import Awaitless.Problem
import Awaitless.Script.EarlyErrors
import Awaitless.Script.Print

/-!
# Reading the text of a module

* `Source.read` — the module that a text is, or the problem with it.
* `Source.check` — the same, for a chunk that also keeps the rules beyond the grammar.
-/

namespace Awaitless.Source

open Script

/-- The module that a text is; a problem tells the name of the chunk, if there is one. -/
def read (name : Option String) (text : String) (typed : Bool) : Except Problem Program :=
  match Program.parse text typed with
  | .ok program => .ok program
  | .error diagnostics => .error (.syntaxError name (diagnostics.map (·.message)))

/-- The module that a chunk is, if it keeps all rules. -/
def check (name : String) (text : String) : Except Problem Program := do
  let program ← read (some name) text false
  match program.earlyErrors with
  | [] => return program
  | errors => throw (.earlyError name (errors.map (·.message)))

end Awaitless.Source
