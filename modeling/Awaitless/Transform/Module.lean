import Awaitless.Transform.Body
import Awaitless.Transform.DynamicImports
import Awaitless.Transform.PromiseImports
import Awaitless.Script.Parse

/-!
# The transformed module

The statements of the module run in an asynchronous closure. The bindings that it exports stand
outside, and the promise of the closure is exported beside them.

* `Transform.completion` — the value of the closure's run: its completion promise.
* `Transform.exportEntries` — the entries of the export clause.
* `Transform.statements`, `Transform.program` — the transformed module.
-/

namespace Awaitless.Transform

open Script

/-- What the transformation of a module depends on beside its text. -/
structure Surroundings where
  moduleName : String
  bundle : Bundle
  settings : Settings

/-- Whether a chunk of the bundle imports the module statically. -/
def Surroundings.isImported (s : Surroundings) : Bool :=
  (s.bundle.get? s.moduleName).any fun r => !r.importers.isEmpty

/-- Runs a closure, at once or when all awaited promises have settled. -/
def completion (awaited : List String) (closure : Node) : Node :=
  if awaited.isEmpty then Make.immediately closure
  else Make.afterAll (Make.array (awaited.map Make.guardedRead)) closure

/-- The entries of the export clause: the completion promise comes last, and nothing else is
exported under its name. -/
def exportEntries (exports : Exports) (promise : String) : List (String × String) :=
  exports.filter (fun entry => entry.1 ≠ promise) ++ [(promise, promise)]

/-- The bindings that are exported, each once. -/
def exportedBindings (exports : Exports) : List String :=
  distinct (exports.map (·.2))

/-- The statements that end the module: the completion promise, exported if anyone can ask for
it. -/
def ending (s : Surroundings) (exports : Exports) (promise : Node) : List Node :=
  if exports.isEmpty && !s.isImported then [Make.statement promise]
  else
    [Make.declareAs s.settings.promiseName promise,
      Make.exportNamed (exportEntries exports s.settings.promiseName)]

/-- The module put together again from its parts. -/
def assemble (s : Surroundings) (items : Items) (body : List Node) : List Node :=
  let exported := exportedBindings items.exports
  let closureBody := body.map (continueImports s.bundle s.moduleName s.settings.promiseName)
  let (imports, awaited) :=
    PromiseImports.thread s.bundle s.moduleName s.settings items.imports
  let hoisted := exported.filter fun n => !items.importBindings.contains n
  imports ++ (Make.declare? hoisted).toList ++
    ending s items.exports (completion awaited (Make.arrow true [] closureBody))

/-- The transformed statements of a module with the given text. -/
def statements (s : Surroundings) (source : String) (list : List Node) :
    Except UnsupportedShape (List Node) := do
  let items ← Items.ofStatements s.moduleName source list
  let body ← Body.ofStatements s.moduleName (exportedBindings items.exports) items.statements
  return assemble s items body

/-- The transformed module; directives and comments stay. -/
def program (s : Surroundings) (source : String) (p : Program) :
    Except UnsupportedShape Program := do
  return { p with statements := ← statements s source p.statements }

end Awaitless.Transform
