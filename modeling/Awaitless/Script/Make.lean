import Awaitless.Script.Node
import Awaitless.Text.Identifier

/-!
# Making syntax

The pieces of syntax that a transformation adds. None of them stands in the source.

* `Make.arrow`, `Make.immediately`, `Make.afterAll` — functions, and calls of them.
* `Make.declare?`, `Make.declareAs`, `Make.assign` — declarations and assignments.
* `Make.importNamed`, `Make.exportNamed` — module items.
-/

namespace Awaitless.Script.Make

open Text

/-! ## Expressions -/

def name (text : String) : Node := .made (.identifier text)

/-- `object.property` -/
def member (object : Node) (property : String) : Node :=
  .made (.member object property false)

/-- `callee(arguments)` -/
def call (callee : Node) (arguments : List Node) : Node :=
  .made (.call callee arguments false false)

/-- `[elements]` -/
def array (elements : List Node) : Node := .made (.array elements)

/-- `(function)()` -/
def immediately (function : Node) : Node :=
  call (.made (.parenthesized function)) []

/-- `(parameters) => statements` with a body in braces. -/
def arrow (isAsync : Bool) (parameters : List String) (statements : List Node) : Node :=
  .made (.arrow { isAsync } (parameters.map name) (.made (.body [] statements)))

/-- `await value` -/
def wait (value : Node) : Node := .made (.awaitValue value)

/-! ## Statements -/

def statement (value : Node) : Node := .made (.expression value)

def returns (value : Node) : Node := .made (.returns (some value))

def isObjectPattern (n : Node) : Bool :=
  match n.form with
  | .objectPattern _ _ => true
  | _ => false

/-- `target = value;`, in parentheses if it would be read as a block. -/
def assign (target value : Node) : Node :=
  let assignment : Node := .made (.assign none target value)
  statement (if isObjectPattern target then .made (.parenthesized assignment) else assignment)

def declarator (text : String) (value : Option Node) : Node :=
  .made (.declarator (name text) value)

/-- `let names;`, unless there are none. -/
def declare? (names : List String) : Option Node :=
  if names.isEmpty then none
  else some (.made (.bindings .lexical (names.map fun n => declarator n none)))

/-- `let text = value;` -/
def declareAs (text : String) (value : Node) : Node :=
  .made (.bindings .lexical [declarator text (some value)])

/-! ## Completion promises -/

/-- `(() => { try { return text; } catch {} })()`: reading an imported binding may fail while the
module that exports it is still being evaluated, which happens in import cycles. -/
def guardedRead (text : String) : Node :=
  let attempt : Node := .made (.guarded (.made (.block [returns (name text)]))
    (some (.made (.handler none (.made (.block []))))) none)
  immediately (arrow false [] [attempt])

/-- `Promise.all(promises).then(closure)` -/
def afterAll (promises closure : Node) : Node :=
  call (member (call (member (name "Promise") "all") [promises]) "then") [closure]

/-- `imported.then(async (m) => { await m.promise; return m; })` -/
def continued (imported : Node) (promise : String) : Node :=
  let body := [statement (wait (member (name "m") promise)), returns (name "m")]
  call (member imported "then") [arrow true ["m"] body]

/-! ## Module items -/

/-- A name as it is seen from outside of a module: a word if it can be one. -/
def outerName (text : String) : ModuleName :=
  if isIdentifierName text then .word text else .quoted ⟨Units.ofString text, .sound⟩

def importSpecifier (imported binding : String) : ImportSpecifier :=
  .named (outerName imported) binding

/-- `import { specifiers } from source;` -/
def importNamed (source : StringText) (specifiers : List ImportSpecifier) : Node :=
  .made (.importItem { phase := none, specifiers := some specifiers, source := ⟨source, none⟩ })

/-- `export { binding as exported, … };` from pairs of the exported name and the binding. -/
def exportNamed (pairs : List (String × String)) : Node :=
  let specifier (pair : String × String) : ExportSpecifier :=
    { start := 0, binding := .word pair.2, exportedStart := 0, exported := outerName pair.1 }
  .made (.exportNames (pairs.map specifier) none)

/-- The name that is seen from outside is the name that was asked for. -/
theorem text_outerName (text : String) : (outerName text).text = text := by
  unfold outerName
  split
  · rfl
  · exact Units.toString_ofString text

end Awaitless.Script.Make
