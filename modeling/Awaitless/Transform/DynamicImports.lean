import Awaitless.Bundle.Basic
import Awaitless.Path
import Awaitless.Script.Make

/-!
# Dynamic imports wait

A module that is imported dynamically has to settle before its names are handed out, unless it is
known to be left untouched.

* `needsContinuation` — whether the module behind a specifier may have to settle.
* `continueImports` — adds the continuation to every dynamic import of a tree.
-/

namespace Awaitless.Transform

open Script

/-- Whether the module behind a dynamic import may have to settle: all but the chunks of the bundle
that are left untouched. -/
def needsContinuation (bundle : Bundle) (importer : String) (source : Node) : Bool :=
  match source.form with
  | .stringLiteral value _ =>
    match resolve? importer value.toString with
    | some target =>
      match bundle.get? target with
      | some record => record.needsTransform
      | none => true
    | none => true
  | _ => true

/-- Adds the continuation to a node that is a dynamic import. -/
def continueImport (bundle : Bundle) (importer promise : String) (n : Node) : Node :=
  match n.form with
  | .dynamicImport _ source _ =>
    if needsContinuation bundle importer source then Make.continued n promise else n
  | _ => n

/-- Adds the continuation to every dynamic import of a tree. -/
def continueImports (bundle : Bundle) (importer promise : String) : Node → Node :=
  Node.bottomUp (continueImport bundle importer promise)

end Awaitless.Transform
