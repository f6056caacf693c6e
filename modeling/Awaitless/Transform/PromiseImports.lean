import Awaitless.Bundle.Basic
import Awaitless.Path
import Awaitless.Script.Make
import Awaitless.Settings

/-!
# Imports of completion promises

A module that imports a transformed chunk imports its completion promise too.

* `PromiseImports.thread` — the import declarations with the promises added, and the local names of
  the promises.
-/

namespace Awaitless.Transform.PromiseImports

open Script

/-- Whether an import is from a chunk that gets transformed. -/
def isFromTransformed (bundle : Bundle) (importer : String) (d : ImportDeclaration) : Bool :=
  match resolve? importer d.source.name.toString with
  | some target => bundle.isTransformed target
  | none => false

/-- Whether an import binds the whole module; such a declaration takes no named entry. -/
def bindsWhole (d : ImportDeclaration) : Bool :=
  (d.specifiers.getD []).any fun
    | .whole _ => true
    | _ => false

/-- A declaration with one more entry, which stands in a declaration of its own if it has to. -/
def addSpecifier (span : Span) (d : ImportDeclaration) (entry : ImportSpecifier) : List Node :=
  if bindsWhole d then [.mk span (.importItem d), Make.importNamed d.source.name [entry]]
  else [.mk span (.importItem { d with specifiers := some (d.specifiers.getD [] ++ [entry]) })]

/-- The import declarations with the promises added, numbered from `next` on, and the local names
of the promises. -/
def threadFrom (bundle : Bundle) (importer : String) (settings : Settings) (next : Nat) :
    List (Span × ImportDeclaration) → List Node × List String
  | [] => ([], [])
  | (span, d) :: rest =>
    if isFromTransformed bundle importer d then
      let binding := settings.importName next
      let entry := Make.importSpecifier settings.promiseName binding
      let (nodes, names) := threadFrom bundle importer settings (next + 1) rest
      (addSpecifier span d entry ++ nodes, binding :: names)
    else
      let (nodes, names) := threadFrom bundle importer settings next rest
      (.mk span (.importItem d) :: nodes, names)

/-- The import declarations with the promises added, and the local names of the promises. -/
def thread (bundle : Bundle) (importer : String) (settings : Settings)
    (imports : List (Span × ImportDeclaration)) : List Node × List String :=
  threadFrom bundle importer settings 0 imports

end Awaitless.Transform.PromiseImports
