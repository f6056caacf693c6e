import Awaitless.Script.EarlyErrors.Findings

/-!
# Module items

* `checkImport`, `checkExportSpecifier` — the names and strings of imports and exports.
* `undefinedExports` — exports of names that the module does not declare.
-/

namespace Awaitless.Script.EarlyErrors

/-- A name as it is seen from outside of the module. -/
def checkModuleName : ModuleName → M Unit
  | .word _ => pure ()
  | .quoted text => checkFlaw text.flaw

/-- The name of a module and its attributes. -/
def checkSource (source : ModuleSource) : M Unit := do
  checkFlaw source.name.flaw
  (source.attributes.toList.flatMap (·.entries)).forM fun (key, value) => do
    checkModuleName key
    checkFlaw value.flaw

def checkImportSpecifier (specifier : ImportSpecifier) : M Unit := do
  let _ ← declare .imported specifier.binding
  match specifier with
  | .named imported _ => checkModuleName imported
  | .whole _ | .default _ => pure ()
  checkBinding specifier.binding

def checkImport (d : ImportDeclaration) : M Unit := do
  (d.specifiers.getD []).forM checkImportSpecifier
  checkSource d.source

/-- An entry of an export clause. Where no module follows, it uses a name of this one. -/
def checkExportSpecifier (isLocal : Bool) (s : Setting) (specifier : ExportSpecifier) :
    M Unit := do
  match specifier.binding with
  | .word name => if isLocal then checkReference name s
  | .quoted text => checkFlaw text.flaw
  checkModuleName specifier.exported

/-- A module item that stands below the top of the module. -/
def checkItem (s : Setting) (e : EarlyError) : M Unit := do
  unless s.isItem do report e

/-- The names of exports that no declaration of the module stands for. -/
def undefinedExports (scopes : Scopes) (items : List Node) : List EarlyError :=
  items.flatMap fun item =>
    match item.form with
    | .exportNames specifiers none =>
      (specifiers.map (·.binding.text)).filterMap fun name =>
        if scopes.declaredAtRoot name then none else some (.undefinedExport name)
    | _ => []

end Awaitless.Script.EarlyErrors
