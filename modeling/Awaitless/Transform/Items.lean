import Awaitless.Naming
import Awaitless.Problem
import Awaitless.Script.Kind
import Awaitless.Script.Make
import Awaitless.Script.Pattern

/-!
# The items of a module

A module is a row of imports, exports and statements. To move its statements elsewhere, they are
taken apart: what is exported is noted, and the word `export` is dropped.

* `Exports` — the exported names with the bindings that they read, in order.
* `Items`, `Items.ofStatements` — the imports, the exports, and the statements that are left.
-/

namespace Awaitless.Transform

open Script

/-! ## Exports -/

/-- Exported names with the bindings that they read, in the order in which they appear. -/
abbrev Exports := List (String × String)

namespace Exports

/-- Notes an export; a name that is exported again keeps its place. -/
def insert (exported binding : String) : Exports → Exports
  | [] => [(exported, binding)]
  | entry :: rest =>
    if entry.1 = exported then (exported, binding) :: rest
    else entry :: insert exported binding rest

/-- Notes bindings that are exported under their own names. -/
def insertAll (exports : Exports) (names : List String) : Exports :=
  names.foldl (fun e name => e.insert name name) exports

/-- A name that is exported for the first time comes last. -/
theorem insert_of_not_mem {exported binding : String} {exports : Exports}
    (h : exported ∉ exports.map (·.1)) :
    exports.insert exported binding = exports ++ [(exported, binding)] := by
  induction exports with
  | nil => rfl
  | cons entry rest ih =>
    simp only [List.map_cons, List.mem_cons, not_or] at h
    simp [insert, Ne.symm h.1, ih h.2]

end Exports

/-! ## Items -/

/-- A module taken apart. -/
structure Items where
  imports : List (Span × ImportDeclaration) := []
  exports : Exports := []
  statements : List Node := []
  /-- Names for default exports that have none. -/
  names : NameChain
deriving Inhabited

namespace Items

def addStatement (items : Items) (s : Node) : Items :=
  { items with statements := items.statements ++ [s] }

/-- Notes that a binding is the default export. -/
def exportDefault (items : Items) (binding : String) : Items :=
  { items with exports := items.exports.insert "default" binding }

/-- A value that is exported by default, under a name made for it. -/
def addDefaultValue (items : Items) (value : Node) : Items :=
  let (name, names) := items.names.next
  ({ items with names }.exportDefault name).addStatement (Make.declareAs name value)

/-- The name that a declaration of a function or class binds. -/
def declaredName? (name : Option Node) : Option String :=
  name.bind Node.name?

/-- The bindings of an exported declaration; `none` for declarations that have no value. -/
def exportedBindings? (declaration : Node) : Option (List String) :=
  match declaration.form with
  | .bindings _ ds => some <| ds.flatMap fun d =>
    match d.form with
    | .declarator target _ => target.boundNames
    | _ => []
  | .function _ name _ _ => (declaredName? name).map ([·])
  | .classLike _ _ name _ _ => (declaredName? name).map ([·])
  | _ => none

/-- The value, function or class behind `export default`. -/
def addDefault (moduleName : String) (items : Items) (value : Node) :
    Except UnsupportedShape Items :=
  match value.form with
  | .typeDeclaration _ => .error ⟨moduleName, .defaultExport, "TSInterfaceDeclaration"⟩
  | .function _ name _ _ | .classLike _ _ name _ _ =>
    match declaredName? name with
    | some n => .ok ((items.exportDefault n).addStatement value)
    | none => .ok (items.addDefaultValue value)
  | _ => .ok (items.addDefaultValue value)

/-- One more statement of the module. -/
def add (moduleName : String) (items : Items) (s : Node) : Except UnsupportedShape Items :=
  match s.form with
  | .exportAll _ _ | .exportAssignment _ | .exportNamespace _ =>
    .error ⟨moduleName, .topLevelStatement, s.itemKind.text⟩
  | .importItem d => .ok { items with imports := items.imports ++ [(s.span, d)] }
  | .exportNames _ (some _) => .error ⟨moduleName, .reExport, s.itemKind.text⟩
  | .exportNames specifiers none =>
    let note (e : Exports) (x : ExportSpecifier) : Exports :=
      e.insert x.exported.text x.binding.text
    .ok { items with exports := specifiers.foldl note items.exports }
  | .exportDeclaration d =>
    match exportedBindings? d with
    | some names =>
      .ok ({ items with exports := items.exports.insertAll names }.addStatement d)
    | none => .error ⟨moduleName, .exportDeclaration, "TSDeclaration"⟩
  | .exportDefault value => addDefault moduleName items value
  | _ => .ok (items.addStatement s)

/-- The parts of a module, or the first item that has no place among them. Names for default
exports are derived from the text of the module. -/
def ofStatements (moduleName source : String) (statements : List Node) :
    Except UnsupportedShape Items :=
  statements.foldlM (add moduleName) { names := NameChain.start source }

/-- The names that the imports bind. -/
def importBindings (items : Items) : List String :=
  items.imports.flatMap fun (_, d) => d.bindings

end Items

end Awaitless.Transform
