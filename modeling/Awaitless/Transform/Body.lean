import Awaitless.Transform.Items

/-!
# Declarations become assignments

Exported bindings are declared at the top of the module. Where the statements of the module run
inside of a closure, their declarations turn into assignments.

* `Body.ofStatement`, `Body.ofStatements` — the statements of the closure.
-/

namespace Awaitless.Transform.Body

open Script

/-- The target and the value of a declarator. -/
def declaratorParts (d : Node) : Option (Node × Option Node) :=
  match d.form with
  | .declarator target value => some (target, value)
  | _ => none

/-- The names that a declarator binds. -/
def declaredNames (d : Node) : List String :=
  match declaratorParts d with
  | some (target, _) => target.boundNames
  | none => []

/-- The assignment that a declarator turns into, if it has a value. -/
def assignment? (moduleName : String) (d : Node) : Except UnsupportedShape (Option Node) :=
  match declaratorParts d with
  | some (pattern, some value) =>
    match pattern.toTarget false with
    | .ok target => .ok (some (Make.assign target value))
    | .error kind => .error ⟨moduleName, .destructuringPattern, kind⟩
  | _ => .ok none

/-- A declaration of variables, some of which are exported: the others are declared, and every
value is assigned. -/
def splitVariables (moduleName : String) (exported : List String) (ds : List Node) :
    Except UnsupportedShape (List Node) := do
  let unexported := (ds.flatMap declaredNames).filter fun n => !exported.contains n
  let assignments ← ds.mapM (assignment? moduleName)
  return (Make.declare? unexported).toList ++ assignments.filterMap id

/-- Whether a function or class has an exported name. -/
def exportedName? (exported : List String) (name : Option Node) : Option String :=
  (Items.declaredName? name).filter exported.contains

/-- What a statement of the module turns into, where the names of `exported` are declared
outside. -/
def ofStatement (moduleName : String) (exported : List String) (s : Node) :
    Except UnsupportedShape (List Node) :=
  match s.form with
  | .bindings _ ds =>
    if (ds.flatMap declaredNames).any exported.contains then
      splitVariables moduleName exported ds
    else .ok [s]
  | .function _ name _ _ | .classLike _ _ name _ _ =>
    match exportedName? exported name with
    | some n => .ok [Make.assign (Make.name n) s]
    | none => .ok [s]
  | _ => .ok [s]

/-- The statements of the closure. -/
def ofStatements (moduleName : String) (exported : List String) (statements : List Node) :
    Except UnsupportedShape (List Node) :=
  List.flatten <$> statements.mapM (ofStatement moduleName exported)

end Awaitless.Transform.Body
