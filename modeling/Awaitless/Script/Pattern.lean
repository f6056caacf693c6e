import Awaitless.Script.Node

/-!
# Patterns

A pattern of a declaration and the target of an assignment have the same shape; only their role
differs.

* `Node.boundNames` — the names that a pattern binds or assigns.
* `Node.toTarget` — the target that assigns what a pattern of a declaration binds.
-/

namespace Awaitless.Script.Node

/-- The names that a pattern binds, in source order. Keys and defaults bind none. -/
def boundNames : Node → List String :=
  fold fun _ form =>
    match form with
    | .identifier name => [name]
    | .patternProperty _ value _ _ => value
    | .defaulted target _ => target
    | other => other.parts.flatten

/-! ## Targets -/

/-- What stands in a target for a member that is written as its name alone. It is made from the
value, and the key is left out. -/
def shorthandTarget (value : Node) : Except String (Form Node) :=
  match value.form with
  | .identifier _ => .ok (.patternProperty value value false true)
  | .defaulted target _ =>
    match target.form with
    | .identifier _ => .ok (.patternProperty target value false true)
    | _ => .error "AssignmentPattern"
  | _ => .error "BindingProperty"

/-- The target that assigns what a pattern of a declaration binds, or the kind of the node that is
none. A default on its own is no target: it needs something around it that allows it. -/
def toTarget : Node → (allowsDefault : Bool) → Except String Node :=
  para fun span form allowsDefault =>
    match form with
    | .identifier name => return mk span (.identifier name)
    | .hole => return mk span .hole
    | .objectPattern _ members =>
      return mk span (.objectPattern .target (← members.mapM fun m => m.2 false))
    | .arrayPattern _ elements =>
      return mk span (.arrayPattern .target (← elements.mapM fun e => e.2 true))
    | .patternProperty key value computed shorthand =>
      if shorthand then return mk span (← shorthandTarget value.1)
      else return mk span (.patternProperty key.1 (← value.2 true) computed false)
    | .defaulted target value =>
      if allowsDefault then return mk span (.defaulted (← target.2 false) value.1)
      else throw "AssignmentPattern"
    | .rest target => return mk span (.rest (← target.2 false))
    | _ => throw "BindingPattern"

/-- The target, if the pattern turns into one. -/
def target? (pattern : Node) : Option Node :=
  (pattern.toTarget false).toOption

end Awaitless.Script.Node
