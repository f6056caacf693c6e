import Awaitless.Script.Diagnostic
import Awaitless.Script.Node

/-!
# What the surroundings of a node permit

Whether a jump has a target, what `super` stands for and which names may be used depends on the
nodes around. A node gets all of that as one value and passes another one on to its parts.

* `Setting` — what the surroundings permit.
* `Setting.inner`, `Setting.functionBody`, `Setting.arrowBody` — what a node passes on.
-/

namespace Awaitless.Script.EarlyErrors

/-- What `super()` may do. -/
inductive SuperCall where
  | stray
  | withoutHeritage
  | allowed
deriving Repr, DecidableEq, Inhabited

/-- What the nodes around a node say about it. -/
structure Setting where
  /-- The labels around in the same function, and whether each one names a loop; the innermost
  first. -/
  labels : List (String × Bool) := []
  /-- The labels outside of the arrows around. Jumps reach them all the same. -/
  outerLabels : List (String × Bool) := []
  inLoop : Bool := false
  inSwitch : Bool := false
  /-- Jumps cannot leave a function or a static block; they leave arrows. -/
  inFunction : Bool := false
  hasNewTarget : Bool := false
  /-- What `super()` may do where `super` stands for what is above a member; `none` where it stands
  for nothing. -/
  superCall : Option SuperCall := none
  /-- The nearest scope is that of a static block. -/
  inStaticBlock : Bool := false
  inParameters : Bool := false
  /-- The private names of the classes around. -/
  privateNames : List String := []
  /-- The plain names that the assignments around assign to. -/
  assigned : List String := []
  /-- In a target with a pattern, or in what `++` or `--` changes. -/
  inTarget : Bool := false
  /-- What is wrong with `arguments` here. -/
  argumentsBan : Option EarlyError := none
  -- what the parent says about this node alone
  /-- A name here is bound. -/
  binds : Bool := false
  /-- A function or class here is a declaration. -/
  declares : Bool := false
  /-- A module item may stand here. -/
  isItem : Bool := false
  /-- A class may be declared here without a name. -/
  isDefault : Bool := false
  /-- A block here has the scope of its parent. -/
  sharesScope : Bool := false
  /-- What `super()` may do in a function here, which is that of a member. -/
  memberFunction : Option SuperCall := none
  /-- The function of a body here has other parameters than names. -/
  hasPatterns : Bool := false
  /-- The class of a member here extends another one. -/
  hasHeritage : Bool := false
deriving Inhabited

namespace Setting

/-- The setting of the parts of a node, as far as the node says nothing about them. -/
def inner (s : Setting) : Setting :=
  { s with
    binds := false
    declares := false
    isItem := false
    isDefault := false
    sharesScope := false
    memberFunction := none
    hasPatterns := false
    hasHeritage := false }

/-- The setting of a scope inside of a body. -/
def block (s : Setting) : Setting := { s with inStaticBlock := false }

/-- The setting of the parts of a loop. -/
def loop (s : Setting) : Setting := { s with inLoop := true }

/-- No jump reaches out of a function, and `super` stands for nothing unless a member holds it. -/
def functionBody (s : Setting) : Setting :=
  { s.inner with
    labels := []
    outerLabels := []
    superCall := s.memberFunction
    inLoop := false
    inSwitch := false
    inFunction := true
    hasNewTarget := true
    inStaticBlock := false
    inParameters := false
    argumentsBan := none }

/-- The body of an arrow keeps what the function around it has, but may use its labels again. -/
def arrowBody (s : Setting) : Setting :=
  { s.inner with
    labels := []
    outerLabels := s.labels ++ s.outerLabels
    inStaticBlock := false
    inParameters := false }

/-- Whether a label that a jump reaches names a loop, if there is one. -/
def reached? (s : Setting) (label : String) : Option Bool :=
  (s.labels ++ s.outerLabels).lookup label

/-- The function of a method. -/
def method (s : Setting) (superCall : SuperCall) : Setting :=
  { s.inner with memberFunction := some superCall }

/-- The function of a method of a class. -/
def classMethod (s : Setting) (kind : MethodKind) : Setting :=
  s.method <|
    if kind != .constructor then .stray
    else if s.hasHeritage then .allowed
    else .withoutHeritage

/-- The value of a field of a class. -/
def field (s : Setting) (isAccessor : Bool) : Setting :=
  { s.inner with
    superCall := some .stray
    argumentsBan := if isAccessor then s.argumentsBan else some .argumentsInField }

/-- A block of static code. -/
def staticBlock (s : Setting) : Setting :=
  { s.field false with
    labels := []
    outerLabels := []
    inLoop := false
    inSwitch := false
    inFunction := true
    hasNewTarget := true
    inStaticBlock := true
    argumentsBan := some .argumentsInStaticBlock }

/-- The parts of an access to a member. They are used, whatever is assigned around. -/
def access (s : Setting) : Setting := { s.inner with assigned := [], inTarget := false }

/-- The parts of an assignment. -/
def assignment (s : Setting) (target : Node) : Setting :=
  { s.inner with assigned := target.name?.toList ++ s.assigned }

/-- The members of a pattern. -/
def pattern (s : Setting) : PatternRole → Setting
  | .binding => { s.inner with binds := true }
  | .target => { s.inner with inTarget := true }

end Setting

end Awaitless.Script.EarlyErrors
