import Awaitless.Script.EarlyErrors.Function

/-!
# Classes

* `checkClass` — a class with its members.
* `repeatedPrivateNames`, `usePrivateName` — private names, which are looked up where a class ends.
-/

namespace Awaitless.Script.EarlyErrors

/-- The name of a member of a class. -/
structure MemberName where
  name : String
  isPrivate : Bool
  /-- A getter or a setter. -/
  accessor : Option MethodKind
  isStatic : Bool
deriving Repr, DecidableEq, Inhabited

/-- A key that is known before the program runs, and whether it is private. -/
def knownKey? (key : Node) (computed : Bool) : Option (String × Bool) :=
  match key.form with
  | .privateName name => some (name, true)
  | .identifier name => if computed then none else some (name, false)
  | .stringLiteral value _ => some (value.toString, false)
  | .template [text] [] => some (text, false)
  | .nullLiteral => some ("null", false)
  | _ => none

def memberName? (m : Node) : Option MemberName :=
  match m.form with
  | .classMethod .constructor _ _ _ _ _ => none
  | .classMethod kind t _ key _ computed =>
    (knownKey? key computed).map fun k =>
      ⟨k.1, k.2, if kind == .plain then none else some kind, t.isStatic⟩
  | .classField t _ key _ computed =>
    (knownKey? key computed).map fun k => ⟨k.1, k.2, none, t.isStatic⟩
  | _ => none

/-- A private name may be declared twice in a row only by a getter and a setter. -/
def MemberName.repeats (new old : MemberName) : Bool :=
  new.isPrivate && old.isPrivate &&
    match new.accessor, old.accessor with
    | some a, some b => a == b || new.isStatic != old.isStatic
    | _, _ => true

/-- The private names that are declared again, with their marks. Each member is compared with the
last one of the same name. -/
def repeatedPrivateNames : (before : List MemberName) → List MemberName → List String
  | _, [] => []
  | before, m :: rest =>
    let others := repeatedPrivateNames (m :: before) rest
    match before.find? fun old => old.name == m.name with
    | some old => if m.repeats old then ("#" ++ m.name) :: others else others
    | none => others

def isConstructor (m : Node) : Bool :=
  match m.form with
  | .classMethod .constructor _ _ _ _ _ => true
  | _ => false

/-- Whether a field is abstract. -/
def isAbstractField (m : Node) : Bool :=
  match m.form with
  | .classField t _ _ _ _ => t.isAbstract
  | _ => false

/-- The members of a class. The private names that they use are looked up behind the last one. -/
def checkMembers (hasHeritage : Bool) (members : List Part) (s : Setting) : M Unit := do
  let known := members.filterMap fun m => memberName? m.1
  let names := (known.filter (·.isPrivate)).map (·.name) ++ s.privateNames
  modify fun f =>
    { f with
      privateUses := [] :: f.privateUses
      late := (repeatedPrivateNames [] known).reverse.map .redeclared ++ f.late }
  checkAll members { s with privateNames := names, hasHeritage }
  let uses := ((← get).privateUses.headD []).reverse
  modify fun f => { f with privateUses := f.privateUses.tail }
  uses.forM fun name =>
    unless names.contains name do report (.undeclaredPrivateName ("#" ++ name))

/-- The names of types that a class cannot have. -/
def typeNames : List String :=
  ["any", "unknown", "never", "number", "bigint", "boolean", "string", "symbol", "void", "object",
    "undefined"]

/-- The name of a class. -/
def checkClassName (name : Option Part) : M Unit := do
  match name.bind fun n => n.1.name? with
  | some text => if typeNames.contains text then report (.reservedClassName text)
  | none => pure ()

/-- A class. What it extends is outside of it as far as private names go. -/
def checkClass (traits : ClassTraits) (decorators : List Part) (name heritage : Option Part)
    (members : List Part) (s : Setting) (declares isDefault : Bool) : M Unit := do
  let own ← if declares then declareOwn .classLike name else pure none
  checkAll decorators s
  checkOption name { s with binds := true }
  inScope .block do
    checkOption heritage s.block
    checkMembers heritage.isSome members s.block
  if declares && !isDefault && name.isNone then report .missingClassName
  if 1 < (members.filter fun m => isConstructor m.1).length then report .severalConstructors
  own.toList.forM checkRepeatedClass
  checkClassName name
  unless traits.isAbstract do
    (members.filter fun m => isAbstractField m.1).forM fun _ => report .abstractField

/-- A private name is looked up when its class ends; outside of all classes it means nothing. -/
def usePrivateName (name : String) : M Unit := do
  match (← get).privateUses with
  | uses :: rest => modify fun f => { f with privateUses := (name :: uses) :: rest }
  | [] => report (.strayPrivateName ("#" ++ name))

end Awaitless.Script.EarlyErrors
