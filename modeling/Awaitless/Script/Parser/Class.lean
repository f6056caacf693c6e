import Awaitless.Script.Parser.Function

/-!
# Classes

* `classMember` — a member of a class.
* `classLike` — a class from its keyword on.
-/

namespace Awaitless.Script.Parser

variable (rules : Rules)

/-! ## Keys -/

/-- The key of a class member behind its modifiers. -/
def memberKey (ms : List Modifier) : P (Node × Bool) := do
  let start ← here
  if ms.contains .constant then note .constantMember
  match ← kind with
  | .privateName name =>
    if name == "constructor" then note .privateConstructor
    advance
    return (← node start (.privateName name), false)
  | _ => propertyKey rules

/-- The name of a key that is not computed. -/
def keyName? (key : Node) (computed : Bool) : Option String :=
  if computed then none
  else
    match key.form with
    | .identifier name => some name
    | .stringLiteral value _ => some value.toString
    | _ => none

/-- The key as a message shows it. -/
def shownKey (key : Node) (computed : Bool) : P String := do
  match keyName? key computed with
  | some name => return name
  | none =>
    let text := (← get).source.drop key.span.start
    return String.ofList (text.take (key.span.stop - key.span.start))

/-! ## Modifiers -/

/-- How the modifiers before a member are kept. -/
def memberTraits (ms : List Modifier) : MemberTraits :=
  { isStatic := ms.contains .static
    isAccessor := ms.contains .accessor
    access := Modifier.access? ms
    isAbstract := ms.contains .abstract
    declared := ms.contains .declared
    overrides := ms.contains .override
    isReadonly := ms.contains .readonly }

/-- Modifiers that say something about every member but a constructor. -/
def isCommon (m : Modifier) : Bool :=
  m.isAccess || m == .abstract || m == .static || m == .override

/-- Modifiers that are no mistake before a function; what they do not say anything about is
ignored. -/
def precedesFunction (m : Modifier) : Bool := m != .declared && m != .readonly

/-! ## Members with a function -/

/-- Complains about the parameters of a getter or setter. What is left over counts for none of
them. -/
def checkAccessor (kind : MethodKind) (value : Node) : P Unit := do
  match value.form with
  | .function _ _ ps _ =>
    let isRest (p : Node) : Bool :=
      match p.form with
      | .rest _ => true
      | _ => false
    let plain := ps.filter fun p => !isRest p
    match kind with
    | .getter => unless plain.isEmpty do note .getterParameters
    | .setter =>
      if ps.any isRest then note .setterRest
      else if plain.length != 1 then note .setterParameters
    | _ => pure ()
  | _ => pure ()

/-- Whether a function has a body. -/
def hasBody (value : Node) : Bool :=
  match value.form with
  | .function _ _ _ body => body.isSome
  | _ => false

/-- A block of static code. -/
def staticBlock (start : Nat) : P Node := do
  advance
  let statements ← between .leftBrace .rightBrace
    (within (fun c => { c with awaits := true, yields := false, returns := false })
      (itemsUntil .rightBrace (rules (.statement false))))
  node start (.staticBlock statements)

/-- A getter or setter from its key on. -/
def accessorMember (start : Nat) (kind : MethodKind) (ms : List Modifier) (ds : List Node) :
    P Node := do
  let (key, computed) ← memberKey rules ms
  let value ← methodFunction rules false false
  checkAccessor kind value
  let t := memberTraits ms
  let name := keyName? key computed
  if !t.isStatic && name == some "constructor" then note .constructorAccessor
  if t.isStatic && name == some "prototype" then note .staticPrototype
  if t.isAbstract && hasBody value then note (.abstractAccessorBody (← shownKey key computed))
  verify ms (fun m => precedesFunction m && m != .async) Modifier.memberComplaint
  node start (.classMethod kind t ds key value computed)

/-- Whether a constructor begins here: the word alone, or its string before parentheses. -/
def atConstructor : P Bool := do
  match ← kind with
  | .word "constructor" => return true
  | .string value _ _ =>
    if value == Text.Units.ofString "constructor" then
      lookahead do
        advance
        atMark .leftParen
    else return false
  | _ => return false

/-- A constructor from its key on. -/
def constructorMember (start : Nat) (ms : List Modifier) (ds : List Node) : P Node := do
  let (key, computed) ← propertyKey rules
  let value ← methodFunction rules (ms.contains .async) false
  refuseDecorators ds
  if ms.contains .async then note .constructorAsync
  verify ms (fun m => m.isAccess || m == .async) Modifier.memberComplaint
  node start (.classMethod .constructor (memberTraits ms) ds key value computed)

/-- A method from its parameters on. -/
def methodMember (start : Nat) (ms : List Modifier) (ds : List Node) (key : Node)
    (computed isGenerator : Bool) (presence : Presence) : P Node := do
  let value ← methodFunction rules (ms.contains .async) isGenerator
  let t := { memberTraits ms with presence }
  let name := keyName? key computed
  let isConstructor := !t.isStatic && name == some "constructor"
  if isConstructor && isGenerator then note .constructorGenerator
  if t.isStatic && name == some "prototype" then note .staticPrototype
  if t.isAbstract && hasBody value then note (.abstractMethodBody (← shownKey key computed))
  verify ms precedesFunction Modifier.memberComplaint
  let kind : MethodKind := if isConstructor then .constructor else .plain
  node start (.classMethod kind t ds key value computed)

/-! ## Fields -/

/-- The end of a field. -/
def finishField : P Unit := do
  unless ← eat .semicolon do
    unless ← semicolonImplied do missing ";"

/-- A field with storage of its own, behind its key. -/
def plainField (start : Nat) (ms : List Modifier) (ds : List Node) (key : Node)
    (computed : Bool) (presence : Presence) : P Node := do
  let type ← typeAnnotation? rules
  let value ←
    if ← eat (.assign none) then
      some <$> within (fun c => { c with allowsIn := true, awaits := false, yields := false })
        (rules .expression)
    else pure none
  finishField
  let t := { memberTraits ms with presence, type }
  if t.isAbstract && value.isSome then note (.abstractInitializer (← shownKey key computed))
  verify ms (· != .async) Modifier.memberComplaint
  node start (.classField t ds key value computed)

/-- A field that is read and written through a pair of functions, behind its key. -/
def accessorField (start : Nat) (ms : List Modifier) (ds : List Node) (key : Node)
    (computed : Bool) (presence : Presence) : P Node := do
  let type ← typeAnnotation? rules
  let value ← if ← eat (.assign none) then some <$> rules .assignment else pure none
  finishStatement
  if presence == .optional then note .optionalAccessor
  verify ms (fun m => isCommon m || m == .accessor) fun m => .accessorModifier m.text
  node start (.classField { memberTraits ms with presence, type } ds key value computed)

/-- A field behind its key. -/
def fieldMember (start : Nat) (ms : List Modifier) (ds : List Node) (key : Node)
    (computed isOptional : Bool) : P Node := do
  let presence : Presence ←
    if isOptional then pure .optional
    else if (← onNewLine) || !(← eat .bang) then pure .certain
    else pure .definite
  let name := keyName? key computed
  if name == some "constructor" then note .constructorField
  if ms.contains .static && name == some "prototype" then note .staticPrototype
  if ms.contains .accessor then accessorField rules start ms ds key computed presence
  else plainField rules start ms ds key computed presence

/-! ## Members -/

/-- Whether a bracket opens the signature of an index, which only typed code can have: a name in it
has a type or is followed by another one. -/
def atIndexSignature : P Bool := do
  unless ← atMark .leftBracket do return false
  lookahead do
    advance
    match ← kind with
    | .mark .ellipsis | .mark .rightBracket => return true
    | k =>
      advance
      if (Modifier.ofToken? k).isSome then
        if isWord (← kind) then return true
      else unless isWord k do return false
      match ← kind with
      | .mark .colon | .mark .comma => return true
      | .mark .question =>
        advance
        match ← kind with
        | .mark .colon | .mark .comma | .mark .rightBracket => return true
        | _ => return false
      | _ => return false

/-- A member of a class. -/
def classMember : P Node := do
  let start ← here
  let ds ← decorators rules
  let ms ← modifiers true
  if (← atWord "static") && (← blockFollows) then
    refuseDecorators ds
    verify ms (fun _ => false) fun _ => .modifiersHere
    return ← staticBlock rules start
  if ← eatAccessorWord "get" then return ← accessorMember rules start .getter ms ds
  if ← eatAccessorWord "set" then return ← accessorMember rules start .setter ms ds
  if !ms.contains .static && (← atConstructor) then
    return ← constructorMember rules start ms ds
  if ← atIndexSignature then
    refuseDecorators ds
    return ← unexpected
  let isGenerator ← eat .star
  let (key, computed) ← memberKey rules ms
  let isOptional ← eat .question
  if isGenerator || (← atMark .leftParen) || (← atMark .less) then
    methodMember rules start ms ds key computed isGenerator
      (if isOptional then .optional else .certain)
  else fieldMember rules start ms ds key computed isOptional

/-- The members of a class in their braces; semicolons between them say nothing. -/
def classBody : P (List Node) :=
  between .leftBrace .rightBrace do
    let reversed ← iterate (fun taken => do
      if ← listEnds .rightBrace then return .inr taken
      if ← eat .semicolon then return .inl taken
      return .inl ((← classMember rules) :: taken)) (← limit) []
    return reversed.reverse

/-! ## Classes -/

/-- What a class extends and implements. -/
structure Heritage where
  parent : Option Node := none
  typeArguments : List String := []
  implemented : Option (List String) := none
deriving Inhabited

/-- What stands behind `extends`. -/
def extended (h : Heritage) : P Heritage := do
  let parent ← rules .leftHandSide
  let typeArguments := (← typeArguments? rules).getD []
  iterate (fun () => do
    unless ← eat .comma do return .inr ()
    let _ ← rules .leftHandSide
    note .severalSuperclasses
    return .inl ()) (← limit) ()
  return { h with parent := some parent, typeArguments }

/-- What stands behind `implements`. -/
def implemented : P (List String) := do
  let first ← typeText rules
  let reversed ← iterate (fun taken => do
    unless ← eat .comma do return .inr taken
    return .inl ((← typeText rules) :: taken)) (← limit) [first]
  return reversed.reverse

/-- What a class extends and implements. -/
def heritage : P Heritage := do
  iterate (fun h => do
    if ← eatKeyword .extends then
      if h.parent.isSome then note .repeatedExtends
      else if h.implemented.isSome then note .extendsAfterImplements
      return .inl (← extended rules h)
    if ← eatWord "implements" then
      if h.implemented.isSome then note .repeatedImplements
      return .inl { h with implemented := some (← implemented rules) }
    return .inr h) (← limit) {}

/-- The type parameters of a class, where declarations of types are read. -/
def classTypeParameters : P (Option String) := do
  unless (← get).typed && (← atMark .less) do return none
  let start ← here
  typeParameters rules
  some <$> textFrom start

/-- A class from its keyword on. -/
def classLike (start : Nat) (isAbstract declared : Bool) (ds : List Node) : P Node := do
  advance
  let name ←
    match ← kind with
    | .word "implements" => pure none
    | .word _ => some <$> bindingIdentifier
    | _ => pure none
  let typeParameters ← classTypeParameters rules
  let h ← heritage rules
  let members ← classBody rules
  let traits : ClassTraits :=
    { isAbstract
      declared
      typeParameters
      typeArguments := h.typeArguments
      implemented := h.implemented.getD [] }
  node start (.classLike traits ds name h.parent members)

end Awaitless.Script.Parser
