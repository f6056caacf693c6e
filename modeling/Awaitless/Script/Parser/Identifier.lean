import Awaitless.Script.Parser.State

/-!
# Names

* `bindingIdentifier` — a name that is bound here.
* `identifierReference` — a name that is used here.
* `identifierName` — any name, keywords included.
* `moduleName` — a name as it is seen from outside of the module.
-/

namespace Awaitless.Script.Parser

/-- `await` and `yield` are no identifiers where they are operators. -/
def checkIdentifier (name : String) (context : Context) : P Unit := do
  if name == "await" && context.awaits then note (.asyncIdentifier name)
  if name == "yield" && context.yields then note (.generatorIdentifier name)

/-- Cannot pass a token that is no identifier. -/
def notIdentifier [Inhabited α] : P α := do
  match ← kind with
  | .keyword k => stop (.reservedIdentifier k.text)
  | _ => unexpected

/-- The text of a name that is bound here. -/
def bindingName : P String := do
  match ← kind with
  | .word name =>
    checkIdentifier name (← get).context
    advanceName
    return name
  | _ => notIdentifier

/-- A name that is bound here. -/
def bindingIdentifier : P Node := do
  let start ← here
  let name ← bindingName
  node start (.identifier name)

/-- A name that is used here. -/
def identifierReference : P Node := do
  let start ← here
  match ← kind with
  | .word name =>
    checkIdentifier name (← get).context
    advanceName
    node start (.identifier name)
  | _ => unexpected

/-- The text of any name, keywords included. -/
def nameText : P String := do
  match ← kind with
  | .word name =>
    advanceName
    return name
  | .keyword k =>
    advanceName
    return k.text
  | _ => unexpected

/-- Any name, keywords included. -/
def identifierName : P Node := do
  let start ← here
  let name ← nameText
  node start (.identifier name)

/-- Whether a word can be used as a reference here. -/
def isReference (k : TokenKind) (context : Context) : Bool :=
  match k with
  | .word "await" => !context.awaits
  | .word "yield" => !context.yields
  | .word _ => true
  | _ => false

/-- The text of a string. -/
def stringText : P StringText := do
  match ← kind with
  | .string value flaw _ =>
    advanceName
    return ⟨value, flaw⟩
  | _ => unexpected

/-- A name as it is seen from outside of the module. -/
def moduleName : P ModuleName := do
  match ← kind with
  | .string value flaw _ =>
    unless value.isWellFormed do note .loneSurrogateInName
    advanceName
    return .quoted ⟨value, flaw⟩
  | _ => return .word (← nameText)

end Awaitless.Script.Parser
