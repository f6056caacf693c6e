import Awaitless.Script.Parser.State

/-!
# Modifiers

A word before a member or a parameter can say more about it. Whether such a word stands as a
modifier, or is the name of the member itself, shows in the token behind it.

* `Modifier` — the words, with their spelling.
* `modifiers` — the modifiers that stand here.
* `verify` — complains about modifiers that do not go together with what they stand before.
-/

namespace Awaitless.Script.Parser

/-- The words that can stand before a member or a parameter. -/
inductive Modifier where
  | access (who : Access)
  | abstract
  | accessor
  | async
  | constant
  | declared
  | default
  | exported
  | input
  | output
  | readonly
  | static
  | override
deriving Repr, DecidableEq, Inhabited

namespace Modifier

def text : Modifier → String
  | access who => who.text
  | abstract => "abstract"
  | accessor => "accessor"
  | async => "async"
  | constant => "const"
  | declared => "declare"
  | default => "default"
  | exported => "export"
  | input => "in"
  | output => "out"
  | readonly => "readonly"
  | static => "static"
  | override => "override"

def all : List Modifier :=
  [access .public, access .private, access .protected, abstract, accessor, async, constant,
    declared, default, exported, input, output, readonly, static, override]

/-- The modifier that a token can be. -/
def ofToken? : TokenKind → Option Modifier
  | .word name => all.find? fun m => m.text == name
  | .keyword k => all.find? fun m => m.text == k.text
  | _ => none

def isAccess : Modifier → Bool
  | access _ => true
  | _ => false

/-- Who may use what the modifiers stand before. -/
def access? (ms : List Modifier) : Option Access :=
  ms.findSome? fun
    | access who => some who
    | _ => none

/-- What is wrong with a modifier behind some others. -/
def conflict? (m : Modifier) (before : List Modifier) : Option GrammarError :=
  if m.isAccess && before.any isAccess then some .repeatedAccess
  else if before.contains m then some (.repeatedModifier m.text)
  else none

/-- The complaint about a modifier that does not go together with a member of a class. -/
def memberComplaint : Modifier → GrammarError
  | readonly => .fieldModifier readonly.text
  | m => .misplacedModifier m.text

end Modifier

/-! ## What follows a modifier -/

/-- Whether the current token can follow a modifier. -/
def followsModifier : P Bool := do
  match ← kind with
  | .mark .leftBracket | .mark .leftBrace | .mark .star | .mark .ellipsis | .privateName _ =>
    return true
  | k => return isName k || isLiteral k

/-- Whether the token behind the current one shows that it is a modifier. -/
def standsAsModifier (m : Modifier) : P Bool :=
  lookahead do
    advance
    return (m == .static || !(← onNewLine)) && (← followsModifier)

/-- Whether a block follows the current token. -/
def blockFollows : P Bool :=
  lookahead do
    advance
    atMark .leftBrace

/-- The modifiers that stand here, in their order. In a class, `const` is taken for one, and a
block of static code is none. -/
def modifiers (inClass : Bool) : P (List Modifier) := do
  let reversed ← iterate (fun before => do
    let some m := Modifier.ofToken? (← kind) | return .inr before
    if m == .constant && !inClass then return .inr before
    if m == .static then
      if before.contains .static || (inClass && (← blockFollows)) then return .inr before
    unless ← standsAsModifier m do return .inr before
    advance
    match m.conflict? before with
    | some e => note e
    | none => pure ()
    return .inl (m :: before)) (← limit) []
  return reversed.reverse

/-- Complains about the modifiers that are not allowed. -/
def verify (ms : List Modifier) (allowed : Modifier → Bool) (complaint : Modifier → GrammarError) :
    P Unit :=
  ms.forM fun m => unless allowed m do note (complaint m)

/-- Whether the current token can follow `get` or `set`: a key begins here. -/
def followsAccessorWord : P Bool := do
  match ← kind with
  | .mark .leftBracket | .privateName _ => return true
  | k => return isName k || isLiteral k

/-- Reads `get` or `set`, if the word stands before a member. -/
def eatAccessorWord (w : String) : P Bool := do
  unless ← atWord w do return false
  let stands ← lookahead do
    advance
    followsAccessorWord
  if stands then advance
  return stands

end Awaitless.Script.Parser
