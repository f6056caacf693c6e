import Awaitless.Script.Parser.Goal

/-!
# Types

Types are only read past: where they are allowed at all, nothing but their text is kept.

* `type` — a type.
* `typeText`, `typeAnnotation?` — the text of a type, also of one behind a colon.
* `typeArguments` — the texts of types in angle brackets.
* `balanced` — everything between two brackets.
-/

namespace Awaitless.Script.Parser

variable (rules : Rules)

/-! ## Brackets -/

/-- How many brackets a token opens or closes. -/
def bracketDepth (k : TokenKind) : Int :=
  match k with
  | .mark .leftBrace | .mark .leftParen | .mark .leftBracket => 1
  | .mark .rightBrace | .mark .rightParen | .mark .rightBracket => -1
  | _ => 0

/-- Reads past a bracket and everything up to the one that closes it. -/
def balanced : P Unit := do
  iterate (fun depth => do
    let k ← kind
    if k == .eof || k == .invalid then
      unexpected
      return .inr ()
    advance
    let depth := depth + bracketDepth k
    if depth ≤ 0 then return .inr ()
    return .inl depth) (← limit) (0 : Int)

/-- Reads a closing angle bracket, which may be the start of a longer mark. -/
def closeAngle : P Unit := do
  splitAngle
  expect .greater

/-- The text from a place up to the end of the last token. -/
def textFrom (start : Nat) : P String := do
  let s ← get
  return String.ofList ((s.source.drop start).take (s.previousStop - start))

/-- The text of a type. -/
def typeText : P String := do
  let start ← here
  let _ ← rules .type
  textFrom start

/-- The texts of types in angle brackets. -/
def typeArguments : P (List String) := do
  expect .less
  let first ← typeText rules
  let reversed ← iterate (fun taken => do
    unless ← eat .comma do return .inr taken
    return .inl ((← typeText rules) :: taken)) (← limit) [first]
  closeAngle
  return reversed.reverse

/-- Type arguments, if they begin here. -/
def typeArguments? : P (Option (List String)) := do
  if ← atMark .less then some <$> typeArguments rules else return none

/-- Reads past type parameters with their bounds and defaults. -/
def typeParameters : P Unit := do
  expect .less
  let parameter : P Unit := do
    iterate (fun () => do
      match ← kind with
      | .word _ | .keyword .const | .keyword .in =>
        advance
        return .inl ()
      | _ => return .inr ()) (← limit) ()
    if ← eatKeyword .extends then
      let _ ← rules .type
    if ← eat (.assign none) then
      let _ ← rules .type
  parameter
  iterate (fun () => do
    unless ← eat .comma do return .inr ()
    parameter
    return .inl ()) (← limit) ()
  closeAngle

/-- A colon and a type, where declarations of types are read. -/
def typeAnnotation? : P (Option String) := do
  if (← get).typed && (← atMark .colon) then
    advance
    return some (← typeText rules)
  return none

/-! ## Types -/

/-- Reads past names with dots between them. -/
def dottedName : P Unit := do
  let _ ← nameText
  iterate (fun () => do
    unless ← eat .dot do return .inr ()
    let _ ← nameText
    return .inl ()) (← limit) ()

/-- Reads past type arguments on the same line, if they begin here. -/
def argumentsBehind : P Unit := do
  unless ← onNewLine do
    let _ ← typeArguments? rules

/-- Reads past a template whose values are types. -/
def typeTemplate : P Unit := do
  advance
  iterate (fun () => do
    let _ ← rules .type
    if ← atMark .rightBrace then reread Lexer.templateRest
    match ← kind with
    | .template .middle _ _ =>
      advance
      return .inl ()
    | .template .tail _ _ =>
      advance
      return .inr ()
    | _ => return .inr (← unexpected)) (← limit) ()

/-- Reads past a type that is a name, or a name of an imported module. -/
def namedType : P Unit := do
  if ← eatKeyword .import then
    balanced
    if ← eat .dot then dottedName
  else dottedName
  argumentsBehind rules

/-- Reads past a type without operators. -/
def primaryType : P Unit := do
  match ← kind with
  | .word _ | .keyword .import => namedType rules
  | .keyword .typeof =>
    advance
    namedType rules
  | .keyword .void | .keyword .null | .keyword .this | .keyword .true | .keyword .false
  | .keyword .const => advance
  | .mark .minus =>
    advance
    if isLiteral (← kind) then advance else unexpected
  | .mark .leftParen | .mark .leftBrace | .mark .leftBracket => balanced
  | .string _ _ _ | .number _ _ _ | .bigint _ _ | .template .whole _ _ => advance
  | .template .head _ _ => typeTemplate rules
  | _ => unexpected

/-- Reads past a type with the brackets behind it. -/
def postfixType : P Unit := do
  primaryType rules
  iterate (fun () => do
    if (← atMark .leftBracket) && !(← onNewLine) then
      balanced
      return .inl ()
    return .inr ()) (← limit) ()

/-- Words that stand before a type. -/
def typeOperators : List String := ["keyof", "unique", "readonly", "infer", "asserts"]

/-- Reads past a type with the words before it, and with the test behind a name. -/
def operatorType : P Unit := do
  iterate (fun () => do
    let .word w ← kind | return .inr ()
    unless typeOperators.contains w do return .inr ()
    let applies ← lookahead do
      advance
      let k ← kind
      return !(← onNewLine) && (isName k || bracketDepth k == 1 || isLiteral k)
    unless applies do return .inr ()
    advance
    return .inl ()) (← limit) ()
  postfixType rules
  if (← atWord "is") && !(← onNewLine) then
    advance
    let _ ← rules .type

/-- Reads past types with `&` or `|` between them. -/
def joinedType (mark : Punctuator) (item : P Unit) : P Unit := do
  let _ ← eat mark
  item
  iterate (fun () => do
    unless ← eat mark do return .inr ()
    item
    return .inl ()) (← limit) ()

/-- Whether the type of a function begins here. -/
def atFunctionType : P Bool := do
  match ← kind with
  | .keyword .new | .mark .less => return true
  | .word "abstract" =>
    lookahead do
      advance
      atKeyword .new
  | .mark .leftParen =>
    lookahead do
      balanced
      atMark .arrow
  | _ => return false

/-- Reads past the type of a function. -/
def functionType : P Unit := do
  let _ ← eatWord "abstract"
  let _ ← eatKeyword .new
  if ← atMark .less then typeParameters rules
  balanced
  expect .arrow
  let _ ← rules .type

/-- A type. Nothing but its place is kept. -/
def type : P Node := do
  let start ← here
  if ← atFunctionType then functionType rules
  else
    joinedType .or (joinedType .and (operatorType rules))
    if (← atKeyword .extends) && !(← onNewLine) then
      advance
      let _ ← rules .type
      expect .question
      let _ ← rules .type
      expect .colon
      let _ ← rules .type
  node start (.typeDeclaration "")

end Awaitless.Script.Parser
