import Awaitless.Script.Parser.Expression

/-!
# Statements

* `variableDeclaration`, `usingDeclaration` — declarations of variables.
* `forStatement` — the loops that start with `for`.
* `statement` — any statement or declaration that is no module item.
-/

namespace Awaitless.Script.Parser

variable (rules : Rules)

/-! ## Declarations of variables -/

/-- Complains about a declarator that needs a value. -/
def checkInitializer (kind : DeclarationKind) (declarator : Node) : P Unit := do
  match declarator.form with
  | .declarator target none =>
    match target.form with
    | .identifier _ => if kind == .constant then note .missingConstInitializer
    | _ => note .missingPatternInitializer
  | _ => pure ()

/-- A name or pattern with its value. -/
def declarator (kind : DeclarationKind) (inHead : Bool) : P Node := do
  let start ← here
  let target ← rules .pattern
  let _ ← typeAnnotation? rules
  let value ← if ← eat (.assign none) then some <$> rules .assignment else pure none
  let d ← node start (.declarator target value)
  unless inHead do checkInitializer kind d
  return d

/-- Declarators with commas between them. -/
def declarators (item : P Node) : P (List Node) := do
  let first ← item
  let reversed ← iterate (fun taken => do
    unless ← eat .comma do return .inr taken
    return .inl ((← item) :: taken)) (← limit) [first]
  return reversed.reverse

/-- A declaration from its keyword on. -/
def variableDeclaration (kind : DeclarationKind) (inHead : Bool) : P Node := do
  let start ← here
  advance
  let ds ← declarators (declarator rules kind inHead)
  unless inHead do finishStatement
  node start (.bindings kind ds)

/-- Whether a name follows on the same line, or an opening brace where no loop begins. -/
def bindingFollows (inHead : Bool) : P Bool := do
  if ← onNewLine then return false
  match ← kind with
  | .word _ => return true
  | .mark .leftBrace => return !inHead
  | _ => return false

/-- Whether a `using` declaration begins here. In the head of a loop, `of` follows the name. -/
def atUsing (inHead : Bool) : P Bool := do
  unless ← atWord "using" do return false
  lookahead do
    advance
    if inHead && (← atWord "of") then return false
    bindingFollows inHead

/-- Whether an `await using` declaration begins here. -/
def atAwaitUsing (inHead : Bool) : P Bool := do
  unless ← atWord "await" do return false
  lookahead do
    advance
    if (← onNewLine) || !(← atWord "using") then return false
    advance
    bindingFollows inHead

/-- A `using` declaration, without the semicolon behind it. -/
def usingDeclaration (inHead : Bool) : P Node := do
  let start ← here
  let awaits ← eatWord "await"
  expectWord "using"
  let kind : DeclarationKind := if awaits then .awaitedResource else .resource
  let item : P Node := do
    let d ← declarator rules kind inHead
    match d.form with
    | .declarator target value =>
      match target.form with
      | .identifier _ => pure ()
      | _ => note .usingPattern
      if value.isNone && !inHead then note .missingUsingInitializer
    | _ => pure ()
    return d
  let ds ← declarators item
  node start (.bindings kind ds)

/-! ## Loops -/

/-- A condition in parentheses. -/
def condition : P Node :=
  between .leftParen .rightParen (rules .expression)

/-- The rest of a loop with three parts, from the first semicolon on. -/
def forParts (start : Nat) (first : Option Node) (awaits : Bool) : P Node := do
  expect .semicolon
  match first.map Node.form with
  | some (.bindings kind ds) => ds.forM (checkInitializer kind)
  | _ => pure ()
  let part : P Node := within Context.withIn (rules .expression)
  let test ←
    if (← atMark .semicolon) || (← atMark .rightParen) then pure none else some <$> part
  expect .semicolon
  let step ← if ← atMark .rightParen then pure none else some <$> part
  expect .rightParen
  if awaits then note .awaitWithoutOf
  let body ← rules (.statement true)
  node start (.forLoop first test step body)

/-- The rest of a loop over an object or over values, from `in` or `of` on. -/
def forEach (start : Nat) (head : Node) (awaits : Bool) : P Node := do
  let overKeys ← atKeyword .in
  advance
  let object ← within Context.withIn (rules (if overKeys then .expression else .assignment))
  expect .rightParen
  if awaits && overKeys then note .awaitWithoutOf
  let body ← rules (.statement true)
  node start (if overKeys then .forIn head object body else .forOf awaits head object body)

/-- Whether `in` or `of` comes next. -/
def atEach : P Bool := return (← atKeyword .in) || (← atWord "of")

/-- Whether `let` begins a declaration: another name or a pattern follows. -/
def atLetDeclaration : P Bool := do
  let token := (← get).token
  unless token.kind == .word "let" && !token.escaped do return false
  lookahead do
    advance
    match ← kind with
    | .word _ | .mark .leftBrace | .mark .leftBracket => return true
    | .keyword .in | .keyword .instanceof => return false
    | .keyword _ => return true
    | _ => return false

/-- The rest of a loop behind the declaration in its head. -/
def afterDeclaration (start : Nat) (awaits : Bool) (d : Node) : P Node := do
  if ← atEach then forEach rules start d awaits else forParts rules start (some d) awaits

/-- The context of what comes first in the head of a loop. -/
def Context.withoutIn (c : Context) : Context := { c with allowsIn := false }

/-- The head of a loop that starts with an expression, and the rest of the loop. -/
def afterExpression (start : Nat) (awaits : Bool) : P Node := do
  let token := (← get).token
  let first ← within Context.withoutIn (rules .expression)
  if ← atKeyword .in then forEach rules start (← assignmentTarget first) awaits
  else if ← atWord "of" then
    if token.kind == .word "let" && !token.escaped then note .letBeforeOf
    if first.form.isNamed "async" && !awaits && !token.escaped then note .asyncBeforeOf
    forEach rules start (← assignmentTarget first) awaits
  else forParts rules start (some first) awaits

/-- A declaration of resources in the head of a loop, and the rest of the loop. -/
def afterUsing (start : Nat) (awaits : Bool) : P Node := do
  let d ← usingDeclaration rules true
  if ← atKeyword .in then
    match d.form with
    | .bindings .awaitedResource _ => note .awaitUsingInForIn
    | _ => note .usingInForIn
  afterDeclaration rules start awaits d

/-- A loop that starts with `for`, from its opening parenthesis on. -/
def forLoop (start : Nat) (awaits : Bool) : P Node := do
  expect .leftParen
  let declared (kind : DeclarationKind) : P Node := do
    let d ← within Context.withoutIn (variableDeclaration rules kind true)
    afterDeclaration rules start awaits d
  match ← kind with
  | .mark .semicolon | .mark .rightParen => forParts rules start none awaits
  | .keyword .var => declared .var
  | .keyword .const => declared .constant
  | _ =>
    if ← atLetDeclaration then declared .lexical
    else if (← atUsing true) || (← atAwaitUsing true) then afterUsing rules start awaits
    else afterExpression rules start awaits

/-- A loop that starts with `for`. -/
def forStatement : P Node := do
  let start ← here
  advance
  let awaits ← atWord "await"
  if awaits then
    unless (← get).context.awaits do note .awaitOutsideAsync
    advance
  forLoop rules start awaits

/-! ## Other statements -/

/-- Statements in braces. -/
def block : P Node := do
  let start ← here
  let statements ← between .leftBrace .rightBrace
    (itemsUntil .rightBrace (rules (.statement false)))
  node start (.block statements)

/-- The label that a jump names, if it names one. -/
def jumpLabel : P (Option String) := do
  if ← semicolonImplied then return none
  let found ← kind
  match found, isReference found (← get).context with
  | .word name, true =>
    advanceName
    return some name
  | _, _ => unexpected

def switchCase : P Node := do
  let start ← here
  let test ←
    match ← kind with
    | .keyword .default => do
      advance
      pure none
    | .keyword .case => do
      advance
      some <$> rules .expression
    | _ => return ← stop .missingSwitchClause
  expect .colon
  let reversed ← iterate (fun taken => do
    match ← kind, ← listEnds .rightBrace with
    | .keyword .case, _ | .keyword .default, _ | _, true => return .inr taken
    | _, _ =>
      let s ← rules (.statement false)
      match s.form with
      | .bindings .resource _ | .bindings .awaitedResource _ => note .usingInCase
      | _ => pure ()
      return .inl (s :: taken)) (← limit) []
  node start (.switchCase test reversed.reverse)

def tryStatement : P Node := do
  let start ← here
  advance
  let body ← block rules
  let handlerStart ← here
  let handler ←
    if ← eatKeyword .catch then
      let parameter ←
        if ← atMark .leftParen then
          some <$> between .leftParen .rightParen do
            let p ← rules .pattern
            let _ ← typeAnnotation? rules
            return p
        else pure none
      let handlerBody ← block rules
      some <$> node handlerStart (.handler parameter handlerBody)
    else pure none
  let cleanup ← if ← eatKeyword .finally then some <$> block rules else pure none
  if handler.isNone && cleanup.isNone then note .missingHandler
  node start (.guarded body handler cleanup)

/-- An expression as a statement, or a statement with a label. -/
def expressionStatement : P Node := do
  let start ← here
  let value ← rules .expression
  let label ←
    match value.form with
    | .identifier name => if ← eat .colon then pure (some name) else pure none
    | _ => pure none
  match label with
  | some name =>
    let s ← rules (.statement true)
    node start (.labeled name s)
  | none =>
    finishStatement
    node start (.expression value)

/-- A declaration of variables that stands as a statement. -/
def declarationStatement (kind : DeclarationKind) (single : Bool) : P Node := do
  let d ← variableDeclaration rules kind false
  if single && kind != .var then note .lexicalInSingleStatement
  return d

/-- What a statement is that starts with `let`. -/
inductive LetRole where
  | declaration
  /-- The name alone. -/
  | name
  /-- The name as an operand. -/
  | operand
  /-- The name of something that is accessed or called. -/
  | accessed
deriving Repr, DecidableEq, Inhabited

/-- What the token behind `let` shows about the statement. Where a declaration would not be allowed,
the word is a name, unless a bracket follows. -/
def letRole (single : Bool) : P LetRole :=
  lookahead do
    advance
    match ← kind with
    | .mark (.assign _) | .keyword .in | .keyword .instanceof => return .operand
    | .mark .dot | .mark .questionDot | .mark .leftParen => return .accessed
    | .mark .semicolon => return .name
    | .mark .leftBracket => return .declaration
    | .mark m =>
      if m.binary?.any fun op => !op.isLogical && op != .coalesce then return .operand
      else return if single then .name else .declaration
    | _ => return if single then .name else .declaration

/-- A statement that starts with `let`. -/
def letStatement (single : Bool) : P Node := do
  let start ← here
  match ← letRole single with
  | .declaration => declarationStatement rules .lexical single
  | .name =>
    let name ← identifierReference
    finishStatement
    node start (.expression name)
  | .operand =>
    let value ← rules .assignment
    finishStatement
    node start (.expression value)
  | .accessed =>
    let value ← rules .expression
    finishStatement
    node start (.expression value)

/-- A function that stands as a statement. -/
def functionStatement (start : Nat) (isAsync single : Bool) : P Node := do
  let f ← function rules start .declaration isAsync false
  if single then
    match f.form with
    | .function t _ _ _ =>
      if t.isAsync then note .asyncInSingleStatement
      if t.isGenerator then note .generatorInSingleStatement
    | _ => pure ()
  return f

/-- A jump to a label or out of the closest statement. -/
def jump (form : Option String → Form Node) : P Node := do
  let start ← here
  advance
  let label ← jumpLabel
  finishStatement
  node start (form label)

def ifStatement : P Node := do
  let start ← here
  advance
  let test ← condition rules
  let yes ← rules (.statement true)
  let no ← if ← eatKeyword .else then some <$> rules (.statement true) else pure none
  node start (.choice test yes no)

def doStatement : P Node := do
  let start ← here
  advance
  let body ← rules (.statement true)
  expectKeyword .while
  let test ← condition rules
  let _ ← eat .semicolon
  node start (.doLoop body test)

def returnStatement : P Node := do
  let start ← here
  advance
  let value ←
    if ← eat .semicolon then pure none
    else if ← semicolonImplied then pure none
    else do
      let value ← within Context.withIn (rules .expression)
      finishStatement
      pure (some value)
  unless (← get).context.returns do note .returnOutsideFunction
  node start (.returns value)

def throwStatement : P Node := do
  let start ← here
  advance
  if ← onNewLine then note .newlineAfterThrow
  let value ← rules .expression
  finishStatement
  node start (.throws value)

/-- Any statement or declaration that is no module item. -/
def plainStatement (single : Bool) : P Node := do
  let start ← here
  match ← kind with
  | .mark .leftBrace => block rules
  | .mark .semicolon =>
    advance
    node start .empty
  | .keyword .if => ifStatement rules
  | .keyword .for => forStatement rules
  | .keyword .while =>
    advance
    let test ← condition rules
    let body ← rules (.statement true)
    node start (.whileLoop test body)
  | .keyword .do => doStatement rules
  | .keyword .continue => jump .continues
  | .keyword .break => jump .breaks
  | .keyword .return => returnStatement rules
  | .keyword .throw => throwStatement rules
  | .keyword .try => tryStatement rules
  | .keyword .switch =>
    advance
    let subject ← condition rules
    let cases ← between .leftBrace .rightBrace (itemsUntil .rightBrace (switchCase rules))
    node start (.switch subject cases)
  | .keyword .with =>
    advance
    let object ← condition rules
    let body ← rules (.statement true)
    node start (.within object body)
  | .keyword .debugger =>
    advance
    finishStatement
    node start .debugger
  | .keyword .var => declarationStatement rules .var single
  | .keyword .const => declarationStatement rules .constant single
  | .keyword .function => functionStatement rules start false single
  | .keyword .class =>
    let c ← classLike rules start false false []
    if single then note .classInSingleStatement
    return c
  | .word "let" =>
    if (← get).token.escaped then expressionStatement rules
    else letStatement rules single
  | .word "async" =>
    if ← atAsyncFunction then
      advance
      functionStatement rules start true single
    else expressionStatement rules
  | _ =>
    if (← atUsing false) || (← atAwaitUsing false) then
      let d ← usingDeclaration rules false
      finishStatement
      if single then note .lexicalInSingleStatement
      return d
    expressionStatement rules

end Awaitless.Script.Parser
