import Awaitless.Script.Parser.Class
import Awaitless.Script.Parser.Markup

/-!
# Expressions

* `primary`, `accesses`, `leftHandSide` — values, and what can be done with them from the right.
* `unary`, `operand` — operators by binding strength.
* `arrowFunction?`, `assignment`, `expression` — functions with an arrow, and the loosest operators.
-/

namespace Awaitless.Script.Parser

variable (rules : Rules)

/-! ## Literals -/

/-- A regular expression at a slash. -/
def regexLiteral : P Node := do
  let start ← here
  reread Lexer.regex
  match ← kind, (← get).lexicalErrors with
  | .regex pattern flags, [] =>
    advance
    node start (.regexLiteral pattern flags)
  | _, _ => unexpected

/-- A template from its first piece on. -/
def template (isTagged : Bool) : P Node := do
  let start ← here
  let piece (sound : Bool) : P Unit := do
    unless sound || isTagged do note .badTemplateEscape
    advance
  match ← kind with
  | .template .whole text sound =>
    piece sound
    node start (.template [text] [])
  | .template .head text sound =>
    piece sound
    let value : P Node := do
      let x ← within Context.inside (rules .expression)
      if ← atMark .rightBrace then reread Lexer.templateRest
      return x
    let (texts, values) ← iterate (fun (texts, values) => do
      if ← hasFailed then return .inr (texts, values)
      match ← kind with
      | .template .middle text sound =>
        piece sound
        return .inl (text :: texts, (← value) :: values)
      | .template .tail text sound =>
        piece sound
        return .inr (text :: texts, values)
      | _ =>
        missing "\x7d"
        return .inr (texts, values)) (← limit) ([text], [← value])
    node start (.template texts.reverse values.reverse)
  | _ => unexpected

/-- An argument, or a spread of arguments. -/
def argument : P Node := do
  let start ← here
  if ← eat .ellipsis then
    let value ← rules .assignment
    node start (.spread value)
  else rules .assignment

/-- The arguments of a call in their parentheses. -/
def arguments : P (List Node) := do
  let (xs, _) ← between .leftParen .rightParen
    (within Context.inside (delimited .rightParen (argument rules)))
  return xs

/-- Notes that a literal ends with a comma. -/
def noteTrailing (start : Nat) (trailing : Bool) : P Unit := do
  if trailing then
    change (fun s => { s with trailingCommas := start :: s.trailingCommas })
      fun _ => .of_same rfl rfl rfl rfl

/-- An array literal. -/
def arrayLiteral : P Node := do
  let start ← here
  let item : P Node := do
    if ← atMark .comma then
      let at0 ← here
      return .mk ⟨at0, at0⟩ .hole
    argument rules
  let (elements, trailing) ← between .leftBracket .rightBracket
    (within Context.withIn (delimited .rightBracket item))
  noteTrailing start trailing
  node start (.array elements)

/-- A getter or setter in an object literal, from its key on. -/
def literalAccessor (start : Nat) (kind : MethodKind) (ms : List Modifier) : P Node := do
  let (key, computed) ← propertyKey rules
  let value ← methodFunction rules false false
  checkAccessor kind value
  verify ms (fun _ => false) fun m => .misplacedModifier m.text
  node start (.method kind key value computed)

/-- A member of an object literal behind its modifiers; its key is no word before a getter or
setter. -/
def literalProperty (start : Nat) (ms : List Modifier) : P Node := do
  let isGenerator ← eat .star
  let first ← kind
  let (key, computed) ← propertyKey rules
  if isGenerator || (← atMark .leftParen) || (← atMark .less) then
    verify ms (· == .async) fun m => .misplacedModifier m.text
    let value ← methodFunction rules (ms.contains .async) isGenerator
    return ← node start (.method .plain key value computed)
  verify ms (fun _ => false) fun m => .misplacedModifier m.text
  if isReference first (← get).context && !computed && !(← atMark .colon) then
    if ← eat (.assign none) then
      let value ← within Context.withIn (rules .assignment)
      change (fun s => { s with initializers := start :: s.initializers })
        fun _ => .of_same rfl rfl rfl rfl
      let both ← node start (.defaulted key value)
      node start (.property key both computed true)
    else node start (.property key key computed true)
  else
    expect .colon
    let value ← rules .assignment
    node start (.property key value computed false)

/-- A member of an object literal. -/
def literalMember : P Node := do
  let start ← here
  if ← eat .ellipsis then
    let value ← rules .assignment
    return ← node start (.spread value)
  let ms ← modifiers false
  if ← eatAccessorWord "get" then literalAccessor rules start .getter ms
  else if ← eatAccessorWord "set" then literalAccessor rules start .setter ms
  else literalProperty rules start ms

/-- An object literal. -/
def objectLiteral : P Node := do
  let start ← here
  let (members, trailing) ← between .leftBrace .rightBrace
    (within Context.withIn (delimited .rightBrace (literalMember rules)))
  noteTrailing start trailing
  node start (.object members)

/-- A function in parentheses keeps them. -/
def wrapFunction (n : Node) : Node :=
  match n.form with
  | .function t name ps body => .mk n.span (.function { t with wrapped := true } name ps body)
  | .arrow t ps body => .mk n.span (.arrow { t with wrapped := true } ps body)
  | _ => n

/-- An expression in parentheses. -/
def parenthesized : P Node := do
  let start ← here
  let isMarked := (← get).token.noSideEffects
  expect .leftParen
  let innerStart ← here
  let (values, trailing) ←
    within Context.inside (delimited .rightParen (rules .assignment))
  if trailing then return ← stop .trailingCommaInParentheses
  let inner ←
    match values with
    | [] =>
      expect .rightParen
      return ← stop .emptyParentheses
    | [value] => pure value
    | _ => node innerStart (.sequence values)
  expect .rightParen
  let wrapped := wrapFunction inner
  node start (.parenthesized (if isMarked then markPure wrapped else wrapped))

/-! ## Primary expressions -/

/-- A literal that is one token. -/
def tokenLiteral (form : Form Node) : P Node := do
  let start ← here
  advance
  node start form

/-- `import()` behind its keyword and phase. -/
def importCall (start : Nat) (phase : Option ImportPhase) : P Node := do
  expect .leftParen
  if ← eat .rightParen then return ← stop .importWithoutSource
  let (source, options) ← within Context.withIn do
    let source ← rules .assignment
    if ← eat .comma then
      if ← atMark .rightParen then return (source, none)
      let options ← rules .assignment
      let _ ← eat .comma
      return (source, some options)
    return (source, none)
  unless ← eat .rightParen do return ← stop .importArguments
  node start (.dynamicImport phase source options)

/-- What starts with `import` inside of an expression. -/
def importExpression : P Node := do
  let start ← here
  advance
  if ← eat .dot then
    match ← kind with
    | .word "meta" =>
      advance
      node start .importMeta
    | .word "source" =>
      advance
      importCall rules start (some .source)
    | .word "defer" =>
      advance
      importCall rules start (some .deferred)
    | _ =>
      advance
      stop .importMetaProperty
  else if ← atMark .leftParen then importCall rules start none
  else unexpected

/-- What starts with `new`. -/
def newExpression : P Node := do
  let start ← here
  advance
  if ← eat .dot then
    let isTarget ← atWord "target"
    advance
    return ← if isTarget then node start .newTarget else stop .newMetaProperty
  let callee ← rules .access
  let xs ← if ← atMark .leftParen then arguments rules else pure []
  let (callee, isChain) :=
    match callee.form with
    | .chain inner => (inner, true)
    | _ => (callee, false)
  match callee.form with
  | .dynamicImport _ _ _ => note .newDynamicImport
  | _ => pure ()
  if isChain then stop .newOptionalChain
  else node start (.construct callee xs false)

/-- An element of a markup language, which is no value. -/
def refusedElement : P Node := do
  match ← attempt (markup rules) with
  | some () => stop .markup
  | none => unexpected

/-- A value that needs nothing on its left. -/
def primary : P Node := do
  let start ← here
  match ← kind with
  | .word "async" =>
    if ← atAsyncFunction then
      advance
      function rules start .expression true false
    else identifierReference
  | .word _ => identifierReference
  | .string value flaw _ => tokenLiteral (.stringLiteral value flaw)
  | .number value flaw _ => tokenLiteral (.numberLiteral value flaw)
  | .bigint value _ => tokenLiteral (.bigintLiteral value)
  | .template _ _ _ => template rules false
  | .keyword .this => tokenLiteral .thisValue
  | .keyword .null => tokenLiteral .nullLiteral
  | .keyword .true => tokenLiteral (.booleanLiteral true)
  | .keyword .false => tokenLiteral (.booleanLiteral false)
  | .keyword .function => function rules start .expression false false
  | .keyword .class => classLike rules start false false []
  | .keyword .new => newExpression rules
  | .keyword .import => importExpression rules
  | .keyword .super =>
    advance
    match ← kind with
    | .mark .dot | .mark .leftParen | .mark .leftBracket => pure ()
    | _ => note .lonelySuper
    node start .superValue
  | .mark .leftBracket => arrayLiteral rules
  | .mark .leftBrace => objectLiteral rules
  | .mark .leftParen => parenthesized rules
  | .mark .slash | .mark (.assign (some .divide)) => regexLiteral
  | .mark .at =>
    let ds ← decorators rules
    if ← atKeyword .class then classLike rules start false false ds else unexpected
  | .mark .less => refusedElement rules
  | _ => unexpected

/-! ## Accesses and calls -/

/-- A member behind a dot. -/
def memberAccess (start : Nat) (object : Node) (isOptional : Bool) : P Node := do
  match ← kind with
  | .privateName name =>
    advance
    node start (.privateMember object name isOptional)
  | _ =>
    let name ← nameText
    node start (.member object name isOptional)

/-- A member in brackets. -/
def indexAccess (start : Nat) (object : Node) (isOptional : Bool) : P Node := do
  let key ← between .leftBracket .rightBracket (within Context.inside (rules .expression))
  node start (.index object key isOptional)

def isTemplateStart : TokenKind → Bool
  | .template .whole _ _ | .template .head _ _ => true
  | _ => false

/-- Members and tags behind a value; also tells whether the value may be missing on the way. -/
def accesses (start : Nat) (value : Node) (isChain : Bool) : P (Node × Bool) := do
  iterate (fun (n, isChain) => do
    if ← hasFailed then return .inr (n, isChain)
    let k ← kind
    if k == .mark .questionDot then
      -- a call behind the mark is no access
      let isAccess ← lookahead do
        advance
        match ← kind with
        | .mark .leftBracket | .privateName _ => return true
        | k => return isName k || isTemplateStart k
      unless isAccess do return .inr (n, true)
      advance
      if isTemplateStart (← kind) then return .inl (n, true)
      let n ← if ← atMark .leftBracket then indexAccess rules start n true
        else memberAccess start n true
      return .inl (n, true)
    if ← eat .dot then return .inl (← memberAccess start n false, isChain)
    if k == .mark .leftBracket && !(← get).context.decorates then
      return .inl (← indexAccess rules start n false, isChain)
    if isTemplateStart k then
      if isChain then note .taggedOptionalChain
      let text ← template rules true
      return .inl (← node start (.tagged n text), isChain)
    return .inr (n, isChain)) (← limit) (value, isChain)

/-- Accesses without calls. -/
def accessLevel : P Node := do
  let start ← here
  let first ← primary rules
  let (n, isChain) ← accesses rules start first false
  if isChain then node start (.chain n) else return n

/-- Accesses and calls. -/
def leftHandSide : P Node := do
  let start ← here
  let first ← primary rules
  let (n, isChain) ← iterate (fun (n, isChain) => do
    if ← hasFailed then return .inr (n, isChain)
    let (n, isChain) ← accesses rules start n isChain
    let isOptional ← eat .questionDot
    if ← atMark .leftParen then
      let xs ← arguments rules
      return .inl (← node start (.call n xs isOptional false), isChain || isOptional)
    if isOptional then return .inr (← stop .missingOptionalName)
    return .inr (n, isChain)) (← limit) (first, false)
  if isChain then node start (.chain n) else return n

/-! ## Operators -/

def unaryOperator? : TokenKind → Option UnaryOperator
  | .mark .plus => some .plus
  | .mark .minus => some .minus
  | .mark .bang => some .negation
  | .mark .tilde => some .complement
  | .keyword .typeof => some .typeOf
  | .keyword .void => some .voidOf
  | .keyword .delete => some .delete
  | _ => none

def updateOperator? : TokenKind → Option UpdateOperator
  | .mark .increment => some .increment
  | .mark .decrement => some .decrement
  | _ => none

/-- Whether the next token can begin an operand and stands on the same line. -/
def operandFollows (begins : TokenKind → Bool) : P Bool :=
  lookahead do
    advance
    return begins (← kind) && !(← onNewLine)

/-- Whether a token is a name or a literal, but no operator. -/
def isValueStart (k : TokenKind) : Bool :=
  (isName k || isLiteral k) && k != .keyword .in && k != .keyword .instanceof

/-- `await` is an operator where it is allowed, and where it can be nothing else. A slash behind it
opens a regular expression, and `of` belongs to a loop. -/
def atAwait : P Bool := do
  unless ← atWord "await" do return false
  if (← get).context.awaits then return true
  operandFollows fun k => k == .mark .slash || (isValueStart k && k != .word "of")

/-- Reads an operand, and gives it the mark that stands before it. -/
def marked (p : P Node) : P Node := do
  let isMarked := (← get).token.pureMark
  let n ← p
  if isMarked then return markCall (← limit) n else return n

/-- A value with operators before or behind it. -/
def unary : P Node := do
  let start ← here
  let k ← kind
  match unaryOperator? k, updateOperator? k with
  | some op, _ =>
    advance
    let x ← marked (rules .unary)
    node start (.unary op x)
  | none, some op =>
    advance
    let x ← placeTarget (← rules .unary)
    node start (.update op true x)
  | none, none =>
    if ← atAwait then
      unless (← get).context.awaits do note .awaitOutsideAsync
      advance
      let x ← within (fun c => { c with awaits := true }) (rules .unary)
      return ← node start (.awaitValue x)
    let x ← rules .leftHandSide
    match updateOperator? (← kind) with
    | some op =>
      if ← onNewLine then return x
      advance
      let x ← placeTarget x
      node start (.update op false x)
    | none => return x

/-- The operator between operands that a token is. -/
def binaryOperator? : TokenKind → Option BinaryOperator
  | .mark m => m.binary?
  | .keyword .instanceof => some .instanceOf
  | .keyword .in => some .inside
  | _ => none

/-- Whether an operand is a short-circuiting one that does not go together with `??`. -/
def clashesWithCoalesce (n : Node) : Option Bool :=
  match n.form with
  | .binary op _ _ => if op.isLogical then some (op == .and || op == .or) else none
  | _ => none

/-- Complains about operands that would need parentheses, unless they begin with some. -/
def checkOperands (op : BinaryOperator) (left right : Node)
    (leftParenthesized rightParenthesized : Bool) : P Unit := do
  if op == .coalesce then
    match clashesWithCoalesce right, clashesWithCoalesce left with
    | some clashes, _ => if clashes && !rightParenthesized then note .mixedCoalesce
    | none, some clashes => if clashes && !leftParenthesized then note .mixedCoalesce
    | none, none => pure ()
  if op == .power && !leftParenthesized then
    match left.form with
    | .unary _ _ | .awaitValue _ => note .unaryBeforePower
    | _ => pure ()

/-- A private name whose presence is tested. It is no operand of what binds as tight as the test. -/
def privateTest (start : Nat) (name : String) (above : Precedence) : P Node := do
  if Precedence.comparison ≤ above then return ← stop .privateOperand
  advance
  let left ← node start (.privateName name)
  expectKeyword .in
  let right ← rules (.operand .comparison)
  node start (.binary .inside left right)

/-- Operands and operators that bind tighter than `above`. -/
def operand (above : Precedence) : P Node := do
  let start ← here
  let leftParenthesized ← atMark .leftParen
  let first ←
    match ← kind with
    | .privateName name =>
      if (← get).context.allowsIn then privateTest rules start name above
      else marked (rules .unary)
    | _ => marked (rules .unary)
  iterate (fun left => do
    let k ← kind
    if (k == .word "as" || k == .word "satisfies") && !(← onNewLine) &&
        above < Precedence.comparison then
      advance
      let _ ← rules .type
      unless (← get).typed do
        note (if k == .word "as" then .typeAssertion else .typeSatisfaction)
      return .inl left
    match binaryOperator? k with
    | none => return .inr left
    | some op =>
      let strength := op.precedence
      if (if op.groupsRight then strength < above else strength ≤ above) then return .inr left
      if op == .inside && !(← get).context.allowsIn then return .inr left
      advance
      let rightParenthesized ← atMark .leftParen
      let right ← rules (.operand strength)
      checkOperands op left right leftParenthesized rightParenthesized
      return .inl (← node start (.binary op left right))) (← limit) first

/-! ## Functions with an arrow -/

/-- Whether parentheses begin a function. -/
inductive Guess where
  | no
  | yes
  | maybe
deriving Repr, DecidableEq, Inhabited

/-- Whether a modifier stands here before the name of a parameter. -/
def atParameterModifier : P Bool := do
  match Modifier.ofToken? (← kind) with
  | none | some .async => return false
  | some _ =>
    lookahead do
      advance
      return isWord (← kind) && !(← atWord "as")

/-- Looks behind an opening parenthesis. -/
def guessBehindParen : P Guess := do
  advance
  match ← kind with
  | .mark .rightParen =>
    advance
    match ← kind with
    | .mark .arrow | .mark .leftBrace => return .yes
    | .mark .colon => return if (← get).typed then .yes else .no
    | _ => return .no
  | .mark .leftBracket | .mark .leftBrace => return .maybe
  | .mark .ellipsis =>
    advance
    let k ← kind
    return if isWord k && !k.isReservedWord then .yes else .maybe
  | k =>
    if ← atParameterModifier then return .yes
    unless isWord k || k == .keyword .this do return .no
    advance
    match ← kind with
    | .mark .colon => return .yes
    | .mark .question =>
      advance
      match ← kind with
      | .mark .colon | .mark .comma | .mark (.assign none) | .mark .rightParen => return .yes
      | _ => return .no
    | .mark .comma | .mark (.assign none) | .mark .rightParen => return .maybe
    | _ => return .no

/-- Whether a function with parameters in parentheses begins here. -/
def guessFunction : P Guess :=
  lookahead do
    match ← kind with
    | .mark .leftParen => guessBehindParen
    | .word "async" =>
      advance
      if ← onNewLine then return .no
      if ← atMark .leftParen then guessBehindParen else return .no
    | _ => return .no

/-- The arrow itself. -/
def arrowMark : P Unit := do
  if ← onNewLine then note .newlineBeforeArrow
  expect .arrow

/-- The body behind the arrow. -/
def arrowBody (start : Nat) (isAsync : Bool) (ps : List Node) : P Node := do
  let body ← within (fun c => { c with awaits := isAsync, yields := false }) do
    if ← atMark .leftBrace then functionBody rules else rules .assignment
  node start (.arrow { isAsync } ps body)

/-- Everything up to the arrow of a function with parameters in parentheses. -/
def arrowHead : P (Bool × List Node) := do
  let isAsync ← eatWord "async"
  let ps ← within (fun c => { c with awaits := c.awaits || isAsync }) (parameters rules)
  arrowMark
  return (isAsync, ps)

/-- A body has to follow. -/
def refuseEnd : P Unit := do
  if (← get).isUsedUp then unexpected

/-- A function with an arrow, if one begins here. -/
def arrowFunction? : P (Option Node) := do
  let start ← here
  match ← guessFunction with
  | .yes =>
    let (isAsync, ps) ← arrowHead rules
    some <$> arrowBody rules start isAsync ps
  | .maybe =>
    if (← get).notFunctions.contains start then return none
    match ← attempt (arrowHead rules <* refuseEnd) with
    | some (isAsync, ps) => some <$> arrowBody rules start isAsync ps
    | none =>
      change (fun s => { s with notFunctions := start :: s.notFunctions })
        fun _ => .of_same rfl rfl rfl rfl
      return none
  | .no =>
    unless ← atWord "async" do return none
    let isArrow ← lookahead do
      advance
      if (← onNewLine) || !isWord (← kind) then return false
      advance
      atMark .arrow
    unless isArrow do return none
    advance
    let p ← rules (.operand .comma)
    arrowMark
    some <$> arrowBody rules start true [p]

/-! ## The loosest operators -/

/-- `yield` is an operator where it is allowed, and where it can be nothing else. -/
def atYield : P Bool := do
  unless ← atWord "yield" do return false
  if (← get).context.yields then return true
  operandFollows isValueStart

/-- Whether nothing follows `yield`. -/
def yieldEnds (k : TokenKind) : Bool :=
  [.eof, .mark .semicolon, .mark .rightBrace, .mark .rightParen, .mark .rightBracket, .mark .colon,
    .mark .comma, .keyword .in].contains k

def yieldExpression : P Node := do
  let start ← here
  advance
  unless (← get).context.yields do note .yieldOutsideGenerator
  if ← onNewLine then return ← node start (.yieldValue false none)
  let delegates ← eat .star
  if !delegates && yieldEnds (← kind) then return ← node start (.yieldValue false none)
  let value ← within (fun c => { c with yields := true }) (rules .assignment)
  node start (.yieldValue delegates (some value))

/-- Everything that binds looser than the operators between operands, but no comma. -/
def assignment : P Node := do
  let noSideEffects := (← get).token.noSideEffects
  let mark (n : Node) : Node := if noSideEffects then markPure n else n
  if ← atYield then return ← yieldExpression rules
  if let some arrow ← arrowFunction? rules then return mark arrow
  let start ← here
  let left ← rules (.operand .comma)
  match ← kind with
  | .mark .arrow =>
    match left.form with
    | .identifier _ =>
      arrowMark
      return mark (← arrowBody rules start false [left])
    | _ => return left
  | .mark (.assign op) =>
    let target ← assignmentTarget left
    advance
    let value ← rules .assignment
    node start (.assign op target value)
  | .mark .question =>
    advance
    let yes ← within Context.withIn (rules .assignment)
    expect .colon
    let no ← rules .assignment
    return mark (← node start (.conditional left yes no))
  | _ => return mark left

/-- Expressions with commas between them. -/
def expression : P Node :=
  within (fun c => { c with decorates := false }) do
    let start ← here
    let first ← rules .assignment
    unless ← atMark .comma do return first
    let reversed ← iterate (fun taken => do
      unless ← eat .comma do return .inr taken
      return .inl ((← rules .assignment) :: taken)) (← limit) [first]
    node start (.sequence reversed.reverse)

end Awaitless.Script.Parser
