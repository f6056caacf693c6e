import Awaitless.Script.Parser.Modifier
import Awaitless.Script.Parser.Pattern
import Awaitless.Script.Parser.Types

/-!
# Functions

* `decorators` — the decorators before a class, a member or a parameter.
* `parameters`, `functionBody` — what all functions share.
* `function` — declarations and expressions that start with `function`.
* `statementList` — statements with the directives before them.
-/

namespace Awaitless.Script.Parser

variable (rules : Rules)

/-! ## Decorators -/

/-- The decorators that stand here. Where a value may be missing on the way, parentheses are
needed. -/
def decorators : P (List Node) := do
  let reversed ← iterate (fun taken => do
    unless ← eat .at do return .inr taken
    let d ← within (fun c => { c with decorates := true }) (rules .leftHandSide)
    match d.form with
    | .chain _ => note .decoratorParentheses
    | _ => pure ()
    return .inl (d :: taken)) (← limit) []
  return reversed.reverse

/-- Complains about decorators where there can be none. -/
def refuseDecorators (ds : List Node) : P Unit :=
  ds.forM fun _ => note .misplacedDecorators

/-! ## Bodies -/

/-- The directive that a statement at the start of a body is, if it is one. -/
def directive? (first : TokenKind) (statement : Node) : Option Directive :=
  match first, statement.form with
  | .string _ _ raw, .expression value =>
    match value.form with
    | .stringLiteral v flaw => some ⟨statement.span, raw, v, flaw⟩
    | _ => none
  | _, _ => none

/-- Statements up to `stops`, or as long as there is a token, with the directives before them. -/
def statementList (stops : TokenKind → Bool) : P (List Directive × List Node) := do
  let (directives, statements, _) ← iterate (fun (ds, ss, leading) => do
    let first ← kind
    if (← get).isUsedUp || stops first then return .inr (ds, ss, leading)
    let s ← rules (.statement false)
    match if leading then directive? first s else none with
    | some d => return .inl (d :: ds, ss, true)
    | none => return .inl (ds, s :: ss, false)) (← limit) ([], [], true)
  return (directives.reverse, statements.reverse)

/-- The body of a function. -/
def functionBody : P Node := do
  let start ← here
  let (directives, statements) ← between .leftBrace .rightBrace
    (within (fun c => { c with returns := true }) (statementList rules (· == .mark .rightBrace)))
  node start (.body directives statements)

/-- A parameter where types are read. -/
def typedParameter : P Node := do
  let start ← here
  let _ ← decorators rules
  let ms ← modifiers false
  let target ← rules .pattern
  let isOptional ← eat .question
  let type ← typeAnnotation? rules
  let traits : ParameterTraits :=
    { access := Modifier.access? ms
      overrides := ms.contains .override
      isReadonly := ms.contains .readonly
      isOptional
      type }
  let p ← if traits == {} then pure target else node start (.annotated traits target)
  withDefault rules start p

/-- A parameter. Its decorators are not kept. -/
def parameter : P Node := do
  if (← get).typed then return ← typedParameter rules
  let ds ← decorators rules
  let ms ← modifiers false
  verify ms (fun _ => false) fun _ => .parameterModifier
  let p ← element rules
  refuseDecorators ds
  return p

/-- The parameter that takes what is left over. -/
def restParameter : P Node := do
  let start ← here
  let r ← restElement rules
  match r.form, ← typeAnnotation? rules with
  | .rest target, some type =>
    node start (.rest (.mk target.span (.annotated { type := some type } target)))
  | _, _ => return r

/-- The parameters in their parentheses. -/
def parameters : P (List Node) := do
  let (ps, rest) ← between .leftParen .rightParen
    (delimitedWithRest .rightParen .restParameterNotLast (parameter rules) (restParameter rules))
  return ps ++ rest.toList

/-! ## Functions -/

/-- How a function is introduced. -/
inductive FunctionRole where
  | declaration
  | expression
  | defaultExport
deriving Repr, DecidableEq, Inhabited

/-- The name behind `function`. -/
def functionName (role : FunctionRole) (isAsync isGenerator : Bool) : P (Option Node) := do
  let start ← here
  match ← kind with
  | .word name =>
    let outer := (← get).context
    let context : Context :=
      if role == .expression then { outer with awaits := isAsync, yields := isGenerator } else outer
    checkIdentifier name context
    advanceName
    return some (← node start (.identifier name))
  | found =>
    if role == .declaration then
      match found with
      | .mark .leftParen => note .missingFunctionName
      | .keyword k => stop (.expected "Identifier" k.text)
      | _ => pure ()
    return none

/-- Parameters and body of a function in its own context. -/
def functionTail (isAsync isGenerator : Bool) :
    P (List Node × Option String × Option Node) :=
  within (fun c => { c with allowsIn := true, awaits := isAsync, yields := isGenerator }) do
    let ps ← parameters rules
    let resultType ← typeAnnotation? rules
    let body ← if ← atMark .leftBrace then some <$> functionBody rules else pure none
    return (ps, resultType, body)

/-- A function whose keyword comes next. -/
def function (start : Nat) (role : FunctionRole) (isAsync declared : Bool) : P Node := do
  expectKeyword .function
  let isGenerator ← eat .star
  let name ← functionName role isAsync isGenerator
  let (ps, resultType, body) ← functionTail rules isAsync isGenerator
  if body.isNone then
    unless (← get).typed do stop .missingFunctionBody
    finishStatement
  node start (.function { isAsync, isGenerator, declared, resultType } name ps body)

/-- Whether `async` and `function` stand here on one line. -/
def atAsyncFunction : P Bool := do
  unless ← atWord "async" do return false
  lookahead do
    advance
    return (← atKeyword .function) && !(← onNewLine)

/-- The function of a method: parameters and body. -/
def methodFunction (isAsync isGenerator : Bool) : P Node := do
  let start ← here
  let (ps, resultType, body) ← functionTail rules isAsync isGenerator
  if body.isNone then
    unless (← get).typed do stop .missingFunctionBody
    finishStatement
  node start (.function { isAsync, isGenerator, resultType } none ps body)

/-! ## Marks -/

/-- A function or arrow that is marked as free of side effects. -/
def markPure (n : Node) : Node :=
  match n.form with
  | .function t name ps body => .mk n.span (.function { t with pure := true } name ps body)
  | .arrow t ps body => .mk n.span (.arrow { t with pure := true } ps body)
  | _ => n

/-- A declaration of constants, of which the first one gets a marked value. -/
def markConstants (n : Node) : Node :=
  match n.form with
  | .bindings .constant (first :: others) =>
    match first.form with
    | .declarator target (some value) =>
      .mk n.span (.bindings .constant
        (.mk first.span (.declarator target (some (markPure value))) :: others))
    | _ => n
  | _ => n

/-- The statement behind a mark: the mark is for the function that it declares, exports, or gives
to its first constant. -/
def markStatement (n : Node) : Node :=
  match n.form with
  | .function _ _ _ _ => markPure n
  | .exportDefault value => .mk n.span (.exportDefault (markPure value))
  | .exportDeclaration d =>
    match d.form with
    | .function _ _ _ _ => .mk n.span (.exportDeclaration (markPure d))
    | _ => .mk n.span (.exportDeclaration (markConstants d))
  | _ => markConstants n

/-- A call that is marked as free of side effects, looked for where the mark can reach it. -/
def markCall : (steps : Nat) → Node → Node
  | 0, n => n
  | steps + 1, n =>
    match n.form with
    | .parenthesized x => .mk n.span (.parenthesized (markCall steps x))
    | .call c xs q _ => .mk n.span (.call c xs q true)
    | .construct c xs _ => .mk n.span (.construct c xs true)
    | .binary op l r => .mk n.span (.binary op (markCall steps l) r)
    | .conditional t a b => .mk n.span (.conditional (markCall steps t) a b)
    | .chain x =>
      match x.form with
      | .call c xs q _ => .mk n.span (.chain (.mk x.span (.call c xs q true)))
      | _ => n
    | _ => n

end Awaitless.Script.Parser
