import Awaitless.Script.Parser.Goal

/-!
# Patterns

* `pattern`, `element` — patterns that bind names.
* `coverTarget` — reads an expression again as the target of an assignment.
* `propertyKey` — the key of a member, which patterns and literals share.
-/

namespace Awaitless.Script.Parser

variable (rules : Rules)

/-- The key of a member, and whether it is computed. -/
def propertyKey : P (Node × Bool) := do
  let start ← here
  match ← kind with
  | .string value flaw _ =>
    advance
    return (← node start (.stringLiteral value flaw), false)
  | .number value flaw _ =>
    advance
    return (← node start (.numberLiteral value flaw), false)
  | .bigint value _ =>
    advance
    return (← node start (.bigintLiteral value), false)
  | .mark .leftBracket =>
    let key ← between .leftBracket .rightBracket (within Context.withIn (rules .assignment))
    return (key, true)
  | _ => return (← identifierName, false)

/-! ## Binding patterns -/

/-- A default behind a target, if there is one. -/
def withDefault (start : Nat) (target : Node) : P Node := do
  if ← eat (.assign none) then
    let value ← within Context.withIn (rules .assignment)
    node start (.defaulted target value)
  else return target

/-- A pattern, perhaps with a default. -/
def element : P Node := do
  let start ← here
  let target ← rules .pattern
  withDefault rules start target

/-- `...` and a pattern. -/
def restElement : P Node := do
  let start ← here
  advance
  let inner ← here
  let target ← withDefault rules inner (← rules .pattern)
  match target.form with
  | .defaulted _ _ => note .restInitializer
  | _ => pure ()
  node start (.rest target)

/-- A member of an object pattern. -/
def patternMember : P Node := do
  let start ← here
  let first ← kind
  let (key, computed) ← propertyKey rules
  let colon ← atMark .colon
  match first, key.form with
  | .word name, .identifier _ =>
    if colon then pure ()
    else
      checkIdentifier name (← get).context
      let value ← withDefault rules start key
      return ← node start (.patternProperty key value computed true)
  | _, _ => pure ()
  expect .colon
  let value ← element rules
  node start (.patternProperty key value computed false)

/-- An element of an array pattern, or a hole. -/
def patternElement : P Node := do
  if ← atMark .comma then
    let at0 ← here
    return .mk ⟨at0, at0⟩ .hole
  element rules

/-- The members of an object pattern. What is left over goes to a plain name. -/
def patternMembers : P (List Node) := do
  let (members, rest) ←
    delimitedWithRest .rightBrace .restElementNotLast (patternMember rules) (restElement rules)
  match rest.map Node.form with
  | some (.rest target) =>
    match target.form with
    | .identifier _ => pure ()
    | _ => stop .restPattern
  | _ => pure ()
  return members ++ rest.toList

/-- A pattern that binds names. -/
def pattern : P Node := do
  let start ← here
  match ← kind with
  | .mark .leftBrace =>
    let members ← between .leftBrace .rightBrace (patternMembers rules)
    node start (.objectPattern .binding members)
  | .mark .leftBracket =>
    let (elements, rest) ← between .leftBracket .rightBracket
      (delimitedWithRest .rightBracket .restElementNotLast (patternElement rules)
        (restElement rules))
    node start (.arrayPattern .binding (elements ++ rest.toList))
  | _ => bindingIdentifier

/-! ## Expressions as targets -/

/-- A target that is a single place. Parentheses around it are dropped. -/
def coverSimple : (steps : Nat) → Node → P Node
  | 0, _ => unexpected
  | steps + 1, n =>
    match n.form with
    | .identifier _ | .member _ _ _ | .privateMember _ _ _ | .index _ _ _ => return n
    | .parenthesized inner =>
      match inner.form with
      | .object _ | .array _ => stop .invalidTarget
      | _ => coverSimple steps inner
    | _ => stop .invalidTarget

/-- Whether an expression can take what is left over: a place, or perhaps a pattern. -/
def takesRest (allowsPattern : Bool) (n : Node) : Bool :=
  match n.bare.form with
  | .identifier _ | .member _ _ _ | .privateMember _ _ _ | .index _ _ _ => true
  | .array _ | .object _ => allowsPattern
  | _ => false

/-- A spread as the rest of a pattern; it has to be the last of the members. -/
def coverRest (cover : Node → P Node) (literal : Span) (allowsPattern isLast : Bool)
    (spread inner : Node) : P Node := do
  unless isLast do return ← stop .spreadNotLast
  unless takesRest allowsPattern inner do note .restTarget
  if (← get).trailingCommas.contains literal.start then note .trailingCommaAfterRest
  return .mk spread.span (.rest (← cover inner))

/-- The last one of some items gets a mark. -/
def markLast : List α → List (α × Bool)
  | [] => []
  | [x] => [(x, true)]
  | x :: rest => (x, false) :: markLast rest

/-- Reads an expression again as a target with its default, if it has one. -/
def coverDefault (cover : Node → P Node) (n : Node) : P Node := do
  match n.form with
  | .assign op target default =>
    if op.isSome then note .defaultOperator
    return .mk n.span (.defaulted target default)
  | _ => cover n

/-- Reads an expression again as the target of an assignment. -/
def coverTarget : (steps : Nat) → Node → P Node
  | 0, _ => unexpected
  | steps + 1, n =>
    let cover := coverTarget steps
    match n.form with
    | .array elements => do
      let covered ← (markLast elements).mapM fun (e, isLast) =>
        match e.form with
        | .hole => return e
        | .spread inner => coverRest cover n.span true isLast e inner
        | _ => coverDefault cover e
      return .mk n.span (.arrayPattern .target covered)
    | .object members => do
      let covered ← (markLast members).mapM fun (m, isLast) => do
        match m.form with
        | .spread inner => coverRest cover n.span false isLast m inner
        | .property key value computed true =>
          change (fun s =>
            { s with initializers := s.initializers.filter fun i => i != m.span.start })
              fun _ => .of_same rfl rfl rfl rfl
          return .mk m.span (.patternProperty key value computed true)
        | .property key value computed false =>
          return .mk m.span (.patternProperty key (← coverDefault cover value) computed false)
        | _ => stop .invalidTarget
      return .mk n.span (.objectPattern .target covered)
    | _ => coverSimple (steps + 1) n

/-- The expression as the target of an assignment. -/
def assignmentTarget (n : Node) : P Node := do
  coverTarget (← limit) n

/-- The expression as a target that is a single place. -/
def placeTarget (n : Node) : P Node := do
  coverSimple (← limit) n

end Awaitless.Script.Parser
