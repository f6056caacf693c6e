import Awaitless.Script.Printer.Rules

/-!
# Patterns, functions and classes

* `pattern` — patterns that bind names, and targets of assignments.
* `functionBody`, `function` — functions, with their directives and their closing comments.
* `classLike` — classes with their members.
-/

namespace Awaitless.Script.Printer

variable (rules : Rules)

/-- The key of a member or of a property. -/
def memberKey (key : Node) (computed : Bool) : W Unit :=
  bracket computed <|
    match key.form with
    | .identifier name => word name
    | .privateName name => write ("#" ++ name)
    | .stringLiteral value _ => stringLiteral false value
    | _ => rules (.expression key .item)

/-- A word before something, if it is there. -/
def modifier (present : Bool) (text : String) : W Unit := do
  if present then
    word text
    softSpace

/-- The word that says who may use a member. -/
def accessModifier (access : Option Access) : W Unit :=
  match access with
  | some a => modifier true a.text
  | none => pure ()

/-! ## Patterns -/

/-- A target with its default. -/
def defaulted (target value : Node) : W Unit := do
  rules (.pattern target)
  softSpace
  write "="
  softSpace
  rules (.expression value .item)

/-- Whether a property binds the name that its key is. -/
def bindsItsKey (key value : Node) (computed : Bool) : Bool :=
  let bound :=
    match value.form with
    | .defaulted target _ => target.name?
    | _ => value.name?
  match key.form with
  | .identifier name => !computed && bound == some name
  | _ => false

/-- Whether a property of a target is written without its key. Minified, a name needs none. -/
def targetOmitsKey (key value : Node) (computed shorthand isMinified : Bool) : Bool :=
  shorthand || (isMinified && bindsItsKey key value computed)

/-- A member of an object pattern. -/
def patternMember (role : PatternRole) (member : Node) : W Unit := do
  match member.form with
  | .patternProperty key value computed shorthand =>
    let isMinified ← minify
    let omitsKey :=
      match role with
      | .binding => bindsItsKey key value computed
      | .target => targetOmitsKey key value computed shorthand isMinified
    unless omitsKey do
      memberKey rules key computed
      write ":"
      softSpace
    rules (.pattern value)
  | _ => rules (.pattern member)

def isHole (n : Node) : Bool :=
  match n.form with
  | .hole => true
  | _ => false

def isRest (n : Node) : Bool :=
  match n.form with
  | .rest _ => true
  | _ => false

/-- What stands before the name or pattern of a parameter. -/
def parameterModifiers (t : ParameterTraits) : W Unit := do
  accessModifier t.access
  modifier t.overrides "override"
  modifier t.isReadonly "readonly"

/-- What stands behind the name or pattern of a parameter. -/
def parameterType (t : ParameterTraits) : W Unit := do
  if t.isOptional then write "?"
  match t.type with
  | some text =>
    write ":"
    softSpace
    write text
  | none => pure ()

/-- A pattern, a parameter or the target of an assignment. Only patterns that bind names have
spaces inside of their braces, and before a rest that stands first. -/
def pattern (n : Node) : W Unit := do
  match n.form with
  | .objectPattern role members =>
    write "\x7b"
    let spaced := role == .binding && !members.isEmpty
    if spaced then softSpace
    separated (patternMember rules role) members
    if spaced then softSpace
    write "\x7d"
  | .arrayPattern role elements =>
    write "["
    if role == .binding && elements.head?.any isRest then softSpace
    separated (fun e => if isHole e then pure () else rules (.pattern e)) elements
    if elements.getLast?.any isHole then write ","
    write "]"
  | .defaulted target value => defaulted rules target value
  | .rest target =>
    write "..."
    rules (.pattern target)
  | .annotated t target =>
    parameterModifiers t
    rules (.pattern target)
    parameterType t
  | _ => rules (.expression n .item)

/-! ## Functions -/

/-- The mark of functions that are free of side effects. -/
def noSideEffectsMark : String := "/* @__NO_SIDE_EFFECTS__ */"

/-- Statements one after the other. -/
def statements (list : List Node) : W Unit :=
  list.forM fun s => do
    settleSemicolon
    rules (.statement s)

/-- Whether a directive has to be put into single quotes. -/
def hasFreeDoubleQuote : List Char → Bool
  | '\\' :: _ :: rest => hasFreeDoubleQuote rest
  | c :: rest => c == '"' || hasFreeDoubleQuote rest
  | [] => false

/-- A directive, as it was written. -/
def directive (d : Directive) : W Unit := do
  commentsAt d.span.start
  indent
  let quote := if hasFreeDoubleQuote d.raw.toList then "'" else "\""
  write (quote ++ d.raw ++ quote ++ ";")
  softNewline

/-- A string that opens a body but is no directive is put into parentheses. -/
def guardedString? (s : Node) : Option Node :=
  match s.form with
  | .expression value =>
    match value.bare.form with
    | .stringLiteral _ _ => some value.bare
    | _ => none
  | _ => none

/-- The directives and statements of a body. -/
def bodyStatements (directives : List Directive) (list : List Node) : W Unit := do
  directives.forM directive
  match list with
  | [] => pure ()
  | first :: rest =>
    match guardedString? first, directives.isEmpty && !(← minify) with
    | some value, true =>
      wrap true (rules (.expression value .alone))
      endStatement
    | _, _ => rules (.statement first)
    statements rules rest

/-- The body of a function. Comments before its closing brace are kept. -/
def functionBody (n : Node) : W Unit := do
  match n.form with
  | .body directives list =>
    let last ← if n.span.stop = 0 then pure [] else takeComments (n.span.stop - 1)
    let isEmpty := directives.isEmpty && list.isEmpty
    let inline := isEmpty && last.all fun c => !c.afterNewline && !c.beforeNewline
    braces inline do
      bodyStatements rules directives list
      unless last.isEmpty do
        comments last
        modify fun s => { s with spaceForIndent := false }
    forgetSemicolon
  | _ => rules (.expression n .item)

/-- A parameter with its default. -/
def parameter (n : Node) : W Unit := do
  match n.form with
  | .defaulted target value =>
    rules (.pattern target)
    softSpace
    write "="
    softSpace
    rules (.expression value (← itemHere))
  | _ => rules (.pattern n)

/-- Parameters and body of a function or method. -/
def functionTail (resultType : Option String) (parameters : List Node) (body : Option Node) :
    W Unit := do
  wrap true (separated (parameter rules) parameters)
  match resultType with
  | some t => write (": " ++ t)
  | none => pure ()
  match body with
  | some b =>
    softSpace
    functionBody rules b
  | none => write ";"

/-- A function from its first keyword on. -/
def functionText (t : FunctionTraits) (name : Option Node) (parameters : List Node)
    (body : Option Node) : W Unit := freeOfNew do
  separateWord
  if t.declared then write "declare "
  if t.isAsync then write "async "
  write "function"
  if t.isGenerator then
    write "*"
    softSpace
  match name with
  | some n => rules (.pattern n)
  | none => pure ()
  functionTail rules t.resultType parameters body

/-- Whether a value at the edge would be read as a declaration. -/
def startsDeclaration (e : Edge) : Bool :=
  e == .statement || e == .defaultExport

/-- A function as a value. -/
def functionValue (t : FunctionTraits) (name : Option Node) (parameters : List Node)
    (body : Option Node) (bans : Bans) : W Unit := do
  let needed := t.wrapped || startsDeclaration (← edge)
  if t.pure then write (noSideEffectsMark ++ " ")
  wrap needed (under bans (functionText rules t name parameters body))

/-- A single parameter without parentheses around it. -/
def isLoneName (parameters : List Node) : Bool :=
  match parameters with
  | [p] =>
    match p.form with
    | .identifier _ => true
    | _ => false
  | _ => false

/-- A function with an arrow. -/
def arrow (t : FunctionTraits) (parameters : List Node) (body : Node) (place : Place) :
    W Unit := do
  if t.pure then write (noSideEffectsMark ++ " ")
  wrap (t.wrapped || Precedence.assignment ≤ place.level) <| under place.toBans do
    if t.isAsync then
      word "async"
      softSpace
    wrap (!((← minify) && isLoneName parameters)) (separated (parameter rules) parameters)
    softSpace
    write "=>"
    softSpace
    match body.form with
    | .body _ _ => functionBody rules body
    | _ =>
      setEdge .arrowBody
      rules (.expression body (place.withLevel .comma))

/-- A method from its modifiers on; `mark` stands behind its key. -/
def method (kind : MethodKind) (key value : Node) (computed : Bool) (mark : String) : W Unit := do
  match kind with
  | .getter => modifier true "get"
  | .setter => modifier true "set"
  | _ => pure ()
  match value.form with
  | .function t _ parameters body =>
    modifier t.isAsync "async"
    if t.isGenerator then write "*"
    memberKey rules key computed
    write mark
    functionTail rules t.resultType parameters body
  | _ => memberKey rules key computed

/-! ## Classes -/

/-- Whether a decorator needs parentheses: a name, an access or a call of one needs none. -/
def decoratorNeedsParens : Node → Bool
  | .mk _ (.identifier _) | .mk _ (.member _ _ _) | .mk _ (.privateMember _ _ _) => false
  | .mk _ (.call callee _ _ _) => decoratorNeedsParens callee
  | _ => true

/-- Decorators, each followed by a space. -/
def decorators (ds : List Node) : W Unit :=
  ds.forM fun d => do
    write "@"
    wrap (decoratorNeedsParens d) (rules (.expression d .alone))
    space

/-- The words before a method. -/
def methodModifiers (t : MemberTraits) : W Unit := do
  accessModifier t.access
  modifier t.isAbstract "abstract"
  modifier t.isStatic "static"
  modifier t.overrides "override"

/-- The words before a field. -/
def fieldModifiers (t : MemberTraits) : W Unit := do
  if t.isAccessor then
    modifier t.isAbstract "abstract"
    accessModifier t.access
  else
    modifier t.declared "declare"
    accessModifier t.access
    modifier t.isAbstract "abstract"
  modifier t.isStatic "static"
  modifier t.overrides "override"
  unless t.isAccessor do modifier t.isReadonly "readonly"

/-- A field of a class with its value. -/
def field (t : MemberTraits) (key : Node) (value : Option Node) (computed : Bool) : W Unit := do
  fieldModifiers t
  if t.isAccessor then
    word "accessor"
    if computed then softSpace else space
  memberKey rules key computed
  write t.presence.text
  match t.type with
  | some text =>
    write ":"
    softSpace
    write text
  | none => pure ()
  match value with
  | some v =>
    softSpace
    write "="
    softSpace
    rules (.expression v .item)
  | none => pure ()

/-- A member of a class with its end. -/
def classMember (m : Node) : W Unit := do
  settleSemicolon
  commentsAt m.span.start
  indent
  match m.form with
  | .staticBlock list =>
    modifier true "static"
    braces list.isEmpty (statements rules list)
    forgetSemicolon
    softNewline
  | .classMethod kind t ds key value computed =>
    decorators rules ds
    methodModifiers t
    method rules kind key value computed t.presence.text
    softNewline
  | .classField t ds key value computed =>
    decorators rules ds
    field rules t key value computed
    endStatement
  | _ => pure ()

/-- What a class extends and implements. -/
def heritage (t : ClassTraits) (parent : Option Node) : W Unit := do
  match parent with
  | some h =>
    write " extends "
    rules (.expression h { level := .postfixed })
    unless t.typeArguments.isEmpty do
      write "<"
      separated write t.typeArguments
      write ">"
  | none => pure ()
  unless t.implemented.isEmpty do
    write " implements "
    separated write t.implemented

/-- A class. -/
def classLike (t : ClassTraits) (ds : List Node) (name parent : Option Node)
    (members : List Node) : W Unit := freeOfNew do
  decorators rules ds
  separateWord
  if t.declared then write "declare "
  if t.isAbstract then write "abstract "
  write "class"
  match name with
  | some n =>
    space
    rules (.pattern n)
  | none => pure ()
  write (t.typeParameters.getD "")
  heritage rules t parent
  softSpace
  braces members.isEmpty (members.forM (classMember rules))
  forgetSemicolon

end Awaitless.Script.Printer
