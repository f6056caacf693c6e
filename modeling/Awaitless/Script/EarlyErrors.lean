import Awaitless.Script.EarlyErrors.Class
import Awaitless.Script.EarlyErrors.ModuleItem
import Awaitless.Script.Parse

/-!
# Rules beyond the grammar

A text can be a module by its grammar and still break a rule: a name is declared twice, a jump has
no target, a private name has no declaration.

* `Program.earlyErrors` — the rules that a module breaks, in source order.
-/

namespace Awaitless.Script

namespace EarlyErrors

/-- Only one case of a `switch` stands for all others. -/
def checkCases (cases : List Node) : M Unit := do
  let isDefault (n : Node) : Bool :=
    match n.form with
    | .switchCase none _ => true
    | _ => false
  if 1 < (cases.filter isDefault).length then report (.redeclared "default")

/-- Whether a member of an object gives it a prototype. -/
def givesPrototype (m : Node) : Bool :=
  match m.form with
  | .property key _ false false =>
    match key.form with
    | .identifier name => name == "__proto__"
    | .stringLiteral value _ => value == Text.Units.ofString "__proto__"
    | _ => false
  | _ => false

/-- Only one member gives an object its prototype. -/
def checkPrototypes (members : List Node) : M Unit :=
  ((members.filter givesPrototype).drop 1).forM fun _ => report (.redeclared "__proto__")

/-- Only a plain assignment takes values apart. -/
def checkOperator (op : AssignmentOperator) (target : Node) : M Unit :=
  match op, target.form with
  | some _, .objectPattern _ _ | some _, .arrayPattern _ _ => report .computedPattern
  | _, _ => pure ()

/-- What is called; `super` as such may not be called everywhere. -/
def checkCallee (callee : Part) (s : Setting) : M Unit :=
  match callee.1.form, s.superCall with
  | .superValue, some .allowed => pure ()
  | .superValue, some .withoutHeritage => report .superCallWithoutHeritage
  | .superValue, some .stray | .superValue, none => report .straySuperCall
  | _, _ => callee.2 s.inner

/-- The check of a node, from the checks of its parts. -/
def check (form : Form Part) (s : Setting) : M Unit := do
  let inner := s.inner
  match form with
  | .identifier name => if s.binds then checkBinding name else checkReference name s
  | .numberLiteral _ flaw => checkFlaw flaw
  | .stringLiteral _ flaw => checkFlaw flaw
  | .privateName name => usePrivateName name
  | .newTarget => unless s.hasNewTarget do report .strayNewTarget
  | .superValue => if s.superCall.isNone then report .superOutsideMember
  | .regexLiteral _ flags =>
    if flags.contains 'u' && flags.contains 'v' then report .exclusiveRegexFlags
  -- members and patterns
  | .object members =>
    checkAll members inner
    checkPrototypes (members.map (·.1))
  | .property key value computed shorthand =>
    unless shorthand do checkKey key computed inner
    value.2 inner
  | .method _ key value computed =>
    checkKey key computed inner
    value.2 (s.method .stray)
  | .objectPattern role members => checkAll members (s.pattern role)
  | .arrayPattern role elements => checkAll elements (s.pattern role)
  | .patternProperty key value computed shorthand =>
    unless shorthand do checkKey key computed inner
    value.2 { inner with binds := s.binds }
  | .defaulted target value =>
    target.2 { inner with binds := s.binds }
    value.2 inner
  | .rest target | .annotated _ target => target.2 { inner with binds := s.binds }
  -- functions and classes
  | .function _ name parameters body =>
    let claimed ← if s.declares then declareOwn .function name else pure none
    checkOption name { inner with binds := true }
    checkFunction parameters body s.functionBody
    claimed.toList.forM checkRepeatedFunction
  | .arrow _ parameters body => checkFunction parameters (some body) s.arrowBody
  | .body directives statements =>
    checkDirectives directives s
    checkAll statements { inner with declares := true }
  | .classLike traits decorators name heritage members =>
    checkClass traits decorators name heritage members inner s.declares s.isDefault
  | .classMethod kind _ decorators key value computed =>
    checkAll decorators inner
    checkKey key computed inner
    value.2 (s.classMethod kind)
  | .classField traits decorators key value computed =>
    checkAll decorators inner
    checkKey key computed inner
    checkOption value (s.field traits.isAccessor)
  | .staticBlock statements =>
    inScope .staticBlock (checkAll statements { s.staticBlock with declares := true })
  -- expressions
  | .unary .delete operand =>
    operand.2 inner
    match operand.1.bare.form with
    | .identifier _ => report .deletedIdentifier
    | .privateMember _ _ _ => report .deletedPrivateName
    | .chain x =>
      match x.form with
      | .privateMember _ _ _ => report .deletedPrivateName
      | _ => pure ()
    | _ => pure ()
  | .update _ _ operand => operand.2 { inner with inTarget := true }
  | .assign op target value =>
    let inside := s.assignment target.1
    target.2 inside
    value.2 inside
    checkOperator op target.1
  | .member object _ _ => object.2 s.access
  | .index object key _ =>
    object.2 s.access
    key.2 s.access
  | .privateMember object name _ =>
    object.2 s.access
    usePrivateName name
    match object.1.form with
    | .superValue => report .privateOfSuper
    | _ => pure ()
  | .call callee arguments _ _ | .construct callee arguments _ =>
    checkCallee callee s
    checkAll arguments inner
  | .awaitValue value =>
    value.2 inner
    if s.inParameters then report .awaitInParameters
    if s.inStaticBlock then report .awaitInStaticBlock
  | .yieldValue _ value =>
    checkOption value inner
    if s.inParameters then report .yieldInParameters
  -- statements
  | .block statements =>
    if s.sharesScope then checkAll statements { inner with declares := true }
    else inScope .block (checkAll statements { inner.block with declares := true })
  | .choice test yes no =>
    test.2 inner
    let branches := yes :: no.toList
    checkAll branches { inner with declares := true }
    branches.forM fun b => checkFunctionBody b.1
  | .forLoop start test step body =>
    inScope .block do
      let inside := inner.block.loop
      checkOption start inside
      checkOption test inside
      checkOption step inside
      checkBody body inside
  | .forIn head object body =>
    inScope .block do
      let inside := inner.block.loop
      head.2 inside
      object.2 inside
      checkBody body inside
    checkHead head.1 "for-in" "for...in"
  | .forOf _ head values body =>
    inScope .block do
      let inside := inner.block.loop
      head.2 inside
      values.2 inside
      checkBody body inside
    checkHead head.1 "for-of" "for...of"
  | .whileLoop test body =>
    test.2 inner.loop
    checkBody body inner.loop
  | .doLoop body test =>
    body.2 { inner.loop with declares := true }
    test.2 inner.loop
    checkFunctionBody body.1
  | .continues label => checkContinue label s
  | .breaks label => checkBreak label s
  | .handler parameter body =>
    inScope .block do
      let inner := inner.block
      match parameter with
      | some p =>
        let claim : Claim := if isPlain p.1 then .variable else .lexical
        p.1.boundNames.forM fun name => discard (declare claim name)
        p.2 { inner with binds := true }
      | none => pure ()
      body.2 { inner with sharesScope := true }
  | .switch subject cases =>
    subject.2 { inner with inSwitch := true }
    inScope .block (checkAll cases { inner.block with inSwitch := true })
    checkCases (cases.map (·.1))
  | .switchCase test statements =>
    checkOption test inner
    checkAll statements { inner with declares := true }
  | .labeled label body =>
    checkLabel label
    body.2 { inner with labels := (label, isContinued body.1) :: s.labels, declares := true }
    if (s.labels.lookup label).isSome then report (.repeatedLabel label)
    checkFunctionBody body.1
  | .within object body =>
    object.2 inner
    inScope .block (checkBody body inner.block)
    report .withStatement
  | .bindings kind declarators => declarators.forM fun d => checkDeclarator kind d inner
  | .declarator target value =>
    target.2 { inner with binds := true }
    checkOption value inner
  -- module items
  | .importItem d =>
    checkImport d
    checkItem s .nestedImport
  | .exportDeclaration d =>
    d.2 { inner with declares := true }
    checkItem s .nestedExport
  | .exportDefault value =>
    value.2 { inner with declares := true, isDefault := true }
    checkItem s .nestedExport
  | .exportNames specifiers source =>
    specifiers.forM (checkExportSpecifier source.isNone inner)
    source.toList.forM checkSource
    checkItem s .nestedExport
  | .exportAll exported source =>
    exported.toList.forM checkModuleName
    checkSource source
    checkItem s .nestedExport
  | other => checkAll other.parts inner

/-- The check of a tree. -/
def checkNode (n : Node) : Check :=
  Node.para (fun _ form => check form) n

end EarlyErrors

open EarlyErrors in
/-- The rules that a module breaks, in source order. -/
def Program.earlyErrors (p : Program) : List EarlyError :=
  let all : M Unit := do
    p.directives.forM fun d => checkFlaw d.flaw
    p.statements.forM fun n => checkNode n { declares := true, isItem := true }
  let found := (all.run {}).2
  found.errors.reverse ++ found.late.reverse ++ undefinedExports found.scopes p.statements

end Awaitless.Script
