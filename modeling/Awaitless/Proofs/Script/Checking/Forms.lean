import Awaitless.Proofs.Script.Checking.Basic
import Awaitless.Script.EarlyErrors
import Awaitless.Script.NodeLaws

/-!
# No check takes anything back

A check reports, and it claims names; nothing that it has reported or claimed is ever taken back
(`Keeps`). That is why what one statement of a module breaks is still reported at the end, whatever
stands after it. The results about imported names and nameless classes rest on this alone.

`Keeps` is closed under everything that checks are made of. So the helpers of the check come first,
one by one, and then the forms that have a rule of their own, each with the checks of its parts as
hypotheses. There are too many forms for one proof: they are taken by the groups in which the syntax
lists them (`groupOf`), and a tree by induction on its nodes.

* `keeps_check` — the check of a node takes nothing back unless the check of a part does.
* `keeps_checkNode` — no check of a tree does.
-/

namespace Awaitless.Script.EarlyErrors

/-! ## Statements and functions -/

/-- Parts that are checked in a row. -/
theorem keeps_checkAll {parts : List Part} {s : Setting} (h : ∀ p ∈ parts, ∀ s, Keeps (p.2 s)) :
    Keeps (checkAll parts s) :=
  .forM fun p hp => h p hp s

theorem keeps_checkOption {part : Option Part} {s : Setting}
    (h : ∀ p ∈ part, ∀ s, Keeps (p.2 s)) : Keeps (checkOption part s) := by
  cases part with
  | none => exact .pure ()
  | some p => exact h p rfl s

/-- A name that stands for itself is no reference; all other keys are checked. -/
theorem keeps_checkKey {key : Part} {computed : Bool} {s : Setting} (h : ∀ s, Keeps (key.2 s)) :
    Keeps (checkKey key computed s) := by
  unfold checkKey
  split
  · exact .ite (h s) (.pure ())
  · exact .ite (h s) (.pure ())
  · exact h s

theorem keeps_checkFunctionBody (n : Node) : Keeps (checkFunctionBody n) :=
  .ite (keeps_report _) (.pure ())

theorem keeps_checkBody {body : Part} {s : Setting} (h : ∀ s, Keeps (body.2 s)) :
    Keeps (checkBody body s) :=
  .bind (h _) fun _ => keeps_checkFunctionBody _

/-- A jump looks for its target in the setting and changes nothing. -/
theorem keeps_checkBreak (label : Option String) (s : Setting) : Keeps (checkBreak label s) := by
  refine .bind (.forM fun _ _ => keeps_checkLabel _) fun _ => ?_
  split
  · exact .ite (.pure ()) (keeps_report _)
  · exact .ite (keeps_report _) (.pure ())

theorem keeps_checkContinue (label : Option String) (s : Setting) :
    Keeps (checkContinue label s) := by
  refine .bind (.forM fun _ _ => keeps_checkLabel _) fun _ => ?_
  split
  · exact .ite (.pure ()) (keeps_report _)
  · split
    · exact .pure ()
    · exact keeps_report _
    · exact keeps_report _

/-- A declarator claims the names of its pattern, then its parts are checked. -/
theorem keeps_checkDeclarator (kind : DeclarationKind) {d : Part} {s : Setting}
    (h : ∀ s, Keeps (d.2 s)) : Keeps (checkDeclarator kind d s) := by
  refine .bind (.mapM fun name => .ite (keeps_hoist _) (keeps_declare _ _)) fun _ => ?_
  refine .bind (h s) fun _ => .ite (.forM fun _ _ => keeps_checkRepeatedVariable _) (.pure ())

/-- A loop through values declares one target, without a value. -/
theorem keeps_checkHead (head : Node) (loop inText : String) :
    Keeps (checkHead head loop inText) := by
  unfold checkHead
  split
  · split
    · exact keeps_report _
    · exact .pure ()
  · exact keeps_report _
  · exact .pure ()

theorem keeps_checkParameter {p : Part} {s : Setting} (h : ∀ s, Keeps (p.2 s)) :
    Keeps (checkParameter p s) :=
  .bind (.forM fun _ _ => .bind (keeps_declare _ _) fun _ => .pure _) fun _ => h _

/-- A function has a scope of its own, for its parameters and for its body. -/
theorem keeps_checkFunction {parameters : List Part} {body : Option Part} {s : Setting}
    (hparameters : ∀ p ∈ parameters, ∀ s, Keeps (p.2 s)) (hbody : ∀ p ∈ body, ∀ s, Keeps (p.2 s)) :
    Keeps (checkFunction parameters body s) :=
  keeps_inScope <| .bind (.forM fun p hp => keeps_checkParameter (hparameters p hp)) fun _ =>
    keeps_checkOption hbody

theorem keeps_checkDirectives (directives : List Directive) (s : Setting) :
    Keeps (checkDirectives directives s) :=
  .forM fun _ _ => .bind (keeps_checkFlaw _) fun _ => .ite (keeps_report _) (.pure ())

theorem keeps_declareOwn (claim : Claim) (name : Option Part) : Keeps (declareOwn claim name) :=
  .mapOption fun _ => keeps_declare _ _

/-! ## Classes -/

theorem keeps_usePrivateName (name : String) : Keeps (usePrivateName name) := by
  refine .bind .get fun f => ?_
  split
  · exact .modify (fun _ => rfl) fun _ => rfl
  · exact keeps_report _

/-- Private names are collected for one class at a time; those of the class around it are put back.
-/
theorem keeps_checkMembers {hasHeritage : Bool} {members : List Part} {s : Setting}
    (h : ∀ p ∈ members, ∀ s, Keeps (p.2 s)) : Keeps (checkMembers hasHeritage members s) := by
  refine .bind (.modify (fun _ => rfl) fun _ => rfl) fun _ => ?_
  refine .bind (keeps_checkAll h) fun _ => .bind .get fun f => ?_
  refine .bind (.modify (fun _ => rfl) fun _ => rfl) fun _ => ?_
  exact .forM fun _ _ => .ite (.pure ()) (keeps_report _)

theorem keeps_checkClassName (name : Option Part) : Keeps (checkClassName name) := by
  unfold checkClassName
  split
  · exact .ite (keeps_report _) (.pure ())
  · exact .pure ()

/-- A report, unless something is in order, before something else. -/
theorem keeps_reportIf {c : Prop} [Decidable c] {e : EarlyError} {m : M Unit} (hm : Keeps m) :
    Keeps (if c then (do report e; m) else m) :=
  .ite (.bind (keeps_report e) fun _ => hm) hm

/-- A class claims its name outside of its scope, and its members inside. -/
theorem keeps_checkClass {traits : ClassTraits} {decorators members : List Part}
    {name heritage : Option Part} {s : Setting} {declares isDefault : Bool}
    (hdecorators : ∀ p ∈ decorators, ∀ s, Keeps (p.2 s)) (hname : ∀ p ∈ name, ∀ s, Keeps (p.2 s))
    (hheritage : ∀ p ∈ heritage, ∀ s, Keeps (p.2 s))
    (hmembers : ∀ p ∈ members, ∀ s, Keeps (p.2 s)) :
    Keeps (checkClass traits decorators name heritage members s declares isDefault) := by
  have hinside : Keeps (inScope .block do
      checkOption heritage s.block
      checkMembers heritage.isSome members s.block) :=
    keeps_inScope (.bind (keeps_checkOption hheritage) fun _ => keeps_checkMembers hmembers)
  refine .iteBind (keeps_declareOwn _ _) (.pure _) fun own => ?_
  refine .bind (keeps_checkAll hdecorators) fun _ => .bind (keeps_checkOption hname) fun _ => ?_
  refine .bind hinside fun _ => ?_
  refine keeps_reportIf ?_
  refine keeps_reportIf ?_
  refine .bind (.forM fun _ _ => keeps_checkRepeatedClass _) fun _ => ?_
  refine .bind (keeps_checkClassName name) fun _ => ?_
  exact .ite (.pure ()) (.forM fun _ _ => keeps_report _)

/-! ## Module items -/

theorem keeps_checkModuleName (name : ModuleName) : Keeps (checkModuleName name) := by
  cases name with
  | word _ => exact .pure ()
  | quoted text => exact keeps_checkFlaw text.flaw

theorem keeps_checkSource (source : ModuleSource) : Keeps (checkSource source) :=
  .bind (keeps_checkFlaw _) fun _ => .forM fun _ _ =>
    .bind (keeps_checkModuleName _) fun _ => keeps_checkFlaw _

/-- An import claims the name that it binds, before anything else is looked at. -/
theorem keeps_checkImportSpecifier (x : ImportSpecifier) : Keeps (checkImportSpecifier x) := by
  refine .bind (keeps_declare _ _) fun _ => ?_
  cases x with
  | named imported _ => exact .bind (keeps_checkModuleName _) fun _ => keeps_checkBinding _
  | whole _ => exact keeps_checkBinding _
  | default _ => exact keeps_checkBinding _

theorem keeps_checkImport (d : ImportDeclaration) : Keeps (checkImport d) :=
  .bind (.forM fun _ _ => keeps_checkImportSpecifier _) fun _ => keeps_checkSource _

/-- An export claims nothing: its local name is a reference. -/
theorem keeps_checkExportSpecifier (isLocal : Bool) (s : Setting) (x : ExportSpecifier) :
    Keeps (checkExportSpecifier isLocal s x) := by
  unfold checkExportSpecifier
  split
  · exact .ite (.bind (keeps_checkReference _ _) fun _ => keeps_checkModuleName _)
      (keeps_checkModuleName _)
  · exact .bind (keeps_checkFlaw _) fun _ => keeps_checkModuleName _

theorem keeps_checkItem (s : Setting) (e : EarlyError) : Keeps (checkItem s e) :=
  .ite (.pure ()) (keeps_report e)

/-! ## Nodes -/

theorem keeps_checkCases (cases : List Node) : Keeps (checkCases cases) :=
  .ite (keeps_report _) (.pure ())

theorem keeps_checkPrototypes (members : List Node) : Keeps (checkPrototypes members) :=
  .forM fun _ _ => keeps_report _

theorem keeps_checkOperator (op : AssignmentOperator) (target : Node) :
    Keeps (checkOperator op target) := by
  unfold checkOperator
  split
  · exact keeps_report _
  · exact keeps_report _
  · exact .pure ()

theorem keeps_checkCallee {callee : Part} {s : Setting} (h : ∀ s, Keeps (callee.2 s)) :
    Keeps (checkCallee callee s) := by
  unfold checkCallee
  split
  · exact .pure ()
  · exact keeps_report _
  · exact keeps_report _
  · exact keeps_report _
  · exact h _

/-- A form with two parts has both checks. -/
theorem keeps_pair {x y : Part} (h : ∀ p ∈ [x, y], ∀ s, Keeps (p.2 s)) :
    (∀ s, Keeps (x.2 s)) ∧ ∀ s, Keeps (y.2 s) :=
  ⟨h x (List.mem_cons_self ..), h y (List.mem_cons_of_mem _ (List.mem_singleton_self y))⟩

/-! ### Forms with a rule of their own -/

section Forms

variable {s : Setting}

/-- Only one of the members may give a prototype. -/
theorem keeps_check_object {members : List Part} (h : ∀ p ∈ members, ∀ s, Keeps (p.2 s)) :
    Keeps (check (.object members) s) :=
  .bind (keeps_checkAll h) fun _ => keeps_checkPrototypes _

/-- A function is claimed before its name is looked at, and reported after its body. -/
theorem keeps_check_function {traits : FunctionTraits} {parameters : List Part}
    {name body : Option Part} (hname : ∀ p ∈ name, ∀ s, Keeps (p.2 s))
    (hparameters : ∀ p ∈ parameters, ∀ s, Keeps (p.2 s)) (hbody : ∀ p ∈ body, ∀ s, Keeps (p.2 s)) :
    Keeps (check (.function traits name parameters body) s) := by
  refine .iteBind (keeps_declareOwn _ _) (.pure _) fun claimed => ?_
  refine .bind (keeps_checkOption hname) fun _ => ?_
  refine .bind (keeps_checkFunction hparameters hbody) fun _ => ?_
  exact .forM fun _ _ => keeps_checkRepeatedFunction _

theorem keeps_check_classField {traits : MemberTraits} {decorators : List Part} {key : Part}
    {value : Option Part} {computed : Bool} (hdecorators : ∀ p ∈ decorators, ∀ s, Keeps (p.2 s))
    (hkey : ∀ s, Keeps (key.2 s)) (hvalue : ∀ p ∈ value, ∀ s, Keeps (p.2 s)) :
    Keeps (check (.classField traits decorators key value computed) s) := by
  refine .bind (keeps_checkAll hdecorators) fun _ => ?_
  exact .bind (keeps_checkKey hkey) fun _ => keeps_checkOption hvalue

/-- Of all operators, `delete` alone has a rule of its own. -/
theorem keeps_check_unary {op : UnaryOperator} {operand : Part} (h : ∀ s, Keeps (operand.2 s)) :
    Keeps (check (.unary op operand) s) := by
  cases op with
  | delete =>
    refine .bind (h _) fun _ => ?_
    split
    · exact keeps_report _
    · exact keeps_report _
    · split
      · exact keeps_report _
      · exact .pure ()
    · exact .pure ()
  | _ => exact keeps_checkAll (List.forall_mem_singleton.mpr h)

theorem keeps_check_awaitValue {value : Part} (h : ∀ s, Keeps (value.2 s)) :
    Keeps (check (.awaitValue value) s) :=
  .bind (h _) fun _ => keeps_reportIf (.ite (keeps_report _) (.pure ()))

theorem keeps_check_yieldValue {delegates : Bool} {value : Option Part}
    (h : ∀ p ∈ value, ∀ s, Keeps (p.2 s)) : Keeps (check (.yieldValue delegates value) s) :=
  .bind (keeps_checkOption h) fun _ => .ite (keeps_report _) (.pure ())

theorem keeps_check_privateMember {object : Part} {name : String} {isOptional : Bool}
    (h : ∀ s, Keeps (object.2 s)) : Keeps (check (.privateMember object name isOptional) s) := by
  refine .bind (h _) fun _ => .bind (keeps_usePrivateName name) fun _ => ?_
  split
  · exact keeps_report _
  · exact .pure ()

theorem keeps_check_choice {test yes : Part} {no : Option Part} (htest : ∀ s, Keeps (test.2 s))
    (hbranches : ∀ p ∈ yes :: no.toList, ∀ s, Keeps (p.2 s)) :
    Keeps (check (.choice test yes no) s) :=
  .bind (htest _) fun _ => .bind (keeps_checkAll hbranches) fun _ =>
    .forM fun _ _ => keeps_checkFunctionBody _

/-- A loop has a scope in which its head declares. -/
theorem keeps_check_forLoop {start test step : Option Part} {body : Part}
    (hstart : ∀ p ∈ start, ∀ s, Keeps (p.2 s)) (htest : ∀ p ∈ test, ∀ s, Keeps (p.2 s))
    (hstep : ∀ p ∈ step, ∀ s, Keeps (p.2 s)) (hbody : ∀ s, Keeps (body.2 s)) :
    Keeps (check (.forLoop start test step body) s) := by
  refine keeps_inScope (.bind (keeps_checkOption hstart) fun _ => ?_)
  refine .bind (keeps_checkOption htest) fun _ => .bind (keeps_checkOption hstep) fun _ => ?_
  exact keeps_checkBody hbody

/-- The part of a loop that goes through values, with its scope. -/
theorem keeps_inLoop {head values body : Part} (hhead : ∀ s, Keeps (head.2 s))
    (hvalues : ∀ s, Keeps (values.2 s)) (hbody : ∀ s, Keeps (body.2 s)) :
    Keeps (inScope .block do
      head.2 s
      values.2 s
      checkBody body s) :=
  keeps_inScope (.bind (hhead _) fun _ => .bind (hvalues _) fun _ => keeps_checkBody hbody)

theorem keeps_check_doLoop {body test : Part} (hbody : ∀ s, Keeps (body.2 s))
    (htest : ∀ s, Keeps (test.2 s)) : Keeps (check (.doLoop body test) s) :=
  .bind (hbody _) fun _ => .bind (htest _) fun _ => keeps_checkFunctionBody _

/-- The parameter of a handler is declared in a scope that the body shares. -/
theorem keeps_check_handler {parameter : Option Part} {body : Part}
    (hparameter : ∀ p ∈ parameter, ∀ s, Keeps (p.2 s)) (hbody : ∀ s, Keeps (body.2 s)) :
    Keeps (check (.handler parameter body) s) := by
  cases parameter with
  | none => exact keeps_inScope (hbody _)
  | some p =>
    have hp := hparameter p rfl
    refine keeps_inScope (.bind (.forM fun _ _ => ?_) fun _ => .bind (hp _) fun _ => hbody _)
    exact .bind (keeps_declare _ _) fun _ => .pure _

/-- All cases share one scope. -/
theorem keeps_check_switch {subject : Part} {cases : List Part}
    (hsubject : ∀ s, Keeps (subject.2 s)) (hcases : ∀ p ∈ cases, ∀ s, Keeps (p.2 s)) :
    Keeps (check (.switch subject cases) s) := by
  refine .bind (hsubject _) fun _ => ?_
  exact .bind (keeps_inScope (keeps_checkAll hcases)) fun _ => keeps_checkCases _

theorem keeps_check_switchCase {test : Option Part} {statements : List Part}
    (htest : ∀ p ∈ test, ∀ s, Keeps (p.2 s)) (hstatements : ∀ p ∈ statements, ∀ s, Keeps (p.2 s)) :
    Keeps (check (.switchCase test statements) s) :=
  .bind (keeps_checkOption htest) fun _ => keeps_checkAll hstatements

/-- A label is reported after the statement that it stands before. -/
theorem keeps_check_labeled {label : String} {body : Part} (h : ∀ s, Keeps (body.2 s)) :
    Keeps (check (.labeled label body) s) := by
  refine .bind (keeps_checkLabel label) fun _ => .bind (h _) fun _ => ?_
  exact keeps_reportIf (keeps_checkFunctionBody _)

theorem keeps_check_within {object body : Part} (hobject : ∀ s, Keeps (object.2 s))
    (hbody : ∀ s, Keeps (body.2 s)) : Keeps (check (.within object body) s) :=
  .bind (hobject _) fun _ => .bind (keeps_inScope (keeps_checkBody hbody)) fun _ => keeps_report _

theorem keeps_check_exportNames {specifiers : List ExportSpecifier} {source : Option ModuleSource} :
    Keeps (check (.exportNames specifiers source) s) := by
  refine .bind (.forM fun _ _ => keeps_checkExportSpecifier _ _ _) fun _ => ?_
  exact .bind (.forM fun _ _ => keeps_checkSource _) fun _ => keeps_checkItem s _

theorem keeps_check_exportAll {exported : Option ModuleName} {source : ModuleSource} :
    Keeps (check (.exportAll exported source) s) := by
  refine .bind (.forM fun _ _ => keeps_checkModuleName _) fun _ => ?_
  exact .bind (keeps_checkSource source) fun _ => keeps_checkItem s _

end Forms

/-! ### Groups of forms -/

/-- The groups of forms, as the syntax lists them. -/
inductive Group where
  | literal
  | value
  | operator
  | access
  | pattern
  | statement
  | item

/-- The group to which a form belongs. -/
def groupOf : Form Part → Group
  | .identifier _ | .privateName _ | .thisValue | .superValue | .hole | .nullLiteral
  | .booleanLiteral _ | .numberLiteral _ _ | .bigintLiteral _ | .stringLiteral _ _
  | .regexLiteral _ _ | .template _ _ => .literal
  | .array _ | .object _ | .property _ _ _ _ | .method _ _ _ _ | .spread _ | .function _ _ _ _
  | .arrow _ _ _ | .body _ _ | .classLike _ _ _ _ _ | .classMethod _ _ _ _ _ _
  | .classField _ _ _ _ _ | .staticBlock _ => .value
  | .unary _ _ | .update _ _ _ | .binary _ _ _ | .assign _ _ _ | .conditional _ _ _ | .sequence _
  | .yieldValue _ _ | .awaitValue _ | .parenthesized _ => .operator
  | .member _ _ _ | .privateMember _ _ _ | .index _ _ _ | .call _ _ _ _ | .construct _ _ _
  | .chain _ | .tagged _ _ | .dynamicImport _ _ _ | .importMeta | .newTarget => .access
  | .objectPattern _ _ | .arrayPattern _ _ | .patternProperty _ _ _ _ | .defaulted _ _ | .rest _
  | .annotated _ _ => .pattern
  | .importItem _ | .exportDeclaration _ | .exportNames _ _ | .exportDefault _ | .exportAll _ _
  | .exportAssignment _ | .exportNamespace _ | .typeDeclaration _ => .item
  | _ => .statement

section Groups

variable {form : Form Part} {s : Setting} (h : ∀ p ∈ form.parts, ∀ s, Keeps (p.2 s))

include h

/-- Names and literals, of which only a name that is bound claims something. -/
theorem keeps_check_of_literal (hgroup : groupOf form = .literal) : Keeps (check form s) := by
  cases form with
  | identifier name => exact .ite (keeps_checkBinding name) (keeps_checkReference name s)
  | numberLiteral value flaw => exact keeps_checkFlaw flaw
  | stringLiteral value flaw => exact keeps_checkFlaw flaw
  | privateName name => exact keeps_usePrivateName name
  | superValue => exact .ite (keeps_report _) (.pure ())
  | regexLiteral pattern flags => exact .ite (keeps_report _) (.pure ())
  | thisValue | hole | nullLiteral | booleanLiteral | bigintLiteral | template =>
    exact keeps_checkAll h
  | _ => cases hgroup

/-- Objects, functions and classes, with their members. -/
theorem keeps_check_of_value (hgroup : groupOf form = .value) : Keeps (check form s) := by
  cases form with
  | object members => exact keeps_check_object h
  | property key value computed shorthand =>
    obtain ⟨hkey, hvalue⟩ := keeps_pair h
    exact .ite (hvalue _) (.bind (keeps_checkKey hkey) fun _ => hvalue _)
  | method kind key value computed =>
    obtain ⟨hkey, hvalue⟩ := keeps_pair h
    exact .bind (keeps_checkKey hkey) fun _ => hvalue _
  | function traits name parameters body =>
    refine keeps_check_function (fun p hp => h p ?_) (fun p hp => h p ?_) fun p hp => h p ?_
    · simp [Form.parts, Option.mem_toList.mpr hp]
    · simp [Form.parts, hp]
    · simp [Form.parts, Option.mem_toList.mpr hp]
  | arrow traits parameters body =>
    obtain ⟨hparameters, hbody⟩ := List.forall_mem_append.mp h
    exact keeps_checkFunction hparameters fun p hp => hbody p (Option.mem_toList.mpr hp)
  | body directives statements =>
    exact .bind (keeps_checkDirectives _ _) fun _ => keeps_checkAll h
  | classLike traits decorators name heritage members =>
    refine keeps_checkClass (fun p hp => h p ?_) (fun p hp => h p ?_) (fun p hp => h p ?_)
      fun p hp => h p ?_
    · simp [Form.parts, hp]
    · simp [Form.parts, Option.mem_toList.mpr hp]
    · simp [Form.parts, Option.mem_toList.mpr hp]
    · simp [Form.parts, hp]
  | classMethod kind traits decorators key value computed =>
    obtain ⟨hdecorators, hpair⟩ := List.forall_mem_append.mp h
    obtain ⟨hkey, hvalue⟩ := keeps_pair hpair
    exact .bind (keeps_checkAll hdecorators) fun _ => .bind (keeps_checkKey hkey) fun _ => hvalue _
  | classField traits decorators key value computed =>
    obtain ⟨hdecorators, hfield⟩ := List.forall_mem_append.mp h
    obtain ⟨hkey, hvalue⟩ := List.forall_mem_cons.mp hfield
    exact keeps_check_classField hdecorators hkey fun p hp => hvalue p (Option.mem_toList.mpr hp)
  | staticBlock statements => exact keeps_inScope (keeps_checkAll h)
  | array | spread => exact keeps_checkAll h
  | _ => cases hgroup

/-- Operators, most of which ask for nothing but the check of their operands. -/
theorem keeps_check_of_operator (hgroup : groupOf form = .operator) : Keeps (check form s) := by
  cases form with
  | unary op operand => exact keeps_check_unary (h operand (List.mem_singleton_self operand))
  | update op before operand => exact h operand (List.mem_singleton_self operand) _
  | assign op target value =>
    obtain ⟨htarget, hvalue⟩ := keeps_pair h
    exact .bind (htarget _) fun _ => .bind (hvalue _) fun _ => keeps_checkOperator _ _
  | awaitValue value => exact keeps_check_awaitValue (h value (List.mem_singleton_self value))
  | yieldValue delegates value =>
    exact keeps_check_yieldValue fun p hp => h p (Option.mem_toList.mpr hp)
  | binary | conditional | sequence | parenthesized => exact keeps_checkAll h
  | _ => cases hgroup

/-- Access and calls; what is called may be `super` only in some places. -/
theorem keeps_check_of_access (hgroup : groupOf form = .access) : Keeps (check form s) := by
  cases form with
  | member object name isOptional => exact h object (List.mem_singleton_self object) _
  | index object key isOptional =>
    obtain ⟨hobject, hkey⟩ := keeps_pair h
    exact .bind (hobject _) fun _ => hkey _
  | privateMember object name isOptional =>
    exact keeps_check_privateMember (h object (List.mem_singleton_self object))
  | call callee arguments | construct callee arguments =>
    obtain ⟨hcallee, harguments⟩ := List.forall_mem_cons.mp h
    exact .bind (keeps_checkCallee hcallee) fun _ => keeps_checkAll harguments
  | newTarget => exact .ite (.pure ()) (keeps_report _)
  | chain | tagged | dynamicImport | importMeta => exact keeps_checkAll h
  | _ => cases hgroup

/-- Patterns, whose names are claimed where they are declared and not here. -/
theorem keeps_check_of_pattern (hgroup : groupOf form = .pattern) : Keeps (check form s) := by
  cases form with
  | objectPattern role members | arrayPattern role members => exact keeps_checkAll h
  | patternProperty key value computed shorthand =>
    obtain ⟨hkey, hvalue⟩ := keeps_pair h
    exact .ite (hvalue _) (.bind (keeps_checkKey hkey) fun _ => hvalue _)
  | defaulted target value =>
    obtain ⟨htarget, hvalue⟩ := keeps_pair h
    exact .bind (htarget _) fun _ => hvalue _
  | rest target | annotated traits target => exact h target (List.mem_singleton_self target) _
  | _ => cases hgroup

/-- Statements: those with a scope of their own close it again before they report. -/
theorem keeps_check_of_statement (hgroup : groupOf form = .statement) : Keeps (check form s) := by
  cases form with
  | block statements =>
    exact .ite (keeps_checkAll h) (keeps_inScope (keeps_checkAll h))
  | choice test yes no =>
    obtain ⟨htest, hbranches⟩ := List.forall_mem_cons.mp h
    exact keeps_check_choice htest hbranches
  | forLoop start test step body =>
    refine keeps_check_forLoop (fun p hp => h p ?_) (fun p hp => h p ?_) (fun p hp => h p ?_)
      (h body (List.mem_append_right _ (List.mem_singleton_self body)))
    · simp [Form.parts, Option.mem_toList.mpr hp]
    · simp [Form.parts, Option.mem_toList.mpr hp]
    · simp [Form.parts, Option.mem_toList.mpr hp]
  | forIn head values body | forOf awaits head values body =>
    obtain ⟨hhead, hrest⟩ := List.forall_mem_cons.mp h
    obtain ⟨hvalues, hbody⟩ := keeps_pair hrest
    exact .bind (keeps_inLoop hhead hvalues hbody) fun _ => keeps_checkHead _ _ _
  | whileLoop test body =>
    obtain ⟨htest, hbody⟩ := keeps_pair h
    exact .bind (htest _) fun _ => keeps_checkBody hbody
  | doLoop body test =>
    obtain ⟨hbody, htest⟩ := keeps_pair h
    exact keeps_check_doLoop hbody htest
  | continues label => exact keeps_checkContinue label s
  | breaks label => exact keeps_checkBreak label s
  | handler parameter body =>
    obtain ⟨hparameter, hbody⟩ := List.forall_mem_append.mp h
    exact keeps_check_handler (fun p hp => hparameter p (Option.mem_toList.mpr hp))
      (hbody body (List.mem_singleton_self body))
  | switch subject cases =>
    obtain ⟨hsubject, hcases⟩ := List.forall_mem_cons.mp h
    exact keeps_check_switch hsubject hcases
  | switchCase test statements =>
    obtain ⟨htest, hstatements⟩ := List.forall_mem_append.mp h
    exact keeps_check_switchCase (fun p hp => htest p (Option.mem_toList.mpr hp)) hstatements
  | labeled label body => exact keeps_check_labeled (h body (List.mem_singleton_self body))
  | within object body =>
    obtain ⟨hobject, hbody⟩ := keeps_pair h
    exact keeps_check_within hobject hbody
  | bindings kind declarators => exact .forM fun d hd => keeps_checkDeclarator kind (h d hd)
  | declarator target value =>
    obtain ⟨htarget, hvalue⟩ := List.forall_mem_cons.mp h
    exact .bind (htarget _) fun _ =>
      keeps_checkOption fun p hp => hvalue p (Option.mem_toList.mpr hp)
  | empty | expression | returns | throws | guarded | debugger => exact keeps_checkAll h
  | _ => cases hgroup

/-- Items of a module, which are in the right place at its top only. -/
theorem keeps_check_of_item (hgroup : groupOf form = .item) : Keeps (check form s) := by
  cases form with
  | importItem d => exact .bind (keeps_checkImport d) fun _ => keeps_checkItem s _
  | exportDeclaration x | exportDefault x =>
    exact .bind (h x (List.mem_singleton_self x) _) fun _ => keeps_checkItem s _
  | exportNames specifiers source => exact keeps_check_exportNames
  | exportAll exported source => exact keeps_check_exportAll
  | exportAssignment | exportNamespace | typeDeclaration => exact keeps_checkAll h
  | _ => cases hgroup

/-- The check of a node takes nothing back unless the check of a part does. -/
theorem keeps_check (s : Setting) : Keeps (check form s) := by
  cases hgroup : groupOf form with
  | literal => exact keeps_check_of_literal h hgroup
  | value => exact keeps_check_of_value h hgroup
  | operator => exact keeps_check_of_operator h hgroup
  | access => exact keeps_check_of_access h hgroup
  | pattern => exact keeps_check_of_pattern h hgroup
  | statement => exact keeps_check_of_statement h hgroup
  | item => exact keeps_check_of_item h hgroup

end Groups

/-- No check of a tree takes anything back. -/
theorem keeps_checkNode (n : Node) (s : Setting) : Keeps (checkNode n s) := by
  induction n using Node.induction generalizing s with
  | step span form ih =>
    rw [checkNode, Node.para_mk]
    -- the parts of the form are nodes with their checks, for which the induction holds
    refine keeps_check (fun p hp => ?_) s
    rw [Form.parts_map] at hp
    obtain ⟨x, hx, rfl⟩ := List.mem_map.mp hp
    exact ih x hx

end Awaitless.Script.EarlyErrors
