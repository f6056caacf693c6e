import Awaitless.Script.EarlyErrors.Findings
import Awaitless.Script.Pattern

/-!
# Statements and functions

A check of a node is put together from the checks of its parts.

* `Part` — a part of a node with its check.
* `checkBreak`, `checkContinue` — jumps and their labels.
* `checkDeclarator`, `checkHead` — declarations of variables.
* `checkFunction` — parameters and body of a function.
-/

namespace Awaitless.Script.EarlyErrors

/-! ## Parts -/

/-- A part of a node with its check. -/
abbrev Part := Node × Check

def checkAll (parts : List Part) (s : Setting) : M Unit := parts.forM fun p => p.2 s

def checkOption (part : Option Part) (s : Setting) : M Unit :=
  match part with
  | some p => p.2 s
  | none => pure ()

/-- A key is a name only where it is computed. -/
def checkKey (key : Part) (computed : Bool) (s : Setting) : M Unit :=
  match key.1.form with
  | .identifier _ | .privateName _ => if computed then key.2 s else pure ()
  | _ => key.2 s

def isFunction (n : Node) : Bool :=
  match n.form with
  | .function _ _ _ _ => true
  | _ => false

/-- A function is no body of another statement. -/
def checkFunctionBody (n : Node) : M Unit := do
  if isFunction n then report .functionInSingleStatement

/-- A statement that stands for a body. -/
def checkBody (body : Part) (s : Setting) : M Unit := do
  body.2 { s with declares := true }
  checkFunctionBody body.1

/-- Whether `continue` can jump to a statement by its label. Further labels before a loop are not
looked through. -/
def isContinued (n : Node) : Bool :=
  match n.form with
  | .forLoop _ _ _ _ | .forIn _ _ _ | .forOf _ _ _ _ | .whileLoop _ _ | .doLoop _ _
  | .labeled _ _ => true
  | _ => false

/-- A jump to a label that does not exist. -/
def strayLabel (s : Setting) : EarlyError :=
  if s.inFunction then .labelAcrossFunction else .undefinedLabel

def checkBreak (label : Option String) (s : Setting) : M Unit := do
  label.toList.forM checkLabel
  match label with
  | none => unless s.inLoop || s.inSwitch do report .strayBreak
  | some name => if (s.reached? name).isNone then report (strayLabel s)

def checkContinue (label : Option String) (s : Setting) : M Unit := do
  label.toList.forM checkLabel
  match label with
  | none => unless s.inLoop do report .strayContinue
  | some name =>
    match s.reached? name with
    | some true => pure ()
    | some false => report .labelOfNoLoop
    | none => report (strayLabel s)

/-- A declaration of variables claims the names of its patterns, one declarator after the
other. -/
def checkDeclarator (kind : DeclarationKind) (declarator : Part) (s : Setting) : M Unit := do
  let names :=
    match declarator.1.form with
    | .declarator target _ => target.boundNames
    | _ => []
  let claimed ← names.mapM fun name => if kind == .var then hoist name else declare .lexical name
  declarator.2 s
  if kind == .var then claimed.forM checkRepeatedVariable

/-- The head of a loop over an object or over values declares one variable, without a value. -/
def checkHead (head : Node) (loop inText : String) : M Unit := do
  match head.form with
  | .bindings _ [d] =>
    match d.form with
    | .declarator _ (some _) => report (.initializerInHead loop)
    | _ => pure ()
  | .bindings _ _ => report (.severalInHead inText)
  | _ => pure ()

/-- Whether a parameter is a plain name. -/
def isPlain (n : Node) : Bool :=
  match n.form with
  | .identifier _ => true
  | _ => false

def isRest (n : Node) : Bool :=
  match n.form with
  | .rest _ => true
  | _ => false

/-- A parameter, which may occur only once. -/
def checkParameter (p : Part) (inside : Setting) : M Unit := do
  p.1.boundNames.forM fun name => discard (declare .parameter name)
  p.2 { inside with binds := true, inParameters := !isRest p.1 }

/-- Parameters and body of a function in its scope. -/
def checkFunction (parameters : List Part) (body : Option Part) (inside : Setting) : M Unit :=
  inScope .function do
    parameters.forM fun p => checkParameter p inside
    checkOption body { inside with hasPatterns := !parameters.all fun p => isPlain p.1 }

/-- The directives of a body. -/
def checkDirectives (directives : List Directive) (s : Setting) : M Unit :=
  directives.forM fun d => do
    checkFlaw d.flaw
    if d.raw == "use strict" && s.hasPatterns then report .strictDirective

/-- A declaration of a name for a function or class. -/
def declareOwn (claim : Claim) (name : Option Part) : M (Option Nat) :=
  (name.bind fun n => n.1.name?).mapM (declare claim)

end Awaitless.Script.EarlyErrors
