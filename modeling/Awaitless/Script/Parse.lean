import Awaitless.Script.Parser.Module
import Awaitless.Script.Pattern

/-!
# Modules from their text

* `Program` — a module: its directives, its statements, and the comments that are kept.
* `Program.parse` — reads a module, or says what is wrong with its text.
-/

namespace Awaitless.Script

/-- A module with the comments of its text. -/
structure Program where
  /-- The line that names an interpreter, without its two marks. -/
  interpreter : Option String
  directives : List Directive
  statements : List Node
  /-- The comments before a token, by the place where the token starts. -/
  comments : List (Nat × List Comment)
  /-- Where the text ends. -/
  stop : Nat
deriving Inhabited

namespace Parser

/-- The parser for every goal, down to a bounded depth of rules in rules. -/
def run : (depth : Nat) → Rules
  | 0, _ => unexpected
  | depth + 1, goal =>
    let rules := run depth
    match goal with
    | .statement single => statement rules single
    | .expression => expression rules
    | .assignment => assignment rules
    | .operand above => operand rules above
    | .unary => unary rules
    | .leftHandSide => leftHandSide rules
    | .access => accessLevel rules
    | .pattern => pattern rules
    | .element => element rules
    | .type => type rules

/-- The line that names an interpreter, and the place behind it. -/
def interpreterLine (c : Cursor) : Option String × Cursor :=
  match c.rest with
  | '#' :: '!' :: _ =>
    let (line, next) := (c.drop 2).span fun ch => !Text.isNewline ch
    (some (String.ofList line), next)
  | _ => (none, c)

/-- The state before the first token. -/
def initialState (text : String) (typed : Bool) : Option String × State :=
  let source := text.toList
  let (interpreter, cursor) := interpreterLine ⟨source, 0⟩
  let isFirst := interpreter.isNone
  let trivia := Lexer.trivia cursor { sawNewline := isFirst } isFirst
  let read := Lexer.token trivia.next
  let start := trivia.next.position
  let kept := trivia.trivia.kept
  (interpreter,
    { source
      size := source.length
      origin := trivia.next
      cursor := read.next
      token :=
        { kind := read.kind
          start
          stop := read.next.position
          afterNewline := true
          escaped := read.escaped
          pureMark := trivia.trivia.pureMark
          noSideEffects := trivia.trivia.noSideEffects }
      typed
      lexicalErrors := read.errors.reverse ++ trivia.errors.reverse
      comments := if kept.isEmpty then [] else [(start, kept)]
      firstComment := trivia.trivia.first })

/-- A rule is at most this much deeper in rules than the tokens are in brackets. -/
def depthPerToken : Nat := 16

/-- What was noted, and the error that could not be passed. Where a lexical error is left when all
tokens are used up, it says enough. -/
def State.grammarErrors (s : State) : List Diagnostic :=
  match s.failure with
  | none => s.errors.reverse.map .grammar
  | some f =>
    let dropped := !s.lexicalErrors.isEmpty && s.token.kind == .eof
    f.noted.reverse.map .grammar ++ if dropped then [] else [f.error]

/-! ## Names of exports -/

/-- The names under which an item exports something, apart from the value of a default export. -/
def exportedNames (item : Node) : List String :=
  match item.form with
  | .exportNames specifiers _ => specifiers.map (·.exported.text)
  | .exportAll (some name) _ => [name.text]
  | .exportDeclaration d =>
    match d.form with
    | .bindings _ ds => ds.flatMap fun v =>
      match v.form with
      | .declarator target _ => target.boundNames
      | _ => []
    | .function _ (some name) _ _ => name.boundNames
    | .classLike _ _ (some name) _ _ => name.boundNames
    | _ => []
  | _ => []

/-- Whether an item exports a value of its own as the default. A declaration of a type is no value;
an abstract class is one. -/
def exportsDefault (item : Node) : Bool :=
  match item.form with
  | .exportDefault value =>
    match value.form with
    | .typeDeclaration _ => false
    | _ => true
  | _ => false

/-- The exports in a tree, wherever they stand; an inner one comes before the one around it. -/
def exportsIn (n : Node) : List Node :=
  n.para fun span form =>
    let inner := form.parts.flatMap (·.2)
    match form with
    | .exportNames _ _ | .exportAll _ _ | .exportDeclaration _ | .exportDefault _ =>
      inner ++ [.mk span (form.map (·.1))]
    | _ => inner

/-- Every name is exported once, and there is one default at most. -/
def exportErrors (statements : List Node) : List GrammarError :=
  let items := statements.flatMap exportsIn
  let names := items.flatMap exportedNames
  let defaults := names.count "default" + items.countP exportsDefault
  (repeated names).map .repeatedExport ++
    if 1 < defaults then [.severalDefaultExports] else []

/-! ## Errors -/

/-- What is wrong with the tokens and with the grammar. -/
def State.found (s : State) : List Diagnostic :=
  s.lexicalErrors.reverse.map .lexical ++ s.grammarErrors ++
    s.initializers.map fun _ => .grammar .shorthandInitializer

/-- What is wrong with a module, of which the given statements were read. -/
def State.diagnostics (s : State) (statements : List Node) : List Diagnostic :=
  if s.typed then s.found
  else if !s.found.isEmpty && s.firstComment.any (·.isFlowMark) then [.grammar .typedDialect]
  else s.found ++ (exportErrors statements).map .grammar

end Parser

open Awaitless.Script.Parser in
/-- Reads a module, or says what is wrong with its text. -/
def Program.parse (text : String) (typed : Bool) : Except (List Diagnostic) Program :=
  let (interpreter, start) := initialState text typed
  let depth := depthPerToken * (start.size + 4)
  let (result, final) := (statementList (run depth) fun _ => false).run start
  match final.diagnostics result.2 with
  | [] =>
    .ok {
      interpreter
      directives := result.1
      statements := result.2
      comments := final.comments.reverse
      stop := final.token.start }
  | errors => .error errors

end Awaitless.Script
