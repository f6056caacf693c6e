import Awaitless.Script.Printer.Expression

/-!
# Statements

* `statement` — any statement, declaration or module item, with the comments before it.
-/

namespace Awaitless.Script.Printer

variable (rules : Rules)

/-! ## Blocks and bodies -/

/-- Statements in braces. -/
def block (list : List Node) : W Unit := do
  braces list.isEmpty (statements rules list)
  forgetSemicolon

/-- The statements of a block. -/
def block? (n : Node) : Option (List Node) :=
  match n.form with
  | .block list => some list
  | _ => none

/-- The statement that another one holds, with the end of its line. -/
def heldStatement (n : Node) (afterWord : Bool) : W Unit := do
  match n.form with
  | .block list =>
    softSpace
    block rules list
    softNewline
  | .empty =>
    write ";"
    softNewline
  | _ =>
    if afterWord && (← minify) then space
    modify fun s => { s with spaceForIndent := true }
    rules (.statement n)

/-- An expression in parentheses, as conditions are. -/
def condition (x : Node) : W Unit :=
  wrap true (rules (.expression x .alone))

/-! ## Choices -/

/-- Whether an `else` behind a statement would be read as a part of it. -/
def takesElse : Node → Bool
  | .mk _ (.choice _ _ none) => true
  | .mk _ (.choice _ _ (some no)) => takesElse no
  | .mk _ (.forLoop _ _ _ body) => takesElse body
  | .mk _ (.forIn _ _ body) => takesElse body
  | .mk _ (.forOf _ _ _ body) => takesElse body
  | .mk _ (.whileLoop _ body) => takesElse body
  | .mk _ (.within _ body) => takesElse body
  | .mk _ (.labeled _ body) => takesElse body
  | _ => false

/-- The statement of a choice that is taken; `hasElse` if another one follows. -/
def taken (yes : Node) (hasElse : Bool) : W Unit := do
  let gap : W Unit := if hasElse then softSpace else softNewline
  match block? yes with
  | some list =>
    softSpace
    block rules list
    gap
  | none =>
    if takesElse yes then
      softSpace
      braces false (rules (.statement yes))
      forgetSemicolon
      gap
    else
      heldStatement rules yes false
      if hasElse then indent

/-- A choice from its first keyword on; a choice behind `else` continues the chain. -/
def choice : Node → W Unit
  | .mk _ (.choice test yes none) => do
    word "if"
    softSpace
    condition rules test
    taken rules yes false
  | .mk _ (.choice test yes (some other)) => do
    word "if"
    softSpace
    condition rules test
    taken rules yes true
    settleSemicolon
    word "else"
    match other.form with
    | .choice _ _ _ =>
      space
      choice other
    | _ => heldStatement rules other true
  | _ => pure ()

/-! ## Declarations of variables -/

/-- The keyword of a declaration. -/
def declarationWord : DeclarationKind → String
  | .var => "var"
  | .lexical => "let"
  | .constant => "const"
  | .resource => "using"
  | .awaitedResource => "await using"

def declarator (d : Node) : W Unit := do
  match d.form with
  | .declarator target value =>
    rules (.pattern target)
    match value with
    | some v =>
      softSpace
      write "="
      softSpace
      rules (.expression v (← itemHere))
    | none => pure ()
  | _ => pure ()

/-- A declaration of variables, without its end. -/
def bindings (kind : DeclarationKind) (ds : List Node) : W Unit := do
  word (declarationWord kind)
  unless ds.isEmpty do softSpace
  separated (declarator rules) ds

/-! ## Loops -/

/-- The first part of a loop with three parts. -/
def loopStart (n : Node) : W Unit :=
  match n.form with
  | .bindings kind ds => under { noIn := true } (bindings rules kind ds)
  | _ => rules (.expression n { level := .lowest, noIn := true })

/-- The head of a loop over an object or over values. -/
def loopHead (n : Node) : W Unit :=
  match n.form with
  | .bindings kind ds => bindings rules kind ds
  | form => wrap (form.isNamed "async") (rules (.pattern n))

/-- A part behind a semicolon. -/
def loopPart (part : Option Node) : W Unit := do
  write ";"
  match part with
  | some x =>
    softSpace
    rules (.expression x .alone)
  | none => pure ()

def forLoop (start test step : Option Node) (body : Node) : W Unit := do
  word "for"
  softSpace
  wrap true do
    match start with
    | some n => loopStart rules n
    | none => pure ()
    loopPart rules test
    loopPart rules step
  heldStatement rules body false

/-- A loop over an object or over values. -/
def forEach (awaits : Bool) (between : String) (head values body : Node) (level : Precedence) :
    W Unit := do
  word "for"
  if awaits then write " await"
  softSpace
  wrap true do
    if between == "in" then under { noIn := true } (loopHead rules head)
    else loopHead rules head
    softSpace
    word between
    softSpace
    rules (.expression values { level })
  heldStatement rules body false

def doLoop (body test : Node) : W Unit := do
  word "do"
  match body.form with
  | .block list =>
    softSpace
    block rules list
    softSpace
  | .empty =>
    commentsAt body.span.start
    indent
    write ";"
    softNewline
  | _ =>
    softNewline
    deeper do
      rules (.statement body)
      settleSemicolon
    indent
  word "while"
  softSpace
  condition rules test
  endStatement

/-! ## Other statements -/

/-- A word with a value or a label behind it. -/
def wordWith (text : String) (value : Option (W Unit)) : W Unit := do
  word text
  match value with
  | some v =>
    softSpace
    v
  | none => pure ()
  endStatement

def switchCase (c : Node) : W Unit := do
  match c.form with
  | .switchCase test list =>
    settleSemicolon
    indent
    match test with
    | some t =>
      word "case"
      softSpace
      rules (.expression t .alone)
    | none => word "default"
    write ":"
    match list with
    | [only] => heldStatement rules only false
    | _ =>
      softNewline
      deeper (statements rules list)
  | _ => pure ()

/-- The block of a part of a `try` statement. -/
def plainBlock (n : Node) : W Unit := do
  softSpace
  match block? n with
  | some list => block rules list
  | none => pure ()

def guarded (body : Node) (handler cleanup : Option Node) : W Unit := do
  word "try"
  plainBlock rules body
  match handler with
  | some h =>
    softSpace
    commentsAt h.span.start
    word "catch"
    match h.form with
    | .handler parameter inner =>
      match parameter with
      | some p =>
        softSpace
        wrap true (rules (.pattern p))
      | none => pure ()
      softSpace
      commentsAt inner.span.start
      settleSpace
      match block? inner with
      | some list => block rules list
      | none => pure ()
    | _ => pure ()
  | none => pure ()
  match cleanup with
  | some c =>
    softSpace
    word "finally"
    plainBlock rules c
  | none => pure ()
  softNewline

/-! ## Module items -/

def attributes (a : ImportAttributes) : W Unit := do
  write (if a.asserted then "assert" else "with")
  softSpace
  write "\x7b"
  unless a.entries.isEmpty do
    softSpace
    separated (fun (key, value) => do
      moduleName key
      write ":"
      softSpace
      stringLiteral false value.value) a.entries
    softSpace
  write "\x7d"

/-- `imported as binding`, or the name alone if both are the same. -/
def named (outer : ModuleName) (binding : String) : W Unit := do
  moduleName outer
  unless outer.text == binding do write (" as " ++ binding)

/-- The entries of an import clause; `inBraces` behind a named one. -/
def importSpecifiers (isFirst inBraces : Bool) : List ImportSpecifier → W Unit
  | [] => do
    if inBraces then
      softSpace
      write "\x7d"
      softSpace
  | .default binding :: rest => do
    if isFirst then space else comma
    write binding
    if rest.isEmpty then space
    importSpecifiers false false rest
  | .whole binding :: rest => do
    if isFirst then softSpace else comma
    write "*"
    softSpace
    write ("as " ++ binding ++ " ")
    importSpecifiers false false rest
  | .named imported binding :: rest => do
    if inBraces then comma
    else
      unless isFirst do write ","
      softSpace
      write "\x7b"
      softSpace
    named imported binding
    importSpecifiers false true rest

/-- The name of the module that an import is from. Behind empty braces it is written as it is. -/
def importSource (emptyClause : Bool) (source : ModuleSource) : W Unit := do
  softSpace
  if emptyClause then write ("\"" ++ source.name.toString ++ "\"")
  else stringLiteral false source.name.value
  match source.attributes with
  | some x =>
    if emptyClause then space else softSpace
    attributes x
  | none => pure ()
  endStatement

def importItem (d : ImportDeclaration) : W Unit := do
  word "import"
  match d.phase with
  | some .deferred => write " defer"
  | some .source => write " source"
  | none => pure ()
  match d.specifiers with
  | none => importSource false d.source
  | some [] =>
    softSpace
    write "\x7b\x7d"
    softSpace
    write "from"
    importSource true d.source
  | some list =>
    importSpecifiers true false list
    write "from"
    importSource false d.source

/-- A name in an export clause with the comments before it. -/
def exportName (start : Nat) (name : ModuleName) : W Unit := do
  commentsAt start
  settleSpace
  moduleName name

def exportSpecifier (s : ExportSpecifier) : W Unit := do
  exportName s.start s.binding
  unless s.binding.text == s.exported.text do
    write " as "
    exportName s.exportedStart s.exported

/-- An export clause. The attributes of the module behind it are left out. -/
def exportNames (specifiers : List ExportSpecifier) (source : Option ModuleSource) : W Unit := do
  word "export"
  softSpace
  write "\x7b"
  unless specifiers.isEmpty do
    softSpace
    separated exportSpecifier specifiers
    softSpace
  write "\x7d"
  match source with
  | some s =>
    softSpace
    write "from"
    softSpace
    stringLiteral false s.name.value
  | none => pure ()
  endStatement

def exportAll (exported : Option ModuleName) (source : ModuleSource) : W Unit := do
  word "export"
  softSpace
  write "*"
  softSpace
  match exported with
  | some name =>
    write "as "
    moduleName name
    space
  | none => pure ()
  write "from"
  softSpace
  stringLiteral false source.name.value
  match source.attributes with
  | some x =>
    space
    attributes x
  | none => pure ()
  endStatement

/-- The mark of a function that is declared free of side effects, on a line of its own. -/
def declarationMark (n : Node) (isItem : Bool) : W Unit := do
  match n.form with
  | .function t _ _ _ =>
    if t.pure then
      unless isItem do indent
      write (noSideEffectsMark ++ "\n")
  | _ => pure ()

/-- A function, class or declaration of variables with its end. -/
def declaration (n : Node) : W Unit := do
  match n.form with
  | .function t name ps body =>
    functionText rules t name ps body
    softNewline
    forgetSemicolon
  | .classLike t ds name parent members =>
    classLike rules t ds name parent members
    softNewline
    forgetSemicolon
  | .bindings kind ds =>
    bindings rules kind ds
    endStatement
  | .typeDeclaration text =>
    write text
    softNewline
  | _ => pure ()

/-- A default export; no line ends behind a type. -/
def exportDefault (value : Node) : W Unit := do
  write "export default "
  match value.form with
  | .typeDeclaration text => write text
  | .function _ _ _ _ | .classLike _ _ _ _ _ => declaration rules value
  | _ =>
    setEdge .defaultExport
    rules (.expression value .item)
    endStatement

/-! ## All statements -/

/-- A statement behind its indentation. -/
def statementText (n : Node) : W Unit := do
  match n.form with
  | .expression value =>
    setEdge .statement
    rules (.expression value .alone)
    endStatement
  | .block list =>
    block rules list
    softNewline
  | .empty =>
    write ";"
    softNewline
  | .choice _ _ _ => choice rules n
  | .forLoop a b c body => forLoop rules a b c body
  | .forIn head object body => forEach rules false "in" head object body .lowest
  | .forOf awaits head values body => forEach rules awaits "of" head values body .comma
  | .whileLoop test body =>
    word "while"
    softSpace
    condition rules test
    heldStatement rules body false
  | .doLoop body test => doLoop rules body test
  | .continues label => wordWith "continue" (label.map word)
  | .breaks label => wordWith "break" (label.map word)
  | .returns value => wordWith "return" (value.map fun v => rules (.expression v .alone))
  | .throws value => wordWith "throw" (some (rules (.expression value .alone)))
  | .guarded body handler cleanup => guarded rules body handler cleanup
  | .switch subject cases =>
    word "switch"
    softSpace
    condition rules subject
    softSpace
    braces cases.isEmpty (cases.forM (switchCase rules))
    softNewline
    forgetSemicolon
  | .labeled label body =>
    word label
    write ":"
    heldStatement rules body false
  | .debugger => wordWith "debugger" none
  | .within object body =>
    word "with"
    condition rules object
    heldStatement rules body false
  | .importItem d => importItem d
  | .exportDeclaration d =>
    word "export"
    space
    declaration rules d
  | .exportNames specifiers source => exportNames specifiers source
  | .exportDefault value => exportDefault rules value
  | .exportAll exported source => exportAll exported source
  | _ => declaration rules n

/-- Any statement, declaration or module item, with the comments before it. -/
def statement (n : Node) : W Unit := do
  commentsAt n.span.start
  match n.form with
  | .exportDeclaration d | .exportDefault d => declarationMark d true
  | _ => declarationMark n false
  indent
  statementText rules n

end Awaitless.Script.Printer
