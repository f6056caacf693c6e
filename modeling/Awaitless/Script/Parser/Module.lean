import Awaitless.Distinct
import Awaitless.Script.Parser.Statement

/-!
# Module items

* `importItem`, `exportItem` — imports and exports.
* `typeItem?` — declarations of types, where they are read.
* `statement` — any statement, declaration or module item.
-/

namespace Awaitless.Script.Parser

variable (rules : Rules)

/-! ## Imports -/

/-- An attribute with its value, which has to be a string. -/
def importAttribute : P (ModuleName × StringText) := do
  let key ←
    match ← kind with
    | .string value flaw _ => do
      advance
      pure (ModuleName.quoted ⟨value, flaw⟩)
    | _ => do pure (ModuleName.word (← nameText))
  expect .colon
  match ← kind with
  | .string value flaw _ =>
    advance
    return (key, ⟨value, flaw⟩)
  | _ => stop .attributeValue

/-- The attributes behind a module name, if there are any. -/
def attributes? : P (Option ImportAttributes) := do
  let token := (← get).token
  let asserted := token.kind == .word "assert" && !token.afterNewline
  unless token.kind == .keyword .with || asserted do return none
  advanceName
  let (entries, _) ← between .leftBrace .rightBrace (delimited .rightBrace importAttribute)
  (repeated (entries.map (·.1.text))).forM fun key => note (.repeatedAttribute key)
  return some { asserted, entries }

/-- The name of a module with its attributes. -/
def moduleSource : P ModuleSource := do
  let name ← stringText
  return ⟨name, ← attributes?⟩

/-- The name that an entry of an import clause binds, from any name as it is seen from outside. -/
def importBinding (name : ModuleName) : P String := do
  match name with
  | .quoted _ => note .expectedIdentifier
  | .word w =>
    if (Keyword.ofText? w).isSome || w == "await" || w == "yield" then note (.reservedIdentifier w)
  return name.text

/-- One entry of an import clause. -/
def importSpecifier : P ImportSpecifier := do
  let imported ← moduleName
  let name ← if ← eatWord "as" then moduleName else pure imported
  return .named imported (← importBinding name)

/-- The entries of an import clause in their braces. -/
def importSpecifiers : P (List ImportSpecifier) := do
  let (entries, _) ← between .leftBrace .rightBrace (delimited .rightBrace importSpecifier)
  return entries

/-- `* as name` -/
def importWhole : P ImportSpecifier := do
  expect .star
  expectWord "as"
  return .whole (← bindingName)

/-- Everything between the keyword and `from`; also tells whether there are braces. -/
def importClause : P (List ImportSpecifier × Bool) := do
  match ← kind with
  | .word _ =>
    let name ← bindingName
    let first := ImportSpecifier.default name
    unless ← eat .comma do return ([first], false)
    match ← kind with
    | .mark .star => return ([first, ← importWhole], false)
    | .mark .leftBrace => return (first :: (← importSpecifiers), true)
    | _ => unexpected
  | .mark .star => return ([← importWhole], false)
  | .mark .leftBrace => return (← importSpecifiers, true)
  | _ => return ([], false)

/-- The phase that a word stands for. -/
def phaseOf? : TokenKind → Option ImportPhase
  | .word "defer" => some .deferred
  | .word "source" => some .source
  | _ => none

/-- Whether an import clause stands behind the current word, which is no name to bind then. -/
def clauseFollows : P Bool :=
  lookahead do
    advance
    match ← kind with
    | .word "from" =>
      advance
      match ← kind with
      | .string _ _ _ => return false
      | _ => return true
    | .word _ | .mark .star | .mark .leftBrace => return true
    | _ => return false

/-- The phase of an import, if one stands here. -/
def importPhase? : P (Option ImportPhase) := do
  match phaseOf? (← kind) with
  | some phase =>
    unless ← clauseFollows do return none
    advance
    return some phase
  | none => return none

/-- The clause of an import with a phase, of which each takes one kind of entry. -/
def phaseClause (phase : ImportPhase) : P (List ImportSpecifier) := do
  match phase, ← kind with
  | .source, .word _ => return [.default (← bindingName)]
  | .source, _ =>
    note .sourcePhaseClause
    return (← importClause).1
  | .deferred, _ =>
    let (entries, hasBraces) ← importClause
    match entries with
    | .default _ :: _ => note .deferredDefault
    | _ => if hasBraces then note .deferredNames
    return entries

/-- The entries of an import with `from` behind them; there are none where its source stands. -/
def importEntries (phase : Option ImportPhase) : P (Option (List ImportSpecifier)) := do
  match ← kind with
  | .string _ _ _ => return none
  | _ =>
    let entries ←
      match phase with
      | some ph => phaseClause ph
      | none => Prod.fst <$> importClause
    expectWord "from"
    return some entries

/-- An import declaration from its source on. -/
def importSource (start : Nat) (phase : Option ImportPhase)
    (specifiers : Option (List ImportSpecifier)) : P Node := do
  let source ← moduleSource
  finishStatement
  node start (.importItem { phase, specifiers, source })

/-- An import declaration behind its keyword. -/
def importItem (start : Nat) : P Node := do
  let phase ← importPhase?
  importSource start phase (← importEntries phase)

/-! ## Declarations of types -/

/-- Reads past the rest of a declaration of a type. -/
def typeDeclaration (start : Nat) (finish : P Unit) : P Node := do
  finish
  node start (.typeDeclaration (← textFrom start))

/-- Reads past types with commas between them. -/
def typeRow : P Unit := do
  let _ ← rules .type
  iterate (fun () => do
    unless ← eat .comma do return .inr ()
    let _ ← rules .type
    return .inl ()) (← limit) ()

/-- Reads past a declaration that ends in a pair of braces, from its word on: its name, if it has
one, what it takes and what it extends, and everything in the braces. -/
def throughBraces : P Unit := do
  let _ ← eatKeyword .const
  advance
  match ← kind with
  | .string _ _ _ => advance
  | .word _ => dottedName
  | _ => pure ()
  if ← atMark .less then typeParameters rules
  if ← eatKeyword .extends then typeRow rules
  if ← atMark .leftBrace then balanced else expect .leftBrace

/-- Whether a token follows on the same line. -/
def followsOnLine (p : TokenKind → Bool) : P Bool :=
  lookahead do
    advance
    return p (← kind) && !(← onNewLine)

/-- A class without a value of its own, whose word stands here. -/
def abstractClass (start : Nat) (declared : Bool) (ds : List Node) : P Node := do
  advance
  classLike rules start true declared ds

/-- The declaration of another name for a type, from its word on. -/
def typeAlias (start : Nat) : P Node := do
  typeDeclaration start do
    advance
    let _ ← nameText
    if ← atMark .less then typeParameters rules
    expect (.assign none)
    let _ ← rules .type
    finishStatement

/-- A declaration behind `declare`. -/
def declaredItem (start : Nat) : P Node := do
  match ← kind with
  | .keyword .function => function rules start .declaration false true
  | .keyword .const =>
    if ← followsOnLine (· == .keyword .enum) then typeDeclaration start (throughBraces rules)
    else variableDeclaration rules .constant true <* finishStatement
  | .word "let" => variableDeclaration rules .lexical true <* finishStatement
  | .keyword .var => variableDeclaration rules .var true <* finishStatement
  | .keyword .class => classLike rules start false true []
  | .word "abstract" => abstractClass rules start true []
  | .word "type" => typeAlias rules start
  | _ => typeDeclaration start (throughBraces rules)

/-- A declaration of a type, or one without a value, where such declarations are read. -/
def typeItem? (start : Nat) : P (Option Node) := do
  unless (← get).typed do return none
  unless ← followsOnLine isName do return none
  match ← kind with
  | .word "interface" | .word "namespace" | .word "module" | .keyword .enum =>
    some <$> typeDeclaration start (throughBraces rules)
  | .keyword .const =>
    unless ← followsOnLine (· == .keyword .enum) do return none
    some <$> typeDeclaration start (throughBraces rules)
  | .word "type" => some <$> typeAlias rules start
  | .word "abstract" =>
    unless ← followsOnLine (· == .keyword .class) do return none
    some <$> abstractClass rules start false []
  | .word "declare" =>
    advance
    some <$> declaredItem rules start
  | _ => return none

/-- `import a = b.c`, behind the first keyword. Only a typed dialect has it. -/
def importAlias? (start : Nat) : P (Option Node) := do
  let isAlias ← lookahead do
    if isWord (← kind) then
      advance
      atMark (.assign none)
    else return false
  unless isAlias do return none
  let item ← typeDeclaration start do
    advance
    advance
    if ← eatWord "require" then
      expect .leftParen
      let _ ← stringText
      expect .rightParen
    else dottedName
    finishStatement
  unless (← get).typed do note .importAlias
  return some item

/-! ## Exports -/

/-- One entry of an export clause. -/
def exportSpecifier : P ExportSpecifier := do
  let start ← here
  let binding ← moduleName
  if ← eatWord "as" then
    let exportedStart ← here
    return { start, binding, exportedStart, exported := ← moduleName }
  return { start, binding, exportedStart := start, exported := binding }

/-- Words that cannot name a binding of a module. -/
def isReservedForExport (name : String) : Bool :=
  (Keyword.ofText? name).isSome ||
    ["await", "implements", "interface", "package", "private", "protected", "public", "static",
      "yield"].contains name

/-- A clause without a module behind it names bindings of this one. -/
def checkLocal (s : ExportSpecifier) : P Unit :=
  match s.binding with
  | .quoted _ => note .exportedString
  | .word name => if isReservedForExport name then note .exportedReservedWord else pure ()

/-- Whether a literal stands here. -/
def atLiteral : P Bool := do
  match ← kind with
  | .keyword .null | .keyword .true | .keyword .false => return true
  | k => return isLiteral k

/-- An export clause. -/
def exportClause (start : Nat) : P Node := do
  let (specifiers, _) ← between .leftBrace .rightBrace (delimited .rightBrace exportSpecifier)
  let source ←
    if (← eatWord "from") && (← atLiteral) then some <$> moduleSource else pure none
  if source.isNone then specifiers.forM checkLocal
  finishStatement
  node start (.exportNames specifiers source)

/-- `export *` behind the star. -/
def exportAll (start : Nat) : P Node := do
  let exported ← if ← eatWord "as" then some <$> moduleName else pure none
  expectWord "from"
  let source ← moduleSource
  finishStatement
  node start (.exportAll exported source)

/-- All decorators of an exported declaration: those before `export`, or those that stand here. -/
def exportDecorators (before : List Node) : P (List Node) := do
  let after ← decorators rules
  unless before.isEmpty do after.forM fun _ => note .decoratorsAfterExport
  return before ++ after

/-- The function, class or value behind `export default`. -/
def exportedDefault (before : List Node) : P Node := do
  let start ← here
  let ds ← exportDecorators rules before
  let marked := (← get).token.noSideEffects
  let mark (n : Node) : Node := if marked then markPure n else n
  match ← kind with
  | .keyword .class => return ← classLike rules start false false ds
  | .word "abstract" =>
    if ← followsOnLine (· == .keyword .class) then
      return ← abstractClass rules start false ds
  | _ => pure ()
  refuseDecorators ds
  if (← atWord "interface") && (← followsOnLine isWord) then
    return ← typeDeclaration start (throughBraces rules)
  if ← atKeyword .function then
    return mark (← function rules start .defaultExport false false)
  if ← atAsyncFunction then
    advance
    return mark (← function rules start .defaultExport true false)
  let value ← rules .assignment
  finishStatement
  return value

/-- An import behind `export`, which only an alias of a name can be. -/
def exportedImport : P Node := do
  let start ← here
  advance
  match ← importAlias? start with
  | some item => return item
  | none =>
    let _ ← importItem start
    stop .unexpectedExport

/-- Complains about `export` as a modifier of an export. -/
def repeatedExports : P Unit := do
  iterate (fun () => do
    unless ← atKeyword .export do return .inr ()
    let stands ← lookahead do
      advance
      match ← kind with
      | .mark .at => return true
      | .mark .star | .mark .leftBrace | .word "as" => return false
      | _ => followsModifier
    unless stands do return .inr ()
    note (.repeatedModifier "export")
    advance
    return .inl ()) (← limit) ()

/-- A declaration of a value behind `export` and other modifiers. -/
def exportedValue (start : Nat) (ms : List Modifier) : P Node := do
  let refuse (allowed : Modifier → Bool) : P Unit :=
    verify ms allowed fun m => .misplacedModifier m.text
  match ← kind with
  | .keyword .class =>
    refuse (· == .abstract)
    classLike rules start (ms.contains .abstract) false []
  | .keyword .function =>
    refuse (· == .async)
    function rules start .declaration (ms.contains .async) false
  | .keyword .var =>
    refuse fun _ => false
    variableDeclaration rules .var false
  | .keyword .const =>
    refuse fun _ => false
    variableDeclaration rules .constant false
  | .word "let" =>
    refuse fun _ => false
    variableDeclaration rules .lexical false
  | _ => unexpected

/-- The declaration behind `export`. Behind decorators, every word begins a class. -/
def exportedDeclaration (before : List Node) : P Node := do
  let start ← here
  if ← atMark .at then
    let ds ← exportDecorators rules before
    if (← atWord "abstract") && (← followsOnLine (· == .keyword .class)) then
      return ← abstractClass rules start false ds
    return ← classLike rules start false false ds
  if ← atKeyword .class then return ← classLike rules start false false before
  refuseDecorators before
  if let some item ← typeItem? rules start then return item
  if (← atUsing false) || (← atAwaitUsing false) then
    note .exportedUsing
    let d ← usingDeclaration rules false
    finishStatement
    return d
  repeatedExports
  exportedValue rules start (← modifiers false)

/-- An export that names types only, behind `export`; a clause or a star follows. -/
def typeExport? (start : Nat) : P (Option Node) := do
  unless (← get).typed && (← atWord "type") do return none
  let follows ← lookahead do
    advance
    return (← atMark .leftBrace) || (← atMark .star)
  unless follows do return none
  advance
  if ← eat .star then some <$> exportAll start else some <$> exportClause start

/-- An export behind its keyword; `before` holds the decorators before it. -/
def exportItem (start : Nat) (before : List Node) : P Node := do
  if let some item ← typeExport? start then return item
  match ← kind with
  | .keyword .import =>
    let d ← exportedImport
    node start (.exportDeclaration d)
  | .keyword .default =>
    advance
    let value ← exportedDefault rules before
    node start (.exportDefault value)
  | .mark .star =>
    refuseDecorators before
    advance
    exportAll start
  | .mark .leftBrace =>
    refuseDecorators before
    exportClause start
  | .mark (.assign none) =>
    unless (← get).typed do return ← unexpected
    advance
    let value ← rules .expression
    finishStatement
    node start (.exportAssignment value)
  | .word "as" =>
    unless (← get).typed do return ← unexpected
    advance
    expectWord "namespace"
    let name ← bindingName
    finishStatement
    node start (.exportNamespace name)
  | _ =>
    let d ← exportedDeclaration rules before
    node start (.exportDeclaration d)

/-! ## All statements -/

/-- A class or an export of a class with decorators before it. -/
def decoratedItem (start : Nat) (single : Bool) : P Node := do
  let ds ← decorators rules
  if ← atKeyword .export then
    let start ← here
    advance
    return ← exportItem rules start ds
  let ms ← modifiers false
  unless ← atKeyword .class do return ← unexpected
  verify ms (fun m => m == .abstract || m == .declared) fun m => .misplacedModifier m.text
  let c ← classLike rules start (ms.contains .abstract) (ms.contains .declared) ds
  if single then note .classInSingleStatement
  return c

/-- Any statement, declaration or module item. -/
def statement (single : Bool) : P Node := do
  let start ← here
  let marked := (← get).token.noSideEffects
  let n ←
    match ← kind with
    | .keyword .import => do
      let isExpression ← lookahead do
        advance
        return (← atMark .leftParen) || (← atMark .dot)
      if isExpression then expressionStatement rules
      else do
        advance
        match ← importAlias? start with
        | some item => pure item
        | none => importItem start
    | .keyword .export => do
      advance
      exportItem rules start []
    | .mark .at => decoratedItem rules start single
    | _ => do
      match ← typeItem? rules start with
      | some item => pure item
      | none => plainStatement rules single
  return if marked then markStatement n else n

end Awaitless.Script.Parser
