import Awaitless.Script.Printer.Function

/-!
# Expressions

* `expression` — any expression, in parentheses where its place asks for them.
-/

namespace Awaitless.Script.Printer

variable (rules : Rules)

/-! ## Literals that hold parts -/

/-- Elements that follow each other on one line, or on lines of their own. -/
def elements (item : Node → W Unit) (ownLines : Bool) (list : List Node) : W Unit :=
  if ownLines then do
    deeper do
      match list with
      | [] => pure ()
      | first :: rest =>
        softNewline
        indent
        item first
        rest.forM fun x => do
          write ","
          softNewline
          indent
          item x
      if list.getLast?.any isHole then write ","
    softNewline
    indent
  else do
    separated item list
    if list.getLast?.any isHole then write ","

/-- An array; more than two elements stand on lines of their own. -/
def arrayLiteral (list : List Node) : W Unit :=
  bracket true <|
    elements (fun e => if isHole e then pure () else rules (.expression e .item))
      (decide (2 < list.length)) list

/-- Whether a property is written without its key. -/
def propertyOmitsKey (key value : Node) (computed shorthand : Bool) : Bool :=
  match key.form with
  | .identifier "__proto__" => !computed && shorthand
  | .identifier name => !computed && value.name? == some name
  | _ => false

/-- Overflow is no key. -/
def isOverflow (key : Node) : Bool :=
  match key.form with
  | .numberLiteral .infinite _ => true
  | _ => false

/-- A member of an object literal. -/
def literalMember (m : Node) : W Unit := do
  match m.form with
  | .property key value computed shorthand =>
    unless propertyOmitsKey key value computed shorthand do
      memberKey rules key (computed || isOverflow key)
      write ":"
      softSpace
    rules (.expression value .item)
  | .method kind key value computed => method rules kind key value computed ""
  | _ => rules (.expression m .item)

/-- An object literal; more than one member stand on lines of their own. -/
def objectLiteral (start : Nat) (members : List Node) (bans : Bans) : W Unit := do
  let hasComment ← hasComments start
  let e ← edge
  wrap (hasComment || e == .statement || e == .arrowBody) do
    if hasComment then
      commentsAt start
      indent
    write "\x7b"
    let ownLines := decide (1 < members.length)
    let spaced := !ownLines && !members.isEmpty
    if spaced then softSpace
    under bans (elements (literalMember rules) ownLines members)
    if spaced then softSpace
    write "\x7d"

/-- A template. -/
def template : List String → List Node → W Unit
  | text :: texts, value :: values => do
    templateText text
    write "$\x7b"
    rules (.expression value .alone)
    write "\x7d"
    template texts values
  | texts, _ => texts.forM templateText

/-! ## Calls -/

/-- The mark of calls that are free of side effects. -/
def pureMark : String := "/* @__PURE__ */ "

/-- The arguments of a call that stands at `span`. If one has a comment, each one stands on a line
of its own. -/
def arguments (span : Span) (list : List Node) : W Unit :=
  wrap true do
    let atEnd ← if span.stop = 0 then pure false else hasComments (span.stop - 1)
    let someComment ← list.anyM fun a => hasComments a.span.start
    if atEnd || someComment then
      deeper do
        let item (a : Node) : W Unit := do
          unless ← argumentComments a.span.start do softNewline
          indent
          rules (.expression a .item)
        match list with
        | [] => pure ()
        | first :: rest =>
          item first
          rest.forM fun a => do
            write ","
            item a
        let closed ← if atEnd then argumentComments (span.stop - 1) else pure false
        unless closed do softNewline
      indent
    else separated (fun a => rules (.expression a .item)) list

/-- A call. -/
def call (span : Span) (callee : Node) (list : List Node) (isOptional isPure : Bool)
    (place : Place) : W Unit := do
  let e ← edge
  let wraps := Precedence.construction ≤ place.level || place.noCall ||
    (isPure && Precedence.postfixed ≤ place.level)
  wrap wraps do
    if isPure then write pureMark
    if startsDeclaration e then setEdge e
    rules (.expression callee { level := .postfixed })
    if isOptional then write "?."
    arguments rules span list

/-- `new`; minified, empty parentheses are left out where nothing is done with the value. -/
def construct (span : Span) (callee : Node) (list : List Node) (isPure : Bool) (place : Place) :
    W Unit := do
  let held : Bool := Precedence.postfixed ≤ place.level
  wrap (Precedence.call ≤ place.level || (isPure && held)) do
    if isPure then write pureMark
    word "new"
    softSpace
    rules (.expression callee { level := .construction, noCall := true })
    if !(← minify) || !list.isEmpty || held then arguments rules span list

/-- `import()`. If it has a comment, its parts stand on lines of their own. -/
def dynamicImport (span : Span) (phase : Option ImportPhase) (source : Node)
    (options : Option Node) (place : Place) : W Unit :=
  wrap (Precedence.construction ≤ place.level || place.noCall) do
    let atEnd ← if span.stop = 0 then pure false else hasComments (span.stop - 1)
    let someComment ← (source :: options.toList).anyM fun x => hasComments x.span.start
    let commented := atEnd || someComment
    word "import"
    match phase with
    | some .deferred => write ".defer"
    | some .source => write ".source"
    | none => pure ()
    wrap true do
      let parts : W Unit := do
        if commented then
          unless ← argumentComments source.span.start do softNewline
          indent
        rules (.expression source .item)
        match options with
        | some o =>
          write ","
          if commented then
            softNewline
            indent
          else softSpace
          rules (.expression o .item)
        | none => pure ()
        if commented then
          let closed ← if atEnd then argumentComments (span.stop - 1) else pure false
          unless closed do softNewline
      if commented then deeper parts else parts

/-! ## Accesses -/

/-- The object of an access. -/
def accessed (object : Node) (place : Place) : W Unit :=
  rules (.expression object { level := .postfixed, noCall := place.noCall })

/-- `.` or `?.`, kept apart from a number. -/
def accessDot (isOptional : Bool) : W Unit := do
  if isOptional then write "?."
  else
    if (← edge) == .integer then space
    write "."

/-! ## Operators -/

/-- Whether an operand is a short-circuiting one that does not go together with `??`. -/
def needsParensInCoalesce (n : Node) : Bool :=
  match n.bare.form with
  | .binary op _ _ => op == .or || op == .and
  | _ => false

/-- Whether an operand starts with a sign and so cannot stand on the left of a power. -/
def isSigned (n : Node) : Bool :=
  match n.bare.form with
  | .unary _ _ => true
  | _ => false

/-- The levels of the operands. -/
def operandLevels (op : BinaryOperator) (left right : Node) : Precedence × Precedence :=
  let strength := op.precedence
  let leftLevel :=
    if op == .coalesce && needsParensInCoalesce left then .unary
    else if op == .power && isSigned left then .call
    else if op.groupsRight then strength
    else strength - 1
  let rightLevel :=
    if op == .coalesce && needsParensInCoalesce right then .unary
    else if op.groupsLeft then strength
    else strength - 1
  (leftLevel, rightLevel)

def binaryMark (op : BinaryOperator) : W Unit :=
  if op.isWord then word op.text else operatorMark (.binary op) op.text

/-- Whether an operand is a test for a private name. -/
def isPrivateTest (n : Node) : Bool :=
  match n.bare.form with
  | .binary .inside left _ =>
    match left.form with
    | .privateName _ => true
    | _ => false
  | _ => false

/-- An operator between two operands. A test for a private name on the left stands as it is. -/
def binary (op : BinaryOperator) (left right : Node) (place : Place) : W Unit := do
  match left.form with
  | .privateName name =>
    wrap (Precedence.comparison ≤ place.level) do
      write ("#" ++ name ++ " in ")
      rules (.expression right { level := .equality, noIn := true })
  | _ =>
    let wraps := op.precedence ≤ place.level || (op == .inside && place.noIn)
    let noIn := place.noIn && !wraps
    let (leftLevel, rightLevel) := operandLevels op left right
    wrap wraps do
      rules <| .expression left <|
        if isPrivateTest left then .alone else { level := leftLevel, noIn, noCall := place.noCall }
      softSpace
      binaryMark op
      softSpace
      rules (.expression right { level := rightLevel, noIn, noCall := place.noCall })

/-- An operator before its operand. -/
def unary (op : UnaryOperator) (operand : Node) (place : Place) : W Unit :=
  wrap (Precedence.unary ≤ place.level) do
    if op.isWord then
      word op.text
      softSpace
    else operatorMark (.unary op) op.text
    let overflow := op == .delete && isOverflow operand && !(← minify)
    -- overflow is written as a name, and names cannot be deleted
    wrap overflow do
      if overflow then
        write "0"
        comma
      rules (.expression operand (place.withLevel .power))

/-- An operator that changes its operand by one. -/
def update (op : UpdateOperator) (before : Bool) (operand : Node) (place : Place) : W Unit :=
  wrap ((if before then Precedence.unary else Precedence.postfixed) ≤ place.level) do
    if before then
      operatorMark (.update op) op.text
      rules (.expression operand (place.withLevel .unary))
    else
      separateOperator (.update op)
      rules (.expression operand (place.withLevel .postfixed))
      write op.text
      setEdge (.operator (.update op))

def isObjectPattern (n : Node) : Bool :=
  match n.form with
  | .objectPattern _ _ => true
  | _ => false

/-- An assignment; an object pattern at the start of a statement would be read as a block. -/
def assign (op : AssignmentOperator) (target value : Node) (place : Place) : W Unit := do
  let e ← edge
  let ambiguous := isObjectPattern target && (e == .statement || e == .arrowBody)
  wrap (ambiguous || Precedence.assignment ≤ place.level) do
    under place.toBans (rules (.pattern target))
    softSpace
    write op.text
    softSpace
    rules (.expression value (place.withLevel .comma))

def conditional (test yes no : Node) (place : Place) : W Unit := do
  let wraps : Bool := Precedence.conditional ≤ place.level
  let noIn := place.noIn && !wraps
  wrap wraps do
    rules (.expression test { level := .conditional, noIn })
    softSpace
    write "?"
    softSpace
    rules (.expression yes { level := .yields })
    softSpace
    write ":"
    softSpace
    rules (.expression no { level := .yields, noIn })

def yieldValue (delegates : Bool) (value : Option Node) (place : Place) : W Unit :=
  wrap (Precedence.assignment ≤ place.level) do
    word "yield"
    if delegates then write "*"
    match value with
    | some v =>
      softSpace
      rules (.expression v { level := .yields })
    | none => pure ()

/-! ## All expressions -/

/-- Any expression, in parentheses where its place asks for them. -/
def expression (n : Node) (place : Place) : W Unit := do
  match n.form with
  | .parenthesized x => rules (.expression x place)
  | .identifier name => word name
  | .thisValue => word "this"
  | .superValue => word "super"
  | .nullLiteral => word "null"
  | .booleanLiteral value => word (if value then "true" else "false")
  | .numberLiteral value _ => numberLiteral value place.level
  | .bigintLiteral value => word (toString value ++ "n")
  | .stringLiteral value _ => stringLiteral true value
  | .regexLiteral p flags => regexLiteral p flags
  | .template texts values =>
    write "\x60"
    template rules texts values
    write "\x60"
  | .array list => arrayLiteral rules list
  | .object members => objectLiteral rules n.span.start members place.toBans
  | .spread value =>
    write "..."
    rules (.expression value .item)
  | .function t name ps body => functionValue rules t name ps body place.toBans
  | .arrow t ps body => arrow rules t ps body place
  | .classLike t ds name parent members =>
    wrap (startsDeclaration (← edge)) <|
      under place.toBans (classLike rules t ds name parent members)
  | .unary op x => unary rules op x place
  | .update op before x => update rules op before x place
  | .binary op l r => binary rules op l r place
  | .assign op t v => assign rules op t v place
  | .conditional a b c => conditional rules a b c place
  | .sequence list =>
    wrap (Precedence.comma ≤ place.level)
      (separated (fun x => rules (.expression x { level := .lowest, noIn := place.noIn })) list)
  | .yieldValue delegates value => yieldValue rules delegates value place
  | .awaitValue x =>
    wrap (Precedence.unary ≤ place.level) do
      word "await"
      softSpace
      rules (.expression x (place.withLevel .power))
  | .member object name isOptional =>
    accessed rules object place
    accessDot isOptional
    write name
  | .privateMember object name isOptional =>
    accessed rules object place
    write ((if isOptional then "?.#" else ".#") ++ name)
  | .index object key isOptional =>
    let ambiguous := object.name? == some "let"
    wrap ambiguous (accessed rules object place)
    if isOptional then write "?."
    bracket true (rules (.expression key .alone))
  | .call callee list isOptional isPure => call rules n.span callee list isOptional isPure place
  | .construct callee list isPure => construct rules n.span callee list isPure place
  | .chain x => wrap (Precedence.postfixed ≤ place.level) (rules (.expression x place))
  | .tagged tag text =>
    rules (.expression tag { level := .postfixed })
    rules (.expression text .alone)
  | .dynamicImport phase source options => dynamicImport rules n.span phase source options place
  | .importMeta => word "import.meta"
  | .newTarget => word "new.target"
  | .objectPattern _ _ | .arrayPattern _ _ | .defaulted _ _ | .rest _ | .annotated _ _ =>
    rules (.pattern n)
  | _ => pure ()

end Awaitless.Script.Printer
