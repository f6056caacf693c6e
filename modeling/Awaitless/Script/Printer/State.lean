import Awaitless.Script.Comment
import Awaitless.Script.Operator
import Awaitless.Text.Identifier
import Awaitless.Text.Lines

/-!
# The state of the printer

* `State` — what is written so far, and what the next piece of text has to respect.
* `W` — a printer: it changes the state and never fails.
* `write`, `softSpace`, `indent`, `separateWord`, `endStatement` — the steps that all rules share.
* `commentsAt`, `argumentComments` — the comments that belong to a token.
-/

namespace Awaitless.Script.Printer

/-- An operator as it was written last. -/
inductive WrittenOperator where
  | unary (op : UnaryOperator)
  | update (op : UpdateOperator)
  | binary (op : BinaryOperator)
deriving Repr, DecidableEq, Inhabited

/-- What stands right before the place where writing goes on. -/
inductive Edge where
  | plain
  /-- The next character is the first one of a statement. -/
  | statement
  /-- The next character is the first one of a value behind an arrow. -/
  | arrowBody
  /-- The next character is the first one of a default export. -/
  | defaultExport
  | regex
  /-- A number at whose end a point would be a decimal point. -/
  | integer
  | operator (op : WrittenOperator)
deriving Repr, DecidableEq, Inhabited

/-- What an expression may not show without parentheses, because something around it would take
it. -/
structure Bans where
  /-- `in` would be read as a part of the loop around it. -/
  noIn : Bool := false
  /-- A call would be read as a part of the `new` around it. -/
  noCall : Bool := false
deriving Repr, DecidableEq, Inhabited

structure State where
  minify : Bool
  /-- The comments that are not written yet, by the place of their token. -/
  comments : List (Nat × List Comment)
  /-- The last character first. -/
  output : List Char := []
  edge : Edge := .plain
  depth : Nat := 0
  /-- A statement has ended whose semicolon is only written if another one follows. -/
  owesSemicolon : Bool := false
  /-- The next indentation is a single space. -/
  spaceForIndent : Bool := false
  /-- What holds for the values of declarations and for the defaults of parameters here. -/
  bans : Bans := {}
deriving Inhabited

/-- A printer. -/
abbrev W := StateM State

/-! ## Text -/

def writeChars (cs : List Char) : W Unit := modify fun s =>
  if cs.isEmpty then s else { s with output := cs.reverse ++ s.output, edge := .plain }

def write (text : String) : W Unit := writeChars text.toList

/-- Says what stands before the next character. -/
def setEdge (edge : Edge) : W Unit := modify fun s => { s with edge }

def edge : W Edge := return (← get).edge

def minify : W Bool := return (← get).minify

/-- Does something only where the text is not minified. -/
def unlessMinified (w : W Unit) : W Unit := do
  unless ← minify do w

def space : W Unit := write " "

def newline : W Unit := write "\n"

def softSpace : W Unit := unlessMinified space

def softNewline : W Unit := unlessMinified newline

/-- Tabs up to the current depth, or the one space that stands for them. -/
def indent : W Unit := unlessMinified do
  let s ← get
  if s.spaceForIndent then
    space
    modify fun s => { s with spaceForIndent := false }
  else writeChars (List.replicate s.depth '\t')

/-- Writes something one level deeper. -/
def deeper (w : W Unit) : W Unit := do
  modify fun s => { s with depth := s.depth + 1 }
  w
  modify fun s => { s with depth := s.depth - 1 }

/-- Writes the declarations inside of something under the bans that hold for it. -/
def under (bans : Bans) (w : W Unit) : W Unit := do
  let outer := (← get).bans
  modify fun s => { s with bans }
  w
  modify fun s => { s with bans := outer }

/-- Writes something around which no `new` can take a call. -/
def freeOfNew (w : W Unit) : W Unit := do
  under { (← get).bans with noCall := false } w

/-- Puts something into parentheses, if it needs them. -/
def wrap (needed : Bool) (w : W Unit) : W Unit := do
  if needed then
    write "("
    w
    write ")"
  else w

/-- Puts something into brackets, if it needs them. -/
def bracket (needed : Bool) (w : W Unit) : W Unit := do
  if needed then
    write "["
    w
    write "]"
  else w

def comma : W Unit := do
  write ","
  softSpace

/-- Items with commas between them. -/
def separated (item : α → W Unit) : List α → W Unit
  | [] => pure ()
  | x :: rest => do
    item x
    rest.forM fun y => do
      comma
      item y

/-! ## Tokens that must not merge -/

/-- Keeps a word apart from a word or a regular expression before it. -/
def separateWord : W Unit := do
  let s ← get
  match s.output with
  | [] => pure ()
  | last :: _ => if s.edge == .regex || Text.isIdentifierPart last then space

/-- A word of the language, or a name. -/
def word (text : String) : W Unit := do
  separateWord
  write text

def isPlus : WrittenOperator → Bool
  | .binary .add | .unary .plus => true
  | _ => false

def isMinus : WrittenOperator → Bool
  | .binary .subtract | .unary .minus => true
  | _ => false

/-- Whether two operators would be read as another one, or as the start or end of a comment, if
nothing stood between them. `beforeFirst` is the character before the first of them. -/
def operatorsMerge (first next : WrittenOperator) (beforeFirst : Option Char) : Bool :=
  (isPlus first && (isPlus next || next == .update .increment)) ||
    (isMinus first && (isMinus next || next == .update .decrement)) ||
    (first == .update .decrement && next == .binary .greater) ||
    (first == .unary .negation && next == .update .decrement && beforeFirst == some '<')

/-- Keeps an operator apart from an operator before it. -/
def separateOperator (next : WrittenOperator) : W Unit := do
  let s ← get
  match s.edge with
  | .operator first => if operatorsMerge first next s.output.tail.head? then space
  | _ => pure ()

/-- An operator that is no word. -/
def operatorMark (op : WrittenOperator) (text : String) : W Unit := do
  separateOperator op
  write text
  setEdge (.operator op)

/-! ## Ends of statements -/

/-- The semicolon of a statement. Minified, it is left out before a closing brace. -/
def endStatement : W Unit := do
  if ← minify then modify fun s => { s with owesSemicolon := true }
  else
    write ";"
    newline

/-- Writes the semicolon that is owed, before another statement follows. -/
def settleSemicolon : W Unit := do
  if (← get).owesSemicolon then
    modify fun s => { s with owesSemicolon := false }
    write ";"

/-- A closing brace makes a semicolon before it unnecessary. -/
def forgetSemicolon : W Unit := modify fun s => { s with owesSemicolon := false }

/-! ## Braces -/

/-- Something in braces, on lines of its own unless `inline`. -/
def braces (inline : Bool) (w : W Unit) : W Unit := do
  write "\x7b"
  if inline then w
  else
    softNewline
    deeper w
    indent
  write "\x7d"

/-! ## Comments -/

/-- Keeps the end of a script element out of a text. -/
def escapeScriptEnd : List Char → List Char
  | [] => []
  | c :: rest =>
    if c == '<' && "/script".toList == (rest.take 7).map Char.toLower then
      '<' :: '\\' :: escapeScriptEnd rest
    else c :: escapeScriptEnd rest

/-- The text of a comment. Later lines of a block are indented afresh, unless they look like the
start of one. -/
def commentText (c : Comment) : W Unit := do
  let text := c.text.toList
  match if c.hasLines then Text.linesOf text else [text] with
  | [] => pure ()
  | first :: rest =>
    writeChars (escapeScriptEnd first)
    rest.forM fun line => do
      newline
      unless "/*".toList.isPrefixOf line do indent
      writeChars (escapeScriptEnd (line.dropWhile Text.isWhite))

/-- The comments before a token, each followed by a line end or by a space. -/
def comments (cs : List Comment) : W Unit := do
  match cs with
  | [] => pure ()
  | first :: rest =>
    if first.afterNewline then
      match (← get).output with
      | [] | '\t' :: _ => pure ()
      | '\n' :: _ => indent
      | _ =>
        newline
        indent
    else indent
    commentText first
    rest.forM fun c => do
      if c.afterNewline then
        newline
        indent
      else if c.isLegal then newline
      else softSpace
      commentText c
    let last := (first :: rest).getLastD first
    if !last.isBlock || last.beforeNewline then newline
    else modify fun s => { s with spaceForIndent := true }

/-- Takes the comments of a token, so that they are written once. -/
def takeComments (position : Nat) : W (List Comment) := do
  let s ← get
  match s.comments.lookup position with
  | some cs =>
    set { s with comments := s.comments.filter fun entry => entry.1 != position }
    return cs
  | none => return []

/-- Whether comments of a token are still to be written. -/
def hasComments (position : Nat) : W Bool :=
  return (← get).comments.any fun entry => entry.1 == position

/-- The comments of the token at a place. -/
def commentsAt (position : Nat) : W Unit := do
  comments (← takeComments position)

/-- Writes the space that stands for the next indentation, if there is one. -/
def settleSpace : W Unit := unlessMinified do
  if (← get).spaceForIndent then
    space
    modify fun s => { s with spaceForIndent := false }

/-- The comments of a token inside of an expression, each on a line of its own; tells whether
there were any. -/
def argumentComments (position : Nat) : W Bool := do
  let cs ← takeComments position
  if cs.isEmpty then return false
  cs.forM fun c => do
    newline
    indent
    commentText c
  newline
  return true

end Awaitless.Script.Printer
