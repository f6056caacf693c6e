/-!
# Comments

A comment belongs to the token after it, unless it ends the line of the token before it. Comments
of the second sort are dropped.

* `Comment` — a comment that is kept.
* `Trivia` — the comments between two tokens while they are read, and which of them are kept.
-/

namespace Awaitless.Script

/-- A comment with its delimiters. -/
structure Comment where
  text : String
  isBlock : Bool
  /-- Whether it is the first thing on its line. -/
  afterNewline : Bool
  /-- Whether a line ends right after it. -/
  beforeNewline : Bool
  /-- Whether its lines are written one by one. -/
  hasLines : Bool
deriving Repr, DecidableEq, Inhabited

namespace Comment

/-- The text between the delimiters. -/
def content (c : Comment) : List Char :=
  let chars := c.text.toList.drop 2
  if c.isBlock then chars.dropLast.dropLast else chars

def isBlank (c : Char) : Bool :=
  c == ' ' || c == '\t' || c == '\n' || c == '\r' || c == '\x0c'

/-- Whether the content begins with a mark such as `@__PURE__`, also written with `#`. -/
def hasMark (c : Comment) (mark : String) : Bool :=
  match c.content.dropWhile isBlank with
  | first :: rest => (first == '@' || first == '#') && mark.toList.isPrefixOf rest
  | [] => false

/-- Marks the call behind it as free of side effects. -/
def isPureMark (c : Comment) : Bool := c.hasMark "__PURE__"

/-- Marks the function behind it as free of side effects. -/
def isNoSideEffectsMark (c : Comment) : Bool := c.hasMark "__NO_SIDE_EFFECTS__"

/-- Whether `needle` occurs in a text. -/
def occurs (needle : List Char) : List Char → Bool
  | [] => needle.isEmpty
  | c :: rest => needle.isPrefixOf (c :: rest) || occurs needle rest

/-- Whether a text names rights to the code. Eight characters have to follow the mark `@`. -/
def namesRights : List Char → Bool
  | [] => false
  | c :: rest =>
    (c == '@' && 8 ≤ (String.ofList rest).utf8ByteSize &&
      ("license".toList.isPrefixOf rest || "preserve".toList.isPrefixOf rest)) ||
      namesRights rest

/-- Whether a text is a note to a tool that measures which code has run. -/
def isCoverageNote (text : List Char) : Bool :=
  ["v8 ignore", "c8 ignore", "node:coverage", "istanbul ignore"].any fun w =>
    w.toList.isPrefixOf text

/-- Whether a text is a note to a bundler. -/
def isBundlerNote (text : List Char) : Bool :=
  "@vite".toList.isPrefixOf text ||
    ("webpack".toList.isPrefixOf text &&
      ((text.drop 7).head?.any fun c => 'A' ≤ c && c ≤ 'Z'))

/-- A comment that states rights to the code. Notes to tools state none. -/
def isLegal (c : Comment) : Bool :=
  let text := c.content.dropWhile isBlank
  if c.content.head? == some '!' then true
  else if c.isBlock && c.content.head? == some '*' then namesRights c.content
  else if isBundlerNote text || isCoverageNote text then false
  else
    "@license".toList.isPrefixOf text || "@preserve".toList.isPrefixOf text ||
      namesRights c.content

/-- A comment that says that the text is in a typed dialect which is not read. -/
def isFlowMark (c : Comment) : Bool := occurs "@flow".toList c.text.toList

end Comment

/-- The comments since the last token. -/
structure Trivia where
  /-- The comments that may still belong to the next token, the last one first. -/
  pending : List Comment := []
  /-- Whether a line has ended since the last token. -/
  sawNewline : Bool := true
  /-- Whether the last token keeps a comment behind it on its line: `=` and `(`. -/
  afterOpening : Bool := false
  pureMark : Bool := false
  noSideEffects : Bool := false
  /-- The first comment, even if it does not belong to the next token. -/
  first : Option Comment := none
deriving Repr, Inhabited

namespace Trivia

/-- A line ends. The last comment is followed by it; comments on the line of the last token are
dropped. -/
def newline (t : Trivia) : Trivia :=
  let pending :=
    match t.pending with
    | last :: others => { last with beforeNewline := true } :: others
    | [] => []
  { t with pending := if t.sawNewline then pending else [], sawNewline := true }

/-- Whether the next comment is the first thing on its line: no comment before it ends there. -/
def startsLine (t : Trivia) : Bool :=
  t.sawNewline && t.pending.head?.all (·.beforeNewline)

/-- A comment is read. -/
def add (t : Trivia) (text : String) (isBlock hasLines : Bool) : Trivia :=
  let comment : Comment := ⟨text, isBlock, t.startsLine, !isBlock, hasLines⟩
  let t :=
    { t with
      pureMark := t.pureMark || comment.isPureMark
      noSideEffects := t.noSideEffects || comment.isNoSideEffectsMark
      first := t.first.or (some comment) }
  if isBlock then { t with pending := comment :: t.pending }
  else if !t.sawNewline && !t.afterOpening then { t with pending := [], sawNewline := true }
  else { t with pending := comment :: t.pending, sawNewline := true }

/-- The comments that belong to the next token, in source order. -/
def kept (t : Trivia) : List Comment :=
  t.pending.reverse.filter fun c => !c.isPureMark && !c.isNoSideEffectsMark

end Trivia

end Awaitless.Script
