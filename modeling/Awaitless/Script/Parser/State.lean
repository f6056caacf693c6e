import Awaitless.Script.Lexer.Scan

/-!
# The state of the parser

* `State` — the current token, the place behind it, and what was noted so far.
* `P` — a parser: it changes the state and always gives a result. What was found wrong stays.
* `stop`, `unexpected` — the first error that cannot be passed. From there on, the text counts as
  used up: the rules go on with the token at hand, behind which only the end of the text comes.
* `advance`, `expect`, `eat`, `finishStatement`, `delimited` — the steps that all rules share.
-/

namespace Awaitless.Script.Parser

/-- What the surrounding code permits. -/
structure Context where
  /-- `in` is an operator here. -/
  allowsIn : Bool := true
  /-- Inside of a generator. -/
  yields : Bool := false
  /-- Inside of an asynchronous function, or in the module itself. -/
  awaits : Bool := true
  /-- Inside of a function body. -/
  returns : Bool := false
  /-- Inside of a decorator, where a bracket begins the next member. -/
  decorates : Bool := false
deriving Repr, Inhabited

/-- The first error that could not be passed. -/
structure Failure where
  error : Diagnostic
  /-- What was noted before it, the last one first. -/
  noted : List GrammarError
deriving Inhabited

structure State where
  source : List Char
  /-- The number of characters of the source. -/
  size : Nat
  token : Token
  /-- Where the current token starts. -/
  origin : Cursor
  /-- Where the text behind the current token starts. -/
  cursor : Cursor
  /-- Where the token before the current one ends. -/
  previousStop : Nat := 0
  context : Context := {}
  /-- Whether declarations of types are read. -/
  typed : Bool := false
  /-- The last one first. -/
  lexicalErrors : List LexicalError := []
  /-- The last one first. -/
  errors : List GrammarError := []
  failure : Option Failure := none
  /-- The comments before a token, by its start; the last one first. -/
  comments : List (Nat × List Comment) := []
  firstComment : Option Comment := none
  /-- Starts of members `a = b` of object literals that no assignment has taken over. -/
  initializers : List Nat := []
  /-- Starts of literals that end with a comma. -/
  trailingCommas : List Nat := []
  /-- Starts of parentheses that are known not to begin a function. -/
  notFunctions : List Nat := []
deriving Inhabited

/-! ## Parsers -/

namespace State

/-- Nothing was found wrong so far. -/
structure Clean (s : State) : Prop where
  lexicalErrors : s.lexicalErrors = []
  errors : s.errors = []
  failure : s.failure = none

/-- The way from one state to another one: the dialect stays, and what was found wrong, too. -/
structure Precedes (s s' : State) : Prop where
  typed : s'.typed = s.typed
  clean : s'.Clean → s.Clean

namespace Precedes

variable {s s' s'' : State}

theorem refl (s : State) : s.Precedes s := ⟨rfl, id⟩

theorem trans (h : s.Precedes s') (h' : s'.Precedes s'') : s.Precedes s'' :=
  ⟨h'.typed.trans h.typed, h.clean ∘ h'.clean⟩

/-- A step that finds nothing. -/
theorem of_same (htyped : s'.typed = s.typed) (hlexical : s'.lexicalErrors = s.lexicalErrors)
    (herrors : s'.errors = s.errors) (hfailure : s'.failure = s.failure) : s.Precedes s' :=
  ⟨htyped, fun h => ⟨hlexical ▸ h.lexicalErrors, herrors ▸ h.errors, hfailure ▸ h.failure⟩⟩

/-- A step that reads more text. -/
theorem of_read {found : List LexicalError} (htyped : s'.typed = s.typed)
    (hlexical : s'.lexicalErrors = found ++ s.lexicalErrors) (herrors : s'.errors = s.errors)
    (hfailure : s'.failure = s.failure) : s.Precedes s' :=
  ⟨htyped, fun h =>
    ⟨(List.append_eq_nil_iff.mp (hlexical ▸ h.lexicalErrors)).2, herrors ▸ h.errors,
      hfailure ▸ h.failure⟩⟩

end Precedes

end State

/-- A parser: it changes the state and always gives a result. -/
structure P (α : Type) where
  run : State → α × State
  precedes : ∀ s : State, s.Precedes (run s).2

namespace P

@[always_inline, inline]
protected def pure (a : α) : P α := ⟨fun s => (a, s), .refl⟩

@[always_inline, inline]
protected def bind (p : P α) (f : α → P β) : P β :=
  ⟨fun s =>
    let r := p.run s
    (f r.1).run r.2, fun s => (p.precedes s).trans ((f _).precedes _)⟩

instance : Monad P where
  pure := P.pure
  bind := P.bind

instance [Inhabited α] : Inhabited (P α) := ⟨pure default⟩

end P

/-- The current state. -/
def get : P State := ⟨fun s => (s, s), .refl⟩

/-- Changes the state. -/
def change (f : State → State) (h : ∀ s : State, s.Precedes (f s)) : P Unit :=
  ⟨fun s => ((), f s), h⟩

/-! ## Errors -/

/-- Keeps the first error that cannot be passed; behind the current token there is nothing left. -/
def State.fail (s : State) (e : Diagnostic) : State :=
  if s.failure.isSome then s
  else
    let textEnd : Cursor := ⟨[], s.size⟩
    { s with failure := some ⟨e, s.errors⟩, origin := textEnd, cursor := textEnd }

theorem State.failure_fail_ne_none (s : State) (e : Diagnostic) : (s.fail e).failure ≠ none := by
  unfold State.fail
  split
  · rename_i h
    exact Option.isSome_iff_ne_none.mp h
  · exact nofun

theorem State.typed_fail (s : State) (e : Diagnostic) : (s.fail e).typed = s.typed := by
  unfold State.fail
  split
  · rfl
  · rfl

/-- Behind a failure, the state is never clean. -/
theorem State.Precedes.of_fail {s s' : State} {e : Diagnostic} (htyped : s'.typed = s.typed) :
    s.Precedes (s'.fail e) :=
  ⟨(s'.typed_fail e).trans htyped, fun h => absurd h.failure (s'.failure_fail_ne_none e)⟩

/-- Cannot pass an error. -/
def stop [Inhabited α] (e : GrammarError) : P α := do
  change (fun s => s.fail (.grammar e)) fun _ => .of_fail rfl
  return default

def hasFailed : P Bool := return (← get).failure.isSome

/-- Notes an error and goes on. -/
def note (e : GrammarError) : P Unit :=
  change (fun s => { s with errors := e :: s.errors }) fun _ => ⟨rfl, fun h => nomatch h.errors⟩

/-- The marks that a merge leaves at the start of a line where both sides have changed it. -/
def mergeMarks : List (List Char) :=
  ['<', '=', '>', '|'].map (List.replicate 7)

/-- Whether such a mark stands at the current token. -/
def State.atMergeMark (s : State) : Bool :=
  (s.token.afterNewline || s.token.start == 0) &&
    mergeMarks.any fun m => m.isPrefixOf s.origin.rest

/-- Fails at the current token. Where the text has no token, the lexical error says more. -/
def State.refuse (s : State) : State :=
  match s.token.kind, s.lexicalErrors with
  | .eof, e :: rest | .invalid, e :: rest => { s with lexicalErrors := rest }.fail (.lexical e)
  | _, _ => s.fail (.grammar (if s.atMergeMark then .mergeMark else .unexpectedToken))

theorem State.precedes_refuse (s : State) : s.Precedes s.refuse := by
  unfold State.refuse
  split
  · exact .of_fail rfl
  · exact .of_fail rfl
  · exact .of_fail rfl

/-- Cannot pass the current token. -/
def unexpected [Inhabited α] : P α := do
  change State.refuse State.precedes_refuse
  return default

/-- Whether nothing more can be read: after a failure, at the end, and where no token is. -/
def State.isUsedUp (s : State) : Bool :=
  s.failure.isSome || s.token.kind == .eof || s.token.kind == .invalid

/-- Undoes everything when the parser fails, except what it found out about parentheses. -/
def attempt (p : P α) : P (Option α) :=
  ⟨fun s =>
    let r := p.run s
    if r.2.failure.isSome then (none, { s with notFunctions := r.2.notFunctions })
    else (some r.1, r.2), fun s => by
    dsimp only
    split
    · exact .of_same rfl rfl rfl rfl
    · exact p.precedes s⟩

/-- Looks ahead without moving. -/
def lookahead (p : P α) : P α := ⟨fun s => ((p.run s).1, s), .refl⟩

/-! ## Tokens -/

/-- Reads the next token with a given reader. -/
def State.nextBy (reader : Cursor → Lexer.TokenRead) (s : State) : State :=
  let opening := s.token.kind == .mark .leftParen || s.token.kind == .mark (.assign none)
  let trivia := Lexer.trivia s.cursor { sawNewline := false, afterOpening := opening } false
  let read := reader trivia.next
  let start := trivia.next.position
  let kept := trivia.trivia.kept
  { s with
    origin := trivia.next
    cursor := read.next
    previousStop := s.token.stop
    token :=
      { kind := read.kind
        start
        stop := read.next.position
        afterNewline := trivia.newline
        escaped := read.escaped
        pureMark := trivia.trivia.pureMark
        noSideEffects := trivia.trivia.noSideEffects }
    lexicalErrors := read.errors.reverse ++ trivia.errors.reverse ++ s.lexicalErrors
    comments := if kept.isEmpty then s.comments else (start, kept) :: s.comments
    firstComment := s.firstComment.or trivia.trivia.first }

theorem State.precedes_nextBy (reader : Cursor → Lexer.TokenRead) (s : State) :
    s.Precedes (s.nextBy reader) :=
  .of_read rfl rfl rfl rfl

/-- Goes on to the next token, with a given reader. -/
def advanceBy (reader : Cursor → Lexer.TokenRead) : P Unit :=
  change (State.nextBy reader) (State.precedes_nextBy reader)

/-- Goes on to the next token; the current one may be any name. -/
def advanceName : P Unit := advanceBy Lexer.token

/-- Goes on to the next token. A word of the language may not be spelled with escapes. -/
def advance : P Unit := do
  let token := (← get).token
  if token.escaped && token.kind.isReservedWord then note .escapedKeyword
  advanceName

/-- Reads the current token in another way. -/
def reread (read : Cursor → Lexer.TokenRead) : P Unit :=
  change (fun s =>
    let r := read s.origin
    { s with
      cursor := r.next
      token := { s.token with kind := r.kind, stop := r.next.position }
      lexicalErrors := r.errors.reverse ++ s.lexicalErrors }) fun _ => .of_read rfl rfl rfl rfl

def kind : P TokenKind := return (← get).token.kind

/-- Where the current token starts. -/
def here : P Nat := return (← get).token.start

/-- Whether a line ends before the current token. -/
def onNewLine : P Bool := return (← get).token.afterNewline

def atMark (m : Punctuator) : P Bool := return (← kind) == .mark m

def atKeyword (k : Keyword) : P Bool := return (← kind) == .keyword k

def atWord (w : String) : P Bool := return (← kind) == .word w

def isName : TokenKind → Bool
  | .word _ | .keyword _ => true
  | _ => false

def isLiteral : TokenKind → Bool
  | .number _ _ _ | .bigint _ _ | .string _ _ _ => true
  | _ => false

def isWord : TokenKind → Bool
  | .word _ => true
  | _ => false

def eat (m : Punctuator) : P Bool := do
  if ← atMark m then
    advance
    return true
  return false

def eatKeyword (k : Keyword) : P Bool := do
  if ← atKeyword k then
    advance
    return true
  return false

def eatWord (w : String) : P Bool := do
  if ← atWord w then
    advance
    return true
  return false

/-- Complains that another token stands here, and drops it. -/
def missing (wanted : String) : P Unit := do
  let s ← get
  stop (if s.atMergeMark then .mergeMark else .expected wanted s.token.kind.shown)
  advanceName

def expect (m : Punctuator) : P Unit := do
  unless ← eat m do missing m.text

def expectKeyword (k : Keyword) : P Unit := do
  unless ← eatKeyword k do missing k.text

def expectWord (w : String) : P Unit := do
  unless ← eatWord w do missing w

/-- Takes a closing angle bracket for a mark of its own, even if a longer mark begins with it. -/
def splitAngle : P Unit := do
  match ← kind with
  | .mark m =>
    if m.shown == ">" then reread fun c => ⟨.mark .greater, c.drop 1, false, []⟩
  | _ => pure ()

/-- Whether a semicolon may be left out here. -/
def semicolonImplied : P Bool := do
  let token := (← get).token
  return token.kind == .mark .semicolon || token.kind == .mark .rightBrace ||
    token.kind == .eof || token.kind == .invalid || token.afterNewline

/-- The semicolon at the end of a statement, which may be implied. -/
def finishStatement : P Unit := do
  unless ← eat .semicolon do
    unless ← semicolonImplied do stop .missingSemicolon

/-! ## Nodes and contexts -/

/-- A node from `start` to the end of the last token. -/
def node (start : Nat) (form : Form Node) : P Node := do
  return .mk ⟨start, (← get).previousStop⟩ form

def setContext (c : Context) : P Unit :=
  change (fun s => { s with context := c }) fun _ => .of_same rfl rfl rfl rfl

/-- Reads something in another context. -/
def within (inner : Context → Context) (p : P α) : P α := do
  let outer := (← get).context
  setContext (inner outer)
  let a ← p
  setContext outer
  return a

/-- The context in which `in` is an operator. -/
def Context.withIn (c : Context) : Context := { c with allowsIn := true }

/-- The context between brackets. -/
def Context.inside (c : Context) : Context := { c with allowsIn := true, decorates := false }

/-- A number of steps that no loop over the tokens exceeds. -/
def limit : P Nat := return (← get).size + 2

/-! ## Loops -/

/-- Repeats a step until it gives a result. -/
def iterate [Inhabited β] (step : α → P (α ⊕ β)) : (steps : Nat) → α → P β
  | 0, _ => unexpected
  | steps + 1, a => do
    match ← step a with
    | .inl a => iterate step steps a
    | .inr b => return b

/-- Whether a list ends here. -/
def listEnds (close : Punctuator) : P Bool := do
  let s ← get
  return s.isUsedUp || s.token.kind == .mark close

/-- Items up to a closing mark, which is not read. -/
def itemsUntil (close : Punctuator) (item : P α) : P (List α) := do
  let reversed ← iterate (fun taken => do
    if ← listEnds close then return .inr taken
    return .inl ((← item) :: taken)) (← limit) []
  return reversed.reverse

/-- Complains about what stands between two items. -/
def badSeparator (close : Punctuator) : P Unit := do
  let found := (← kind).shown
  stop (.expectedOneOf "," close.text found)

/-- Items with commas between them, up to a closing mark, which is not read; also tells whether a
comma stands at the end. -/
def delimited (close : Punctuator) (item : P α) : P (List α × Bool) := do
  if ← listEnds close then return ([], false)
  let first ← item
  let (reversed, trailing) ← iterate (fun taken => do
    if ← listEnds close then return .inr (taken, false)
    unless ← eat .comma do
      badSeparator close
      return .inr (taken, false)
    if ← atMark close then return .inr (taken, true)
    return .inl ((← item) :: taken)) (← limit) [first]
  return (reversed.reverse, trailing)

/-- Like `delimited`, for lists in which one item that starts with dots may stand, as the last
one. -/
def delimitedWithRest (close : Punctuator) (notLast : GrammarError) (item restItem : P α) :
    P (List α × Option α) := do
  let (reversed, rest) ← iterate (fun (taken, rest, first) => do
    if ← listEnds close then return .inr (taken, rest)
    unless first do
      unless ← eat .comma do
        badSeparator close
        return .inr (taken, rest)
      if ← atMark close then
        if rest.isSome then note .trailingCommaAfterRest
        return .inr (taken, rest)
    if rest.isSome then
      stop notLast
      return .inr (taken, rest)
    if ← atMark .ellipsis then
      let r ← restItem
      return .inl (taken, some r, false)
    return .inl ((← item) :: taken, rest, false)) (← limit) ([], none, true)
  return (reversed.reverse, rest)

/-- Something between two marks. -/
def between (opening closing : Punctuator) (p : P α) : P α := do
  expect opening
  let a ← p
  expect closing
  return a

end Awaitless.Script.Parser
