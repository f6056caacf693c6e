import Awaitless.Script.Comment
import Awaitless.Script.Lexer.Escape
import Awaitless.Script.Lexer.Number

/-!
# The next token

What a slash or a closing brace means depends on what the parser expects, so tokens are read one by
one.

* `Lexer.trivia` — skips white space and comments.
* `Lexer.token` — the token at a place.
* `Lexer.regex`, `Lexer.templateRest` — the token that a slash or a closing brace begins where the
  parser expects a value, or the rest of a template.
-/

namespace Awaitless.Script.Lexer

open Text

/-- A token with the place behind it and the complaints about it. -/
structure TokenRead where
  kind : TokenKind
  next : Cursor
  escaped : Bool := false
  errors : List LexicalError := []
deriving Inhabited

/-! ## Between tokens -/

/-- The length of a block comment behind its opening, with its end, if it has one. -/
def blockLength? : List Char → Nat → Option Nat
  | '*' :: '/' :: _, n => some (n + 2)
  | _ :: rest, n => blockLength? rest (n + 1)
  | [], _ => none

/-- The place of the next token, the comments before it, whether a line ends before it, and the
complaint about a comment without an end. -/
structure TriviaRead where
  next : Cursor
  trivia : Trivia
  newline : Bool
  errors : List LexicalError := []
deriving Inhabited

/-- The ends of lines that comments are told apart by. -/
def isPlainNewline (c : Char) : Bool := c == '\n' || c == '\r'

/-- Skips white space and comments; `skip` characters belong to a comment that was taken in. A block
comment has lines if a line has ended before it or in it. -/
def triviaFrom : (skip : Nat) → List Char → Nat → Trivia → Bool → TriviaRead
  | _, [], n, t, newline => ⟨⟨[], n⟩, t, newline, []⟩
  | skip + 1, _ :: rest, n, t, newline => triviaFrom skip rest (n + 1) t newline
  | 0, c :: rest, n, t, newline =>
    if isPlainNewline c then triviaFrom 0 rest (n + 1) t.newline true
    else if isNewline c then triviaFrom 0 rest (n + 1) t true
    else if isSpace c then triviaFrom 0 rest (n + 1) t newline
    else if c = '/' then
      match rest with
      | '/' :: _ =>
        let body := rest.takeWhile fun ch => !isNewline ch
        let t := t.add (String.ofList ('/' :: body)) false false
        triviaFrom body.length rest (n + 1) t newline
      | '*' :: more =>
        match blockLength? more 0 with
        | none =>
          ⟨⟨[], n + 1 + rest.length⟩, t, newline, [.unterminatedComment]⟩
        | some length =>
          let body := rest.take (length + 1)
          let hasLines := newline || body.any isPlainNewline
          triviaFrom (length + 1) rest (n + 1)
            (t.add (String.ofList ('/' :: body)) true hasLines) (newline || body.any isNewline)
      | _ => ⟨⟨c :: rest, n⟩, t, newline, []⟩
    else ⟨⟨c :: rest, n⟩, t, newline, []⟩

/-- Skips white space and comments; `newline` at the start of a line. -/
def trivia (c : Cursor) (t : Trivia) (newline : Bool) : TriviaRead :=
  triviaFrom 0 c.rest c.position t newline

/-! ## Names -/

/-- The length of digits behind `u` that form no character. -/
def wrongDigits (rest : List Char) : Nat :=
  match rest with
  | '{' :: inner => 1 + (inner.takeWhile (isDigitOf 16)).length
  | _ => ((rest.take 4).takeWhile (isDigitOf 16)).length

/-- The character that an escape in a name stands for, the length of the escape behind its
backslash, and the complaint about an escape that stands for no character of a name. -/
def nameEscape (isFirst : Bool) (text : List Char) : Option Char × Nat × List LexicalError :=
  match text with
  | 'u' :: more =>
    match readUnicode more with
    | ⟨[.scalar ch], length, _, true⟩ =>
      if length = 11 then (none, length, [.invalidUnicodeEscape])
      else if if isFirst then isIdentifierStart ch else isIdentifierPart ch then
        (some ch, length, [])
      else (none, length, [.unexpectedCharacter ch])
    | ⟨_, length, _, true⟩ => (none, length, [.invalidUnicodeEscape])
    | _ => (none, 1 + wrongDigits more, [.invalidUnicodeEscape])
  | _ => (none, min 1 text.length, [.invalidUnicodeEscape])

/-- The characters of a name, some of them behind escapes. -/
structure NameText where
  /-- The characters in reverse. -/
  reversed : List Char := []
  length : Nat := 0
  escaped : Bool := false
  /-- The last one first. -/
  errors : List LexicalError := []
deriving Inhabited

/-- Reads on in a name; `skip` characters belong to an escape that was read already. -/
def nameFrom : (skip : Nat) → List Char → NameText → NameText
  | _, [], n => n
  | skip + 1, _ :: rest, n => nameFrom skip rest { n with length := n.length + 1 }
  | 0, c :: rest, n =>
    if isIdentifierPart c then
      nameFrom 0 rest { n with reversed := c :: n.reversed, length := n.length + 1 }
    else if c = '\\' then
      let (ch, length, errors) := nameEscape (n.length = 0) rest
      nameFrom length rest
        { reversed := ch.toList ++ n.reversed
          length := n.length + 1
          escaped := true
          errors := errors ++ n.errors }
    else n

/-- The name at a place. -/
def name (c : Cursor) (make : String → TokenKind) : TokenRead :=
  let n := nameFrom 0 c.rest {}
  ⟨make (String.ofList n.reversed.reverse), c.drop n.length, n.escaped, n.errors.reverse⟩

/-- A name by itself: a keyword or a word. -/
def wordKind (text : String) : TokenKind :=
  match Keyword.ofText? text with
  | some k => .keyword k
  | none => .word text

/-! ## Quoted text -/

/-- The complaints about a text without an end. -/
def unterminated (q : QuotedText) : List LexicalError :=
  List.replicate (if q.openEscape then 2 else 1) .unterminatedString

/-- The string behind an opening quote. -/
def string (quote : Char) (c : Cursor) : TokenRead :=
  let inner := c.drop 1
  let q := readQuoted quote 0 inner.rest {}
  let wrong := List.replicate q.wrongEscapes .invalidEscape
  if q.closed then
    let raw := String.ofList (inner.rest.take q.length)
    ⟨.string q.value (q.flawOf raw) raw, inner.drop (q.length + 1), false, wrong⟩
  else ⟨.invalid, inner.drop q.length, false, wrong ++ unterminated q⟩

/-- The piece of a template behind a backtick or behind the brace that ends a value. -/
def templatePiece (atStart : Bool) (c : Cursor) : TokenRead :=
  let inner := c.drop 1
  let q := readTemplate 0 inner.rest {}
  let sound := q.wrongEscapes == 0
  if q.closed then
    let raw := String.ofList (normalizeNewlines (inner.rest.take q.length))
    let next := inner.drop q.length
    match next.rest with
    | '\x60' :: _ =>
      ⟨.template (if atStart then .whole else .tail) raw sound, next.drop 1, false, []⟩
    | _ => ⟨.template (if atStart then .head else .middle) raw sound, next.drop 2, false, []⟩
  else ⟨.invalid, inner.drop q.length, false, unterminated q⟩

/-- The rest of a template, at the brace that ends a value. -/
def templateRest (c : Cursor) : TokenRead := templatePiece false c

/-! ## Marks -/

/-- The longest mark at a place, with its length. -/
def mark? (rest : List Char) : Option (Punctuator × Nat) :=
  match rest with
  | '>' :: '>' :: '>' :: '=' :: _ => some (.assign (some .shiftRightZero), 4)
  | '>' :: '>' :: '>' :: _ => some (.shiftRightZero, 3)
  | '>' :: '>' :: '=' :: _ => some (.assign (some .shiftRight), 3)
  | '>' :: '>' :: _ => some (.shiftRight, 2)
  | '>' :: '=' :: _ => some (.greaterOrEqual, 2)
  | '>' :: _ => some (.greater, 1)
  | '<' :: '<' :: '=' :: _ => some (.assign (some .shiftLeft), 3)
  | '<' :: '<' :: _ => some (.shiftLeft, 2)
  | '<' :: '=' :: _ => some (.lessOrEqual, 2)
  | '<' :: _ => some (.less, 1)
  | '=' :: '=' :: '=' :: _ => some (.identical, 3)
  | '=' :: '=' :: _ => some (.equal, 2)
  | '=' :: '>' :: _ => some (.arrow, 2)
  | '=' :: _ => some (.assign none, 1)
  | '!' :: '=' :: '=' :: _ => some (.distinct, 3)
  | '!' :: '=' :: _ => some (.unequal, 2)
  | '!' :: _ => some (.bang, 1)
  | '*' :: '*' :: '=' :: _ => some (.assign (some .power), 3)
  | '*' :: '*' :: _ => some (.power, 2)
  | '*' :: '=' :: _ => some (.assign (some .multiply), 2)
  | '*' :: _ => some (.star, 1)
  | '&' :: '&' :: '=' :: _ => some (.assign (some .and), 3)
  | '&' :: '&' :: _ => some (.andAnd, 2)
  | '&' :: '=' :: _ => some (.assign (some .bitAnd), 2)
  | '&' :: _ => some (.and, 1)
  | '|' :: '|' :: '=' :: _ => some (.assign (some .or), 3)
  | '|' :: '|' :: _ => some (.orOr, 2)
  | '|' :: '=' :: _ => some (.assign (some .bitOr), 2)
  | '|' :: _ => some (.or, 1)
  | '?' :: '?' :: '=' :: _ => some (.assign (some .coalesce), 3)
  | '?' :: '?' :: _ => some (.coalesce, 2)
  | '?' :: '.' :: d :: _ => if isDigit d then some (.question, 1) else some (.questionDot, 2)
  | '?' :: '.' :: [] => some (.questionDot, 2)
  | '?' :: _ => some (.question, 1)
  | '+' :: '+' :: _ => some (.increment, 2)
  | '+' :: '=' :: _ => some (.assign (some .add), 2)
  | '+' :: _ => some (.plus, 1)
  | '-' :: '-' :: _ => some (.decrement, 2)
  | '-' :: '=' :: _ => some (.assign (some .subtract), 2)
  | '-' :: _ => some (.minus, 1)
  | '/' :: '=' :: _ => some (.assign (some .divide), 2)
  | '/' :: _ => some (.slash, 1)
  | '%' :: '=' :: _ => some (.assign (some .remainder), 2)
  | '%' :: _ => some (.percent, 1)
  | '^' :: '=' :: _ => some (.assign (some .bitXor), 2)
  | '^' :: _ => some (.xor, 1)
  | '.' :: '.' :: '.' :: _ => some (.ellipsis, 3)
  | '.' :: _ => some (.dot, 1)
  | '~' :: _ => some (.tilde, 1)
  | '(' :: _ => some (.leftParen, 1)
  | ')' :: _ => some (.rightParen, 1)
  | '[' :: _ => some (.leftBracket, 1)
  | ']' :: _ => some (.rightBracket, 1)
  | '{' :: _ => some (.leftBrace, 1)
  | '}' :: _ => some (.rightBrace, 1)
  | ';' :: _ => some (.semicolon, 1)
  | ',' :: _ => some (.comma, 1)
  | ':' :: _ => some (.colon, 1)
  | '@' :: _ => some (.at, 1)
  | _ => none

/-! ## Tokens -/

/-- The private name behind a number sign. -/
def privateName (c : Cursor) : TokenRead :=
  let inner := c.drop 1
  match inner.rest with
  | ch :: _ =>
    if isIdentifierStart ch || ch = '\\' then name inner .privateName
    else ⟨.invalid, inner.drop 1, false, [unexpectedAt inner]⟩
  | [] => ⟨.invalid, inner, false, [unexpectedAt inner]⟩

/-- The token at a place where no white space and no comment is. -/
def token (c : Cursor) : TokenRead :=
  match c.rest with
  | [] => ⟨.eof, c, false, []⟩
  | ch :: rest =>
    if isIdentifierStart ch || ch = '\\' then name c wordKind
    else if isDigit ch || (ch = '.' && rest.head?.any isDigit) then
      let r := readNumber c
      ⟨r.kind, r.next, false, r.errors⟩
    else if ch = '"' || ch = '\'' then string ch c
    else if ch = '\x60' then templatePiece true c
    else if ch = '#' then privateName c
    else
      match mark? c.rest with
      | some (p, length) => ⟨.mark p, c.drop length, false, []⟩
      | none => ⟨.invalid, c.drop 1, false, [unexpectedAt c]⟩

/-! ## Regular expressions -/

/-- The flags of regular expressions, in the order in which they are written out. -/
def regexFlags : List Char := ['d', 'g', 'i', 'm', 's', 'u', 'v', 'y']

/-- The complaints about some flags. -/
def flagErrors : (seen : List Char) → List Char → List LexicalError
  | _, [] => []
  | seen, f :: rest =>
    if !regexFlags.contains f then
      .unknownRegexFlag f :: flagErrors seen rest
    else if seen.contains f then
      .repeatedRegexFlag f :: flagErrors seen rest
    else flagErrors (f :: seen) rest

/-- The regular expression at a slash; a wrong one is empty. -/
def regex (c : Cursor) : TokenRead :=
  let inner := c.drop 1
  match regexLength? 0 false inner.rest 0 with
  | none => ⟨.regex "" "", inner, false, [.unterminatedRegex]⟩
  | some length =>
    let pattern := String.ofList (inner.rest.take length)
    let isFlag (ch : Char) : Bool := isAsciiLetter ch || isDigit ch || ch == '$' || ch == '_'
    let (flags, next) := (inner.drop (length + 1)).span isFlag
    match flagErrors [] flags with
    | [] =>
      ⟨.regex pattern (String.ofList (regexFlags.filter flags.contains)), next, false, []⟩
    | errors => ⟨.regex "" "", next, false, errors⟩

/-! ## Markup -/

/-- The value of an attribute. Between quotes stands everything but the quote itself. -/
def attributeValue (c : Cursor) : TokenRead :=
  match c.rest with
  | q :: rest =>
    if q = '"' || q = '\'' then
      let length := (rest.takeWhile (· != q)).length
      if length < rest.length then ⟨.string [] .sound "", c.drop (length + 2), false, []⟩
      else ⟨.invalid, c.drop (length + 1), false, [.unterminatedString]⟩
    else token c
  | [] => token c

/-- The bracket at a place behind a text. -/
def childStart (c : Cursor) : TokenRead :=
  match c.rest with
  | '<' :: _ => ⟨.mark .less, c.drop 1, false, []⟩
  | _ => token c

end Awaitless.Script.Lexer
