import Awaitless.Script.Node

/-!
# Tokens

* `Keyword`, `Punctuator` — the fixed words and marks of the language.
* `TokenKind`, `Token` — a piece of the source with its place.
* `TokenKind.shown` — how a token appears in a message.
-/

namespace Awaitless.Script

open Decimal Text

/-- The words that can never be identifiers. -/
inductive Keyword where
  | break | case | catch | «class» | const | continue | debugger | default | delete | do | else
  | enum | export | extends | false | finally | for | function | if | import | in | instanceof
  | new | null | return | super | switch | this | throw | true | try | typeof | var | void
  | while | with
deriving Repr, DecidableEq, Inhabited

namespace Keyword

def text : Keyword → String
  | .break => "break" | .case => "case" | .catch => "catch" | .class => "class"
  | .const => "const" | .continue => "continue" | .debugger => "debugger"
  | .default => "default" | .delete => "delete" | .do => "do" | .else => "else"
  | .enum => "enum" | .export => "export" | .extends => "extends" | .false => "false"
  | .finally => "finally" | .for => "for" | .function => "function" | .if => "if"
  | .import => "import" | .in => "in" | .instanceof => "instanceof" | .new => "new"
  | .null => "null" | .return => "return" | .super => "super" | .switch => "switch"
  | .this => "this" | .throw => "throw" | .true => "true" | .try => "try"
  | .typeof => "typeof" | .var => "var" | .void => "void" | .while => "while" | .with => "with"

def all : List Keyword :=
  [.break, .case, .catch, .class, .const, .continue, .debugger, .default, .delete, .do, .else,
    .enum, .export, .extends, .false, .finally, .for, .function, .if, .import, .in, .instanceof,
    .new, .null, .return, .super, .switch, .this, .throw, .true, .try, .typeof, .var, .void,
    .while, .with]

/-- The keyword with the given spelling. -/
def ofText? (text : String) : Option Keyword :=
  all.find? fun k => k.text == text

end Keyword

/-- Words that have a meaning in some places and are identifiers elsewhere; messages show them as
they are. -/
def contextualWords : List String :=
  ["abstract", "accessor", "any", "as", "assert", "asserts", "async", "await", "bigint", "boolean",
    "constructor", "declare", "defer", "from", "get", "global", "implements", "infer", "interface",
    "intrinsic", "is", "keyof", "let", "meta", "module", "namespace", "never",
    "number", "object", "of", "out", "override", "package", "private", "protected", "public",
    "readonly", "require", "satisfies", "set", "source", "static", "string", "symbol", "target",
    "type", "undefined", "unique", "unknown", "using", "yield"]

/-- The marks of the language. -/
inductive Punctuator where
  | leftBrace | rightBrace | leftParen | rightParen | leftBracket | rightBracket
  | dot | ellipsis | semicolon | comma | colon | question | questionDot | arrow | at
  | less | greater | lessOrEqual | greaterOrEqual
  | equal | unequal | identical | distinct
  | plus | minus | star | slash | percent | power | increment | decrement
  | shiftLeft | shiftRight | shiftRightZero
  | and | or | xor | bang | tilde | andAnd | orOr | coalesce
  | assign (op : Option BinaryOperator)
deriving Repr, DecidableEq, Inhabited

namespace Punctuator

def text : Punctuator → String
  | .leftBrace => "\x7b" | .rightBrace => "\x7d" | .leftParen => "(" | .rightParen => ")"
  | .leftBracket => "[" | .rightBracket => "]" | .dot => "." | .ellipsis => "..."
  | .semicolon => ";" | .comma => "," | .colon => ":" | .question => "?" | .questionDot => "?."
  | .arrow => "=>" | .at => "@" | .less => "<" | .greater => ">" | .lessOrEqual => "<="
  | .greaterOrEqual => ">=" | .equal => "==" | .unequal => "!=" | .identical => "==="
  | .distinct => "!==" | .plus => "+" | .minus => "-" | .star => "*" | .slash => "/"
  | .percent => "%" | .power => "**" | .increment => "++" | .decrement => "--"
  | .shiftLeft => "<<" | .shiftRight => ">>" | .shiftRightZero => ">>>" | .and => "&"
  | .or => "|" | .xor => "^" | .bang => "!" | .tilde => "~" | .andAnd => "&&" | .orOr => "||"
  | .coalesce => "??" | .assign op => AssignmentOperator.text op

/-- The operator between two operands that the mark stands for. -/
def binary? : Punctuator → Option BinaryOperator
  | .coalesce => some .coalesce | .orOr => some .or | .andAnd => some .and
  | .or => some .bitOr | .xor => some .bitXor | .and => some .bitAnd
  | .equal => some .equal | .unequal => some .unequal | .identical => some .identical
  | .distinct => some .distinct | .less => some .less | .lessOrEqual => some .lessOrEqual
  | .greater => some .greater | .greaterOrEqual => some .greaterOrEqual
  | .shiftLeft => some .shiftLeft | .shiftRight => some .shiftRight
  | .shiftRightZero => some .shiftRightZero | .plus => some .add | .minus => some .subtract
  | .star => some .multiply | .slash => some .divide | .percent => some .remainder
  | .power => some .power
  | _ => none

end Punctuator

/-- How a number is written. -/
inductive NumberClass where
  | decimal
  /-- With a point or an exponent. -/
  | fraction
  | hexadecimal
  | octal
  | binary
deriving Repr, DecidableEq, Inhabited

/-- How a number of the class appears in a message. -/
def NumberClass.shown : NumberClass → String
  | decimal => "decimal"
  | fraction => "float"
  | hexadecimal => "hex"
  | octal => "octal"
  | binary => "binary"

/-- The pieces of a template between its values. -/
inductive TemplatePiece where
  | whole
  | head
  | middle
  | tail
deriving Repr, DecidableEq, Inhabited

/-- What a piece of source text is. -/
inductive TokenKind where
  | eof
  /-- No token of the language; an error tells why. -/
  | invalid
  | word (name : String)
  | keyword (k : Keyword)
  | privateName (name : String)
  | mark (p : Punctuator)
  | number (value : Binary64) (flaw : LiteralFlaw) (form : NumberClass)
  | bigint (value : Nat) (form : NumberClass)
  | string (value : Units) (flaw : LiteralFlaw) (raw : String)
  | template (piece : TemplatePiece) (text : String) (sound : Bool)
  | regex (pattern flags : String)
deriving Repr, DecidableEq, Inhabited

/-- Whether the token is a word with a meaning of its own. -/
def TokenKind.isReservedWord : TokenKind → Bool
  | .keyword _ => true
  | .word name => contextualWords.contains name
  | _ => false

/-- How a mark appears in a message. What starts with `>` is seen as that mark alone, because it
may close several angle brackets. -/
def Punctuator.shown (p : Punctuator) : String :=
  if p.text.startsWith ">" then ">" else p.text

/-- How the token appears in a message. -/
def TokenKind.shown : TokenKind → String
  | .eof => "EOF"
  | .invalid => "Unknown"
  | .word name => if contextualWords.contains name then name else "Identifier"
  | .keyword k => k.text
  | .privateName _ => "#identifier"
  | .mark p => p.shown
  | .number _ _ form => form.shown
  | .bigint _ form => form.shown ++ " bigint"
  | .string _ _ _ => "string"
  | .template .whole _ _ => "$\x7b\x7d"
  | .template .head _ _ => "$\x7b"
  | .template .middle _ _ => "$\x7bexpr\x7d"
  | .template .tail _ _ => "\x7d"
  | .regex _ _ => "/regexp/"

/-- A piece of source text. -/
structure Token where
  kind : TokenKind
  start : Nat
  stop : Nat
  /-- Whether a line ends between the token before it and the token. -/
  afterNewline : Bool
  /-- Whether a name is spelled with escapes. -/
  escaped : Bool := false
  /-- The comment before it marks a call as free of side effects. -/
  pureMark : Bool := false
  /-- The comment before it marks a function as free of side effects. -/
  noSideEffects : Bool := false
deriving Repr, DecidableEq, Inhabited

end Awaitless.Script
