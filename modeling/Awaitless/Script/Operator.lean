/-!
# Operators of the language

The operators that expressions are built with, how tightly each one binds, and how it is written.

* `UnaryOperator`, `UpdateOperator`, `BinaryOperator`, `AssignmentOperator` — the operators.
* `Precedence` — the ladder of binding strengths; a tighter form has the larger number.
-/

namespace Awaitless.Script

/-! ## Binding strength -/

/-- How tightly a form of expression holds its parts together. -/
abbrev Precedence := Nat

namespace Precedence

def lowest : Precedence := 0
def comma : Precedence := 1
def yields : Precedence := 3
def assignment : Precedence := 4
def conditional : Precedence := 5
def coalescing : Precedence := 6
def disjunction : Precedence := 7
def conjunction : Precedence := 8
def bitOr : Precedence := 9
def bitXor : Precedence := 10
def bitAnd : Precedence := 11
def equality : Precedence := 12
def comparison : Precedence := 13
def shift : Precedence := 14
def additive : Precedence := 15
def multiplicative : Precedence := 16
def power : Precedence := 17
def unary : Precedence := 18
def postfixed : Precedence := 19
def construction : Precedence := 20
def call : Precedence := 21

end Precedence

/-! ## Operators on one operand -/

/-- An operator written before its only operand. -/
inductive UnaryOperator where
  | minus
  | plus
  | negation
  | complement
  | typeOf
  | voidOf
  | delete
deriving Repr, DecidableEq, Inhabited

/-- The written form of the operator. -/
def UnaryOperator.text : UnaryOperator → String
  | .minus => "-"
  | .plus => "+"
  | .negation => "!"
  | .complement => "~"
  | .typeOf => "typeof"
  | .voidOf => "void"
  | .delete => "delete"

/-- Whether the operator is written as a word. -/
def UnaryOperator.isWord : UnaryOperator → Bool
  | .typeOf | .voidOf | .delete => true
  | _ => false

/-- An operator that changes its operand by one. -/
inductive UpdateOperator where
  | increment
  | decrement
deriving Repr, DecidableEq, Inhabited

/-- The written form of the operator. -/
def UpdateOperator.text : UpdateOperator → String
  | .increment => "++"
  | .decrement => "--"

/-! ## Operators on two operands -/

/-- An operator between two operands. -/
inductive BinaryOperator where
  | coalesce
  | or
  | and
  | bitOr
  | bitXor
  | bitAnd
  | equal
  | unequal
  | identical
  | distinct
  | less
  | lessOrEqual
  | greater
  | greaterOrEqual
  | instanceOf
  | inside
  | shiftLeft
  | shiftRight
  | shiftRightZero
  | add
  | subtract
  | multiply
  | divide
  | remainder
  | power
deriving Repr, DecidableEq, Inhabited

namespace BinaryOperator

/-- The written form of the operator. -/
def text : BinaryOperator → String
  | .coalesce => "??"
  | .or => "||"
  | .and => "&&"
  | .bitOr => "|"
  | .bitXor => "^"
  | .bitAnd => "&"
  | .equal => "=="
  | .unequal => "!="
  | .identical => "==="
  | .distinct => "!=="
  | .less => "<"
  | .lessOrEqual => "<="
  | .greater => ">"
  | .greaterOrEqual => ">="
  | .instanceOf => "instanceof"
  | .inside => "in"
  | .shiftLeft => "<<"
  | .shiftRight => ">>"
  | .shiftRightZero => ">>>"
  | .add => "+"
  | .subtract => "-"
  | .multiply => "*"
  | .divide => "/"
  | .remainder => "%"
  | .power => "**"

/-- The binding strength of the operator. -/
def precedence : BinaryOperator → Precedence
  | .coalesce => .coalescing
  | .or => .disjunction
  | .and => .conjunction
  | .bitOr => .bitOr
  | .bitXor => .bitXor
  | .bitAnd => .bitAnd
  | .equal | .unequal | .identical | .distinct => .equality
  | .less | .lessOrEqual | .greater | .greaterOrEqual | .instanceOf | .inside => .comparison
  | .shiftLeft | .shiftRight | .shiftRightZero => .shift
  | .add | .subtract => .additive
  | .multiply | .divide | .remainder => .multiplicative
  | .power => .power

/-- The short-circuiting operators. -/
def isLogical : BinaryOperator → Bool
  | .coalesce | .or | .and => true
  | _ => false

/-- Whether the operator is written as a word. -/
def isWord : BinaryOperator → Bool
  | .instanceOf | .inside => true
  | _ => false

/-- Only the power operator groups to the right. -/
def groupsRight : BinaryOperator → Bool
  | .power => true
  | _ => false

/-- Whether a right operand of equal strength needs parentheses. The short-circuiting operators
are associative, so regrouping them changes nothing. -/
def groupsLeft (op : BinaryOperator) : Bool :=
  !op.groupsRight && !op.isLogical

end BinaryOperator

/-! ## Assignment -/

/-- `none` writes the value, `some op` first combines it with the old one. -/
abbrev AssignmentOperator := Option BinaryOperator

/-- The written form of the operator. -/
def AssignmentOperator.text : AssignmentOperator → String
  | none => "="
  | some op => op.text ++ "="

end Awaitless.Script
