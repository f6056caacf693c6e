import Awaitless.Script.Parser.Identifier

/-!
# What the rules of the grammar ask each other for

The rules are written over a parser for all goals, so that each stands for itself; the parser is
tied together where all of them are known.

* `Goal` — the goals that occur inside of other rules.
-/

namespace Awaitless.Script.Parser

/-- The goals that occur inside of other rules. -/
inductive Goal where
  /-- A statement or a declaration; `single` where a declaration has no scope of its own. -/
  | statement (single : Bool)
  | expression
  | assignment
  /-- An operand that binds tighter than `above`. -/
  | operand (above : Precedence)
  | unary
  /-- Accesses and calls. -/
  | leftHandSide
  /-- Accesses without calls. -/
  | access
  | pattern
  /-- A pattern, perhaps with a default. -/
  | element
  /-- A type, of which nothing but its place is kept. -/
  | type
deriving Repr, DecidableEq, Inhabited

/-- A parser for every goal. -/
abbrev Rules := Goal → P Node

end Awaitless.Script.Parser
