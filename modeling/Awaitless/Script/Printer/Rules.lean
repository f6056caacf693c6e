import Awaitless.Script.Printer.Literal

/-!
# What the rules of the printer ask each other for

* `Place` — where an expression stands: how tightly it is held, and what is not allowed there.
* `Piece`, `Rules` — a piece of a tree with its place, and a printer for every piece.
-/

namespace Awaitless.Script.Printer

/-- Where an expression stands. -/
structure Place extends Bans where
  /-- Forms that bind no tighter than this need parentheses. -/
  level : Precedence
deriving Repr, Inhabited

namespace Place

/-- A place where nothing but a comma needs parentheses. -/
def item : Place := { level := .comma }

/-- A place where nothing needs parentheses. -/
def alone : Place := { level := .lowest }

/-- The same surroundings at another level. -/
def withLevel (p : Place) (level : Precedence) : Place := { p with level }

end Place

/-- A piece of a tree with its place. -/
inductive Piece where
  | statement (n : Node)
  | expression (n : Node) (place : Place)
  /-- A pattern, a parameter or the target of an assignment. -/
  | pattern (n : Node)

/-- A printer for every piece. -/
abbrev Rules := Piece → W Unit

/-- An item of a list under the bans that hold here. -/
def itemHere : W Place :=
  return { toBans := (← get).bans, level := .comma }

end Awaitless.Script.Printer
