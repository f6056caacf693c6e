import Awaitless.Script.EarlyErrors.Setting
import Awaitless.Script.Scope

/-!
# What is found on the way through a tree

* `Findings`, `M` — the scopes that are open, and the rules that were broken so far.
* `declare`, `hoist` — declarations of names, reported where they clash.
* `checkBinding`, `checkReference` — names that are bound, and names that are used.
-/

namespace Awaitless.Script.EarlyErrors

/-! ## Scopes and errors -/

/-- The scopes and private names of the classes that are open, and what was found so far. -/
structure Findings where
  scopes : Scopes := .module
  /-- The private names that are used in the classes around. -/
  privateUses : List (List String) := []
  /-- The last one first. -/
  errors : List EarlyError := []
  /-- Errors that are reported behind all others; the last one first. -/
  late : List EarlyError := []
deriving Inhabited

abbrev M := StateM Findings

/-- A check of a node in its setting. -/
abbrev Check := Setting → M Unit

def report (e : EarlyError) : M Unit := modify fun f => { f with errors := e :: f.errors }

/-- Checks something in a scope of its own. -/
def inScope (kind : ScopeKind) (m : M Unit) : M Unit := do
  modify fun f => { f with scopes := f.scopes.enter kind }
  m
  modify fun f => { f with scopes := f.scopes.leave }

/-- Reports a binding as declared once more. -/
def reportRepeated (i : Nat) : M Unit := do
  report (.redeclared ((← get).scopes.name i))

/-- Keeps what a declaration comes to; its binding is the answer. -/
def settle (d : Scopes.Declared × Scopes) : M Nat := do
  modify fun f => { f with scopes := d.2 }
  if d.1.clashes then reportRepeated d.1.binding
  return d.1.binding

def declare (claim : Claim) (name : String) : M Nat := do
  settle ((← get).scopes.declare claim name)

def hoist (name : String) : M Nat := do
  settle ((← get).scopes.hoist name)

/-- A function may repeat variables and functions only at the top of a function. -/
def checkRepeatedFunction (i : Nat) : M Unit := do
  let scopes := (← get).scopes
  match scopes.previous? i with
  | none | some .lexical => pure ()
  | some .variable | some .parameter | some .function =>
    if scopes.innermost != .function then reportRepeated i
  | some _ => reportRepeated i

/-- A class may not repeat a function. -/
def checkRepeatedClass (i : Nat) : M Unit := do
  if (← get).scopes.previous? i == some .function then reportRepeated i

/-- In a block, a `var` may not repeat a function. -/
def checkRepeatedVariable (i : Nat) : M Unit := do
  let scopes := (← get).scopes
  match scopes.innermost with
  | .root | .function => pure ()
  | _ => if scopes.previous? i == some .function then reportRepeated i

/-! ## Names -/

/-- Words that strict code reserves. -/
def strictWords : List String :=
  ["implements", "interface", "let", "package", "private", "protected", "public", "static",
    "yield", "await"]

/-- A name that strict code cannot give to anything. -/
def isRestricted (name : String) : Bool := name == "eval" || name == "arguments"

/-- A name that is bound. -/
def checkBinding (name : String) : M Unit := do
  if strictWords.contains name then report (.reservedWord name)
  else if isRestricted name then report (.assignedRestricted name)

/-- A name that is used or assigned. -/
def checkReference (name : String) (s : Setting) : M Unit := do
  if strictWords.contains name then report (.reservedWord name)
  else if isRestricted name && (s.inTarget || s.assigned.contains name) then
    report (.assignedRestricted name)
  else if name == "arguments" then
    match s.argumentsBan with
    | some e => report e
    | none => pure ()

/-- A label, which is no name of a value. -/
def checkLabel (name : String) : M Unit := do
  if strictWords.contains name then report (.reservedWord name)

def checkFlaw : LiteralFlaw → M Unit
  | .sound => pure ()
  | .octal => report .octalLiteral
  | .leadingZero => report .leadingZero
  | .decimalEscape => report .decimalEscape

end Awaitless.Script.EarlyErrors
