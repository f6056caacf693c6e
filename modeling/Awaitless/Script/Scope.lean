/-!
# Scopes

What a name is declared as, and where it may not be declared again. A name can be declared more
than once, and a `var` belongs to scopes that it only passes through; so scopes hold places in a
table of bindings, which remember their declarations.

* `Claim`, `Claim.excludes` — the sorts of declarations, and those that exclude each other.
* `Scopes.declare` — a declaration for the innermost scope.
* `Scopes.hoist` — a declaration for the innermost function.
* `Scopes.previous?` — what a binding was declared as before its last declaration.
-/

namespace Awaitless.Script

/-- The sorts of declarations. -/
inductive Claim where
  /-- `var`, or a `catch` with a plain name. -/
  | variable
  | parameter
  /-- `let`, `const`, `using`, or a `catch` with a pattern. -/
  | lexical
  | classLike
  | function
  | imported
deriving Repr, DecidableEq, Inhabited

/-- The earlier declarations that a declaration does not bear. Imports exclude imports only. -/
def Claim.excluded : Claim → List Claim
  | .variable => [.lexical, .classLike]
  | .parameter | .classLike => [.variable, .parameter, .lexical, .classLike]
  | .lexical => [.variable, .parameter, .lexical, .classLike, .function]
  | .function => [.lexical]
  | .imported => [.imported]

/-- Whether a declaration excludes an earlier one of the same name. -/
def Claim.excludes (new old : Claim) : Bool := new.excluded.contains old

/-- What is known of a declared name. -/
structure Binding where
  name : String
  /-- What later declarations have to respect. -/
  claims : List Claim
  /-- All declarations of the name, the last one first. -/
  history : List Claim
deriving Repr, Inhabited

/-- Where `var` declarations go. -/
inductive ScopeKind where
  | root
  | function
  | staticBlock
  | block
deriving Repr, DecidableEq, Inhabited

/-- A scope. Names are looked up in both lists; a binding is told by its place in a table. -/
structure Scope where
  kind : ScopeKind
  /-- The names that the scope declares. -/
  names : List (String × Nat) := []
  /-- The names of the `var` declarations that pass through on their way to the function. -/
  passing : List (String × Nat) := []
deriving Repr, Inhabited

/-- The binding of a name in a scope. -/
def Scope.find? (s : Scope) (name : String) : Option Nat :=
  s.names.lookup name <|> s.passing.lookup name

def Scope.add (s : Scope) (name : String) (i : Nat) : Scope :=
  { s with names := (name, i) :: s.names }

/-- Adds a name that has no declaration in the scope. -/
def Scope.addMissing (s : Scope) (name : String) (i : Nat) : Scope :=
  if (s.names.lookup name).isSome then s else s.add name i

def Scope.addPassing (s : Scope) (name : String) (i : Nat) : Scope :=
  { s with passing := (name, i) :: s.passing }

/-- The scopes around a place with all bindings so far. -/
structure Scopes where
  /-- The innermost first. -/
  chain : List Scope
  bindings : Array Binding
deriving Repr, Inhabited

namespace Scopes

/-- The scope of a module without declarations. -/
def module : Scopes := ⟨[{ kind := .root }], #[]⟩

def enter (kind : ScopeKind) (s : Scopes) : Scopes := { s with chain := { kind } :: s.chain }

def leave (s : Scopes) : Scopes := { s with chain := s.chain.tail }

/-- The kind of the innermost scope. -/
def innermost (s : Scopes) : ScopeKind := (s.chain.head?.map (·.kind)).getD .root

/-- Whether a declaration excludes one that a binding has. -/
def clashes (s : Scopes) (i : Nat) (claim : Claim) : Bool :=
  ((s.bindings[i]?.map (·.claims)).getD []).any claim.excludes

/-- What a declaration comes to: the binding of its name, and whether it clashes with another
declaration. -/
structure Declared where
  binding : Nat
  clashes : Bool
deriving Repr, DecidableEq, Inhabited

/-- A declaration for the scope at a depth. -/
def declareAt (depth : Nat) (claim : Claim) (name : String) (s : Scopes) : Declared × Scopes :=
  match (s.chain[depth]?).bind (·.find? name) with
  | some i =>
    (⟨i, s.clashes i claim⟩,
      { s with
        bindings := s.bindings.modify i fun b =>
          { b with claims := claim :: b.claims, history := claim :: b.history } })
  | none =>
    let i := s.bindings.size
    (⟨i, false⟩,
      { chain := s.chain.modify depth (·.add name i)
        bindings := s.bindings.push { name, claims := [claim], history := [claim] } })

/-- A declaration for the innermost scope. -/
def declare (claim : Claim) (name : String) (s : Scopes) : Declared × Scopes :=
  s.declareAt 0 claim name

/-- How many scopes are between a place and the innermost function. -/
def functionDepth (s : Scopes) : Nat := (s.chain.takeWhile (·.kind == .block)).length

/-- A declaration by `var` of a binding of a scope that the declaration passes. It leaves what the
binding claims. -/
def reuse (i : Nat) (s : Scopes) : Declared × Scopes :=
  (⟨i, s.clashes i .variable⟩,
    { s with
      bindings := s.bindings.modify i fun b => { b with history := .variable :: b.history } })

/-- A declaration by `var` for the scope at a depth. A scope on the way that knows the name lends
its binding. -/
def declareFrom (depth : Nat) (name : String) (s : Scopes) : Declared × Scopes :=
  match (s.chain.take depth).findSome? (·.find? name) with
  | some i => s.reuse i
  | none => s.declareAt depth .variable name

/-- A declaration for the innermost function, which the scopes on the way take note of. -/
def hoist (name : String) (s : Scopes) : Declared × Scopes :=
  let depth := s.functionDepth
  let d := s.declareFrom depth name
  let passed := (d.2.chain.take depth).map (·.addPassing name d.1.binding)
  let others := (d.2.chain.drop depth).modify 0 (·.addMissing name d.1.binding)
  (d.1, { d.2 with chain := passed ++ others })

/-- What a binding was declared as before its last declaration. -/
def previous? (s : Scopes) (i : Nat) : Option Claim := s.bindings[i]?.bind (·.history[1]?)

/-- The name of a binding. -/
def name (s : Scopes) (i : Nat) : String := (s.bindings[i]?.map (·.name)).getD ""

/-- Whether the outermost scope declares a name. -/
def declaredAtRoot (s : Scopes) (name : String) : Bool :=
  match s.chain.getLast? with
  | some root => (root.names.lookup name).isSome
  | none => false

/-! ## Declarations keep the scopes -/

@[simp] theorem length_chain_declareAt (depth : Nat) (claim : Claim) (name : String)
    (s : Scopes) : (s.declareAt depth claim name).2.chain.length = s.chain.length := by
  unfold declareAt
  split <;> simp

@[simp] theorem length_chain_declareFrom (depth : Nat) (name : String) (s : Scopes) :
    (s.declareFrom depth name).2.chain.length = s.chain.length := by
  unfold declareFrom
  split
  · rfl
  · exact length_chain_declareAt depth .variable name s

end Scopes

end Awaitless.Script
