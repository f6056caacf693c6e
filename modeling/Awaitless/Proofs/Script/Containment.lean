import Awaitless.Proofs.Script.Rewriting

/-!
# Subtrees

That one tree stands in another one is a relation with no trace of the position. It can be decided
by listing all subtrees, and the results use it to say that something generated is really there, at
whatever depth the transformation has put it.

A rewriting from the leaves up keeps a subtree if it puts things around it only: the subtree is
still there, rewritten itself. This is the case for continuations, which wrap a call and keep it.

* `Node.Contains` — one tree stands in another one, at any depth; this can be computed.
* `Node.contains_bottomUp` — a rewriting that only adds around subtrees keeps all of them, rewritten
  themselves.
* `Make.contains_declareAs`, `Make.contains_arrow` and others — made syntax holds what it is made
  from.
-/

namespace Awaitless.Script

namespace Node

/-- The second tree stands in the first one, at any depth. -/
inductive Contains : Node → Node → Prop
  | self (n : Node) : Contains n n
  | part {n x y : Node} : x ∈ n.form.parts → Contains x y → Contains n y

variable {n x y : Node}

theorem Contains.trans (hxy : n.Contains x) (hyz : x.Contains y) : n.Contains y := by
  induction hxy with
  | self => exact hyz
  | part hmem _ ih => exact .part hmem (ih hyz)

/-- A part stands in its tree. -/
theorem contains_of_mem_parts (h : x ∈ n.form.parts) : n.Contains x := .part h (.self x)

/-- All trees that stand in a tree. -/
def subtrees (n : Node) : List Node :=
  n.para fun span form => mk span (form.map (·.1)) :: form.parts.flatMap (·.2)

/-- All subtrees: the tree itself, and those of its parts. -/
theorem subtrees_mk (span : Span) (form : Form Node) :
    (mk span form).subtrees = mk span form :: form.parts.flatMap subtrees := by
  rw [subtrees, para_mk, Form.map_map, Form.parts_map, List.flatMap_map]
  exact congrArg (mk span · :: _) (Form.map_id form)

/-- The list has every tree that stands in the tree, and no other. -/
theorem mem_subtrees_iff : x ∈ n.subtrees ↔ n.Contains x := by
  induction n using Node.induction with
  | step span form ih =>
    rw [subtrees_mk, List.mem_cons, List.mem_flatMap]
    constructor
    · rintro (rfl | ⟨y, hy, hx⟩)
      · exact .self _
      · exact .part hy ((ih y hy).mp hx)
    · intro h
      cases h with
      | self => exact .inl rfl
      | @part _ y _ hy h => exact .inr ⟨y, hy, (ih y hy).mpr h⟩

/-! ## Rewriting -/

/-- A rewriting that keeps what it is given keeps every subtree, rewritten itself. -/
theorem contains_bottomUp {f : Node → Node} (hf : ∀ n : Node, (f n).Contains n)
    (h : n.Contains x) : (n.bottomUp f).Contains (x.bottomUp f) := by
  induction h with
  | self n => exact .self _
  | @part n x y hmem _ ih =>
    obtain ⟨span, form⟩ := n
    rw [bottomUp_mk]
    refine (hf _).trans (.part ?_ ih)
    rw [form_mk, Form.parts_map]
    exact List.mem_map_of_mem hmem

end Node

/-! ## Made syntax -/

namespace Make

open Node

variable {x y : Node} {xs : List Node} {text : String}

theorem contains_call_callee : (call x xs).Contains x :=
  contains_of_mem_parts (List.mem_cons_self ..)

theorem contains_call_argument (h : x ∈ xs) : (call y xs).Contains x :=
  contains_of_mem_parts (List.mem_cons_of_mem _ h)

theorem contains_member : (member x text).Contains x :=
  contains_of_mem_parts (List.mem_singleton_self x)

theorem contains_statement : (statement x).Contains x :=
  contains_of_mem_parts (List.mem_singleton_self x)

theorem contains_immediately : (immediately x).Contains x :=
  contains_call_callee.trans (contains_of_mem_parts (List.mem_singleton_self x))

theorem contains_afterAll : (afterAll x y).Contains y :=
  contains_call_argument (List.mem_singleton_self y)

theorem contains_continued : (continued x text).Contains x :=
  contains_call_callee.trans contains_member

/-- The statements in the body of a function. -/
theorem contains_arrow {isAsync : Bool} {parameters : List String} (h : x ∈ xs) :
    (arrow isAsync parameters xs).Contains x := by
  refine (contains_of_mem_parts (List.mem_append_right _ (List.mem_singleton_self _))).trans ?_
  exact contains_of_mem_parts h

theorem contains_declareAs : (declareAs text x).Contains x := by
  refine (contains_of_mem_parts (List.mem_singleton_self _)).trans ?_
  exact contains_of_mem_parts (List.mem_cons_of_mem _ (List.mem_singleton_self x))

end Make

end Awaitless.Script
