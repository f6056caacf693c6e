import Awaitless.Proofs.Script.Containment
import Awaitless.Script.Waiting
import Mathlib.Data.List.Basic

/-!
# The dynamic imports of a tree

A dynamic import can stand anywhere, also in functions, so all subtrees count and not only those
that are evaluated. They are listed in the order of the text, with repetitions: the transformation
may neither lose a call nor make one twice, and only a list shows both.

Made syntax holds the calls of what it is made from, in order, and none of its own. These equations
are for simplification, so that the calls of a transformed module compute to those of its pieces.

* `Node.calls` — the dynamic imports that stand in a tree, in order.
* `Node.importsDynamically_iff` — the classifier asks whether there is one.
* `Make.calls_assign` and others — made syntax holds the calls of what it is made from.
-/

namespace Awaitless.Script

namespace Node

variable {n x : Node}

/-- The dynamic imports that stand in a tree, in order. -/
def calls (n : Node) : List Node :=
  n.subtrees.filter (·.form.isDynamicImport)

/-- The calls of a tree are its subtrees that are calls. -/
theorem mem_calls_iff : x ∈ n.calls ↔ n.Contains x ∧ x.form.isDynamicImport = true := by
  rw [calls, List.mem_filter, mem_subtrees_iff]

/-- A call stands before those in its own argument. -/
theorem calls_mk (span : Span) (form : Form Node) :
    (mk span form).calls =
      (if form.isDynamicImport then [mk span form] else []) ++ form.parts.flatMap calls := by
  rw [calls, subtrees_mk, List.filter_cons, List.filter_flatMap, form_mk]
  split
  · rfl
  · rfl

/-- Other trees hold the calls of their parts. -/
theorem calls_of_form {form : Form Node} (hform : n.form = form)
    (h : form.isDynamicImport = false) : n.calls = form.parts.flatMap calls := by
  obtain ⟨span, _⟩ := n
  rw [form_mk] at hform
  rw [hform, calls_mk, h]
  rfl

/-- One step of the classifier. -/
theorem importsDynamically_mk (span : Span) (form : Form Node) :
    (mk span form).importsDynamically =
      (form.isDynamicImport || form.parts.any importsDynamically) := by
  rw [importsDynamically, fold_mk, ← importsDynamically, Form.isDynamicImport_map, Form.parts_map,
    List.any_map]
  rfl

/-- The classifier finds a call if there is one. -/
theorem importsDynamically_iff : n.importsDynamically = true ↔ ∃ x, x ∈ n.calls := by
  induction n using Node.induction with
  | step span form ih =>
    rw [importsDynamically_mk, calls_mk, Bool.or_eq_true, List.any_eq_true]
    simp only [List.mem_append, exists_or, List.mem_flatMap]
    refine or_congr ?_ ?_
    · split
      · rename_i h
        exact iff_of_true h ⟨_, List.mem_singleton_self _⟩
      · rename_i h
        exact iff_of_false h fun ⟨x, hx⟩ => List.not_mem_nil hx
    · rw [exists_comm]
      simp only [exists_and_left]
      exact exists_congr fun x => and_congr_right (ih x)

theorem calls_eq_nil (h : n.importsDynamically = false) : n.calls = [] := by
  refine List.eq_nil_iff_forall_not_mem.mpr fun x hx => ?_
  rw [importsDynamically_iff.mpr ⟨x, hx⟩] at h
  cases h

end Node

/-! ## Made syntax -/

namespace Make

variable {x y : Node} {xs : List Node} {text : String}

@[simp] theorem calls_name : (name text).calls = [] := rfl

@[simp] theorem calls_statement : (statement x).calls = x.calls := by
  rw [statement, Node.made, Node.calls_of_form rfl rfl]
  exact List.flatMap_singleton ..

/-- Target and value keep their order. -/
@[simp] theorem calls_assign : (assign x y).calls = x.calls ++ y.calls := by
  have hassignment : (Node.made (.assign none x y)).calls = x.calls ++ y.calls := by
    rw [Node.made, Node.calls_of_form rfl rfl]
    simp [Form.parts]
  have hparenthesized : ∀ z, (Node.made (.parenthesized z)).calls = z.calls := by
    intro z
    rw [Node.made, Node.calls_of_form rfl rfl]
    exact List.flatMap_singleton ..
  rw [assign, calls_statement]
  split
  · rw [hparenthesized, hassignment]
  · exact hassignment

@[simp] theorem calls_declareAs : (declareAs text x).calls = x.calls := by
  have hdeclarator : (declarator text (some x)).calls = x.calls := by
    rw [declarator, Node.made, Node.calls_of_form rfl rfl]
    simp [Form.parts]
  rw [declareAs, Node.made, Node.calls_of_form rfl rfl]
  exact (List.flatMap_singleton ..).trans hdeclarator

@[simp] theorem calls_member : (member x text).calls = x.calls := by
  rw [member, Node.made, Node.calls_of_form rfl rfl]
  exact List.flatMap_singleton ..

@[simp] theorem calls_call : (call x xs).calls = x.calls ++ xs.flatMap Node.calls := by
  rw [call, Node.made, Node.calls_of_form rfl rfl]
  rfl

/-- Calls are found in functions, though nothing of them is evaluated there. -/
@[simp] theorem calls_arrow : (arrow true [] xs).calls = xs.flatMap Node.calls := by
  have hbody : (Node.made (.body [] xs)).calls = xs.flatMap Node.calls := by
    rw [Node.made, Node.calls_of_form rfl rfl]
    rfl
  rw [arrow, Node.made, Node.calls_of_form rfl rfl]
  exact (List.flatMap_singleton ..).trans hbody

@[simp] theorem calls_immediately : (immediately x).calls = x.calls := by
  have hparenthesized : (Node.made (.parenthesized x)).calls = x.calls := by
    rw [Node.made, Node.calls_of_form rfl rfl]
    exact List.flatMap_singleton ..
  rw [immediately, calls_call, hparenthesized]
  exact List.append_nil _

@[simp] theorem calls_array : (array xs).calls = xs.flatMap Node.calls := by
  rw [array, Node.made, Node.calls_of_form rfl rfl]
  rfl

/-- Reading a promise calls nothing. -/
@[simp] theorem calls_guardedRead : (guardedRead text).calls = [] :=
  Node.calls_eq_nil rfl

@[simp] theorem calls_afterAll : (afterAll x y).calls = x.calls ++ y.calls := by
  simp [afterAll]

/-- A continuation adds no calls. -/
@[simp] theorem calls_continued : (continued x text).calls = x.calls := by
  have hhandler : (arrow true ["m"] [statement (wait (member (name "m") text)),
      returns (name "m")]).calls = [] := Node.calls_eq_nil rfl
  rw [continued, calls_call, calls_member, List.flatMap_singleton, hhandler, List.append_nil]

/-- Declarations without values hold nothing. -/
theorem calls_declare? (names : List String) : (declare? names).toList.flatMap Node.calls = [] := by
  unfold declare?
  split
  · rfl
  · rw [Option.toList_some, List.flatMap_singleton, Node.made, Node.calls_of_form rfl rfl,
      List.flatMap_eq_nil_iff]
    exact List.forall_mem_map.mpr fun name _ => rfl

end Make

end Awaitless.Script
