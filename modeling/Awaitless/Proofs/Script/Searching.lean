import Awaitless.Script.Waiting

/-!
# Searches do not depend on where they stop

A search carries along whether something has been found. Where it stops once something has been
found is a matter of time only: from then on its answer cannot change, since a visit never takes a
finding back. So the places at which a search may stop are a parameter here, and every result holds
for all of them. By induction on the tree, a visit adds to what was found before whether there is
something to find in the tree, and nothing else.

* `Search.holds` — whether there is something to find in a tree.
* `Search.visit_eq` — this is what a visit of the tree adds to what was found before.
* `blockingBy_eq`, `blockingOf_eq` — so the classifier asks for both findings in turn.
-/

namespace Awaitless.Script

namespace Search

variable (search : Search) (stops : Node → Bool)

/-- Whether there is something to find in a tree. -/
def holds : Node → Bool :=
  Node.fold fun _ form => search.finds form || (search.visited form).any id

/-- A tree holds a finding if its form is one, or if a part that is visited holds one. -/
theorem holds_mk (span : Span) (form : Form Node) :
    search.holds (.mk span form) =
      (search.finds form || (search.visited form).any search.holds) := by
  rw [holds, Node.fold_mk, search.finds_map, search.visited_map, List.any_map]
  rfl

/-- A visit goes through the parts in order, and hands what it has found from one to the next. -/
theorem visit_mk (span : Span) (form : Form Node) (found : Bool) :
    search.visit stops (.mk span form) found =
      if found && stops (.mk span form) then true
      else search.finds form ||
        (search.visited form).foldl (fun found x => search.visit stops x found) found := by
  have htree : (form.map fun x => (x, search.visit stops x)).map (·.1) = form := by
    rw [Form.map_map]
    exact Form.map_id form
  rw [visit, Node.para_mk, ← visit, htree, search.finds_map, search.visited_map, List.foldl_map]

/-- Visits add up. -/
theorem foldl_visit_eq {xs : List Node}
    (h : ∀ x ∈ xs, ∀ found, search.visit stops x found = (found || search.holds x)) (found : Bool) :
    xs.foldl (fun found x => search.visit stops x found) found =
      (found || xs.any search.holds) := by
  induction xs generalizing found with
  | nil => exact (Bool.or_false found).symm
  | cons x xs ih =>
    obtain ⟨hx, hxs⟩ := List.forall_mem_cons.mp h
    rw [List.foldl_cons, hx, ih hxs, List.any_cons, Bool.or_assoc]

/-- A visit finds what there is to find, wherever the search stops afterwards. -/
theorem visit_eq (n : Node) (found : Bool) :
    search.visit stops n found = (found || search.holds n) := by
  induction n using Node.induction generalizing found with
  | step span form ih =>
    have hparts := search.foldl_visit_eq stops fun x hx => ih x (search.visited_subset form hx)
    rw [visit_mk, holds_mk, hparts]
    cases found with
    | true =>
      -- what has been found stays found, whether the node is entered or not
      split
      · rfl
      · rw [Bool.true_or, Bool.true_or, Bool.or_true]
    | false => rfl

/-- A search succeeds if one of the statements holds a finding. -/
theorem succeeds_eq (statements : List Node) :
    search.succeeds stops statements = statements.any search.holds :=
  search.foldl_visit_eq stops (fun x _ => search.visit_eq stops x) false

end Search

/-- Wherever its searches stop, the classifier asks for both findings in turn. -/
theorem blockingBy_eq (stops : Node → Bool) (statements : List Node) :
    blockingBy stops statements =
      if statements.any Node.waits then some .topLevelAwait
      else if statements.any Node.importsDynamically then some .dynamicImport
      else none := by
  rw [blockingBy, Search.succeeds_eq, Search.succeeds_eq]
  rfl

/-- The classifier asks for the more severe finding first. -/
theorem blockingOf_eq (statements : List Node) :
    blockingOf statements =
      if statements.any Node.waits then some .topLevelAwait
      else if statements.any Node.importsDynamically then some .dynamicImport
      else none :=
  blockingBy_eq _ statements

end Awaitless.Script
