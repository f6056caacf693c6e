import Awaitless.Bundle.Blocking
import Awaitless.Script.NodeLaws

/-!
# What a module waits for

* `Node.waits` — whether evaluating a node waits: functions run later, and of a class only the
  decorators and the heritage are looked at.
* `Node.importsDynamically` — whether a node holds `import()` at any depth.
* `Search`, `Search.visit` — looking for one of both, node by node, until something is found.
* `blockingOf` — the most severe of both in a row of statements.
-/

namespace Awaitless.Script

/-! ## Forms -/

namespace Form

/-- Whether a form itself waits. -/
def isWait : Form α → Bool
  | awaitValue _ => true
  | forOf awaits _ _ _ => awaits
  | bindings kind _ => kind == .awaitedResource
  | _ => false

/-- The parts that are evaluated together with the form. -/
def immediateParts : Form α → List α
  | function _ _ _ _ | arrow _ _ _ => []
  | classLike _ decorators _ heritage _ => decorators ++ heritage.toList
  | other => other.parts

/-- Whether a form is `import()`. -/
def isDynamicImport : Form α → Bool
  | dynamicImport _ _ _ => true
  | _ => false

/-- Whether a form is an expression, a statement or an item, and not just a piece of one. -/
def standsAlone : Form α → Bool
  | privateName _ | hole | property _ _ _ _ | method _ _ _ _ | spread _ | body _ _
  | classMethod _ _ _ _ _ _ | classField _ _ _ _ _ | staticBlock _ | objectPattern _ _
  | arrayPattern _ _ | patternProperty _ _ _ _ | defaulted _ _ | rest _ | annotated _ _
  | handler _ _ | switchCase _ _ | declarator _ _ => false
  | _ => true

variable (f : α → β) (form : Form α)

/-- Whether a form waits does not depend on its parts. -/
theorem isWait_map : (form.map f).isWait = form.isWait := by
  cases form <;> rfl

/-- The parts that are evaluated with a form are those of the mapped form. -/
theorem immediateParts_map : (form.map f).immediateParts = form.immediateParts.map f := by
  have hparts := parts_map f form
  cases form with
  | function | arrow => rfl
  | classLike traits decorators name heritage members =>
    show decorators.map f ++ (heritage.map f).toList = (decorators ++ heritage.toList).map f
    rw [Option.toList_map, List.map_append]
  | _ => exact hparts

theorem isDynamicImport_map : (form.map f).isDynamicImport = form.isDynamicImport := by
  cases form <;> rfl

variable {form} {x : α}

/-- What is evaluated at once is a part. -/
theorem mem_parts_of_mem_immediateParts (h : x ∈ form.immediateParts) : x ∈ form.parts := by
  unfold immediateParts at h
  split at h
  · cases h
  · cases h
  · rcases List.mem_append.mp h with h | h
    · simp [parts, h]
    · simp [parts, Option.mem_toList.mp h]
  · exact h

end Form

/-! ## Trees -/

/-- Whether evaluating a node waits. -/
def Node.waits : Node → Bool :=
  fold fun _ form => form.isWait || form.immediateParts.any id

/-- Whether a node holds `import()`, at any depth. -/
def Node.importsDynamically : Node → Bool :=
  fold fun _ form => form.isDynamicImport || form.parts.any id

/-! ## Searching -/

/-- A search through trees: what it looks for, and which parts of a form it visits. -/
structure Search where
  finds : {α : Type} → Form α → Bool
  visited : {α : Type} → Form α → List α
  finds_map : ∀ {α β : Type} (f : α → β) (form : Form α), finds (form.map f) = finds form
  visited_map : ∀ {α β : Type} (f : α → β) (form : Form α),
    visited (form.map f) = (visited form).map f
  visited_subset : ∀ {α : Type} (form : Form α), visited form ⊆ form.parts

namespace Search

/-- Looks for what waits, in all that is evaluated together with a node. -/
def waits : Search where
  finds := Form.isWait
  visited := Form.immediateParts
  finds_map := Form.isWait_map
  visited_map := Form.immediateParts_map
  visited_subset _ _ := Form.mem_parts_of_mem_immediateParts

/-- Looks for `import()`, in everything. -/
def dynamicImports : Search where
  finds := Form.isDynamicImport
  visited := Form.parts
  finds_map := Form.isDynamicImport_map
  visited_map := Form.parts_map
  visited_subset _ _ := id

variable (search : Search) (stops : Node → Bool)

/-- Whether something is found once a node has been visited. When something was found before, the
node is not entered if the search stops there; if it does not, whatever else is found changes
nothing. Parts of what is found are not visited. -/
def visit : Node → (found : Bool) → Bool :=
  Node.para fun span form found =>
    if found && stops (.mk span (form.map (·.1))) then true
    else search.finds form || (search.visited form).foldl (fun found x => x.2 found) found

/-- Whether something is found in some statements, which are visited one after the other. -/
def succeeds (statements : List Node) : Bool :=
  statements.foldl (fun found s => search.visit stops s found) false

end Search

/-- The most severe blocking construct of some statements, by two searches that stop at the given
nodes when they are over. -/
def blockingBy (stops : Node → Bool) (statements : List Node) : Option Blocking :=
  if Search.waits.succeeds stops statements then some .topLevelAwait
  else if Search.dynamicImports.succeeds stops statements then some .dynamicImport
  else none

/-- The most severe blocking construct of some statements. The searches stop at expressions and
statements. -/
def blockingOf (statements : List Node) : Option Blocking :=
  blockingBy (·.form.standsAlone) statements

end Awaitless.Script
