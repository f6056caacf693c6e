import Awaitless.Proofs.Script.Calls
import Awaitless.Proofs.Script.Searching

/-!
# What the classifier finds

The classifier tells whether a module waits, or else whether it holds `import()`. Both are matters
of what stands in the statements, so that more statements never make a module less severe. It
searches for one after the other and stops early, which cannot be seen from its result
(`blockingOf_eq`). What is left is to compare the two searches with what they look for, node by
node.

For the second half, a module grows: statements are inserted in its own row, or in the row of any
block or function in it, at any depth. A search that looks at the parts of a form and at nothing
else only finds more in a tree that has grown, since every part is still there or has grown itself.

* `Node.IsWait`, `Node.IsImportCall` — the nodes that are looked for.
* `HasSeverity` — what a finding says about the statements.
* `Node.Grows`, `Grow` — statements are added to a module, at any depth.
* `blockingOf_hasSeverity` — the classifier finds what there is, wherever it stops, and no less when
  statements are added.
-/

namespace Awaitless.Script

/-! ## Findings -/

namespace Node

variable {n : Node}

/-- An `await`, a `for await` or an `await using`. -/
inductive IsWait (n : Node) : Prop
  | awaitValue (value : Node) : n.form = .awaitValue value → IsWait n
  | forAwait (head values body : Node) : n.form = .forOf true head values body → IsWait n
  | awaitUsing (ds : List Node) : n.form = .bindings .awaitedResource ds → IsWait n

/-- An `import()`. -/
def IsImportCall (n : Node) : Prop :=
  ∃ phase source options, n.form = .dynamicImport phase source options

/-- The forms that wait are `await`, `for await` and `await using`, and no others. -/
theorem isWait_iff : n.IsWait ↔ n.form.isWait = true := by
  constructor
  · rintro (⟨_, h⟩ | ⟨_, _, _, h⟩ | ⟨_, h⟩)
    · rw [h]
      rfl
    · rw [h]
      rfl
    · rw [h]
      rfl
  · intro h
    unfold Form.isWait at h
    split at h
    · exact .awaitValue _ ‹_›
    · cases h
      exact .forAwait _ _ _ ‹_›
    · cases beq_iff_eq.mp h
      exact .awaitUsing _ ‹_›
    · cases h

/-- The forms that import dynamically are calls of `import`. -/
theorem isImportCall_iff : n.IsImportCall ↔ n.form.isDynamicImport = true := by
  constructor
  · rintro ⟨_, _, _, h⟩
    rw [h]
    rfl
  · intro h
    unfold Form.isDynamicImport at h
    split at h
    · exact ⟨_, _, _, ‹_›⟩
    · cases h

end Node

/-- Evaluating the statements waits for something. Functions run later, and of a class only the
decorators and the heritage are looked at. -/
def Wait (statements : List Node) : Prop :=
  ∃ s ∈ statements, ∃ x, s.Evaluates false x ∧ x.IsWait

/-- The statements hold an `import()`, at any depth. -/
def HoldImportCall (statements : List Node) : Prop :=
  ∃ s ∈ statements, ∃ x, s.Contains x ∧ x.IsImportCall

/-- What a finding says about the statements. -/
def HasSeverity (statements : List Node) : Option Blocking → Prop
  | some .topLevelAwait => Wait statements
  | some .dynamicImport => ¬ Wait statements ∧ HoldImportCall statements
  | none => ¬ Wait statements ∧ ¬ HoldImportCall statements

/-- The statements wait if the search for this succeeds in one of them. -/
theorem wait_iff (statements : List Node) :
    Wait statements ↔ statements.any Node.waits = true := by
  rw [List.any_eq_true]
  refine exists_congr fun s => and_congr_right fun _ => ?_
  rw [Node.waits_iff]
  exact exists_congr fun x => and_congr_right fun _ => Node.isWait_iff

/-- The same for dynamic imports. -/
theorem holdImportCall_iff (statements : List Node) :
    HoldImportCall statements ↔ statements.any Node.importsDynamically = true := by
  rw [List.any_eq_true]
  refine exists_congr fun s => and_congr_right fun _ => ?_
  rw [Node.importsDynamically_iff]
  refine exists_congr fun x => ?_
  rw [Node.mem_calls_iff, Node.isImportCall_iff]

/-- Exactly one finding is right, and it is the one of the classifier. -/
theorem blockingOf_eq_iff {statements : List Node} {b : Option Blocking} :
    blockingOf statements = b ↔ HasSeverity statements b := by
  rw [blockingOf_eq]
  -- waiting is looked for first, and decides alone where it is found
  by_cases hwait : Wait statements
  · rw [if_pos ((wait_iff statements).mp hwait)]
    match b with
    | some .topLevelAwait => exact iff_of_true rfl hwait
    | some .dynamicImport => exact iff_of_false nofun fun h => h.1 hwait
    | none => exact iff_of_false nofun fun h => h.1 hwait
  · rw [if_neg (mt (wait_iff statements).mpr hwait)]
    by_cases hcall : HoldImportCall statements
    · rw [if_pos ((holdImportCall_iff statements).mp hcall)]
      match b with
      | some .topLevelAwait => exact iff_of_false nofun hwait
      | some .dynamicImport => exact iff_of_true rfl ⟨hwait, hcall⟩
      | none => exact iff_of_false nofun fun h => h.2 hcall
    · rw [if_neg (mt (holdImportCall_iff statements).mpr hcall)]
      match b with
      | some .topLevelAwait => exact iff_of_false nofun hwait
      | some .dynamicImport => exact iff_of_false nofun fun h => hcall h.2
      | none => exact iff_of_true rfl ⟨hwait, hcall⟩

/-! ## More statements -/

/-- A form with more statements in its list of statements, if it has one. -/
inductive Form.AddsTo {α : Type} : Form α → Form α → Prop
  | same (form : Form α) : AddsTo form form
  | block {xs ys : List α} : xs.Sublist ys → AddsTo (.block xs) (.block ys)
  | body (directives directives' : List Directive) {xs ys : List α} : xs.Sublist ys →
    AddsTo (.body directives xs) (.body directives' ys)
  | staticBlock {xs ys : List α} : xs.Sublist ys → AddsTo (.staticBlock xs) (.staticBlock ys)
  | switchCase (test : Option α) {xs ys : List α} : xs.Sublist ys →
    AddsTo (.switchCase test xs) (.switchCase test ys)

/-- The second tree is the first one with statements added, at any depth; its nodes may have moved.
-/
inductive Node.Grows : Node → Node → Prop
  | intro (span span' : Span) (parts : Form (Node × Node)) (form : Form Node) :
    (∀ p ∈ parts.parts, Grows p.1 p.2) → (parts.map (·.2)).AddsTo form →
    Grows (.mk span (parts.map (·.1))) (.mk span' form)

/-- The second row of statements is the first one with statements added, at any depth. -/
def Grow (statements more : List Node) : Prop :=
  ∃ grown, List.Forall₂ Node.Grows statements grown ∧ grown.Sublist more

namespace Search

/-- A search that finds no less where statements are added. -/
def Monotone (search : Search) : Prop :=
  ∀ {form form' : Form Node}, form.AddsTo form' →
    (search.finds form = true → search.finds form' = true) ∧
      search.visited form ⊆ search.visited form'

/-- What waits is looked for in the parts that are evaluated at once. -/
theorem monotone_waits : waits.Monotone := by
  rintro _ _ (⟨form⟩ | ⟨h⟩ | ⟨_, _, h⟩ | ⟨h⟩ | ⟨test, h⟩)
  · exact ⟨id, List.Subset.refl _⟩
  · exact ⟨id, h.subset⟩
  · exact ⟨id, h.subset⟩
  · exact ⟨id, h.subset⟩
  · exact ⟨id, (h.append_left test.toList).subset⟩

/-- Dynamic imports are looked for in all parts. -/
theorem monotone_dynamicImports : dynamicImports.Monotone := by
  rintro _ _ (⟨form⟩ | ⟨h⟩ | ⟨_, _, h⟩ | ⟨h⟩ | ⟨test, h⟩)
  · exact ⟨id, List.Subset.refl _⟩
  · exact ⟨id, h.subset⟩
  · exact ⟨id, h.subset⟩
  · exact ⟨id, h.subset⟩
  · exact ⟨id, (h.append_left test.toList).subset⟩

variable {search : Search} {n m : Node} {statements more : List Node}

/-- What is found in a tree is found where statements are added to it. -/
theorem Monotone.holds (hsearch : search.Monotone) (h : n.Grows m) (hn : search.holds n = true) :
    search.holds m = true := by
  induction h with
  | intro _ _ parts form _ hadds ih =>
    obtain ⟨hfinds, hvisited⟩ := hsearch hadds
    rw [search.finds_map] at hfinds
    rw [search.visited_map] at hvisited
    rw [holds_mk, search.finds_map, search.visited_map, Bool.or_eq_true, List.any_eq_true] at hn
    rw [holds_mk, Bool.or_eq_true, List.any_eq_true]
    rcases hn with hn | ⟨_, hmem, hx⟩
    · exact .inl (hfinds hn)
    · obtain ⟨p, hp, rfl⟩ := List.mem_map.mp hmem
      exact .inr ⟨p.2, hvisited (List.mem_map_of_mem hp), ih p (search.visited_subset parts hp) hx⟩

/-- A row that has grown holds what it held before. -/
theorem Monotone.any_holds (hsearch : search.Monotone) (h : Grow statements more)
    (hany : statements.any search.holds = true) : more.any search.holds = true := by
  obtain ⟨grown, hgrown, hmore⟩ := h
  have hgrownAny : grown.any search.holds = true := by
    clear hmore
    induction hgrown with
    | nil => exact hany
    | cons hs _ ih =>
      rw [List.any_cons, Bool.or_eq_true] at hany ⊢
      exact hany.imp (hsearch.holds hs) ih
  obtain ⟨s, hs, hholds⟩ := List.any_eq_true.mp hgrownAny
  exact List.any_eq_true.mpr ⟨s, hmore.subset hs, hholds⟩

end Search

/-- More statements do not make a module less severe. -/
theorem Grow.worse_blockingOf {statements more : List Node} (h : Grow statements more) :
    Blocking.worse (blockingOf statements) (blockingOf more) = blockingOf more := by
  have hwaits : statements.any Node.waits = true → more.any Node.waits = true :=
    Search.monotone_waits.any_holds h
  have hcalls : statements.any Node.importsDynamically = true →
      more.any Node.importsDynamically = true :=
    Search.monotone_dynamicImports.any_holds h
  -- by what the fewer statements hold, the most severe first
  rw [blockingOf_eq, blockingOf_eq]
  split
  · rename_i hfound
    rw [if_pos (hwaits hfound)]
    rfl
  · split
    · rename_i hfound
      rw [if_pos (hcalls hfound)]
      split <;> rfl
    · split
      · rfl
      · split <;> rfl

/-- The classifier says what there is in the statements of a module. Where its searches stop when
they are over does not matter, and it never finds less when statements are added, at any depth. -/
theorem blockingOf_hasSeverity (statements : List Node) :
    (∀ b, blockingOf statements = b ↔ HasSeverity statements b) ∧
    (∀ stops, blockingBy stops statements = blockingOf statements) ∧
    ∀ more, Grow statements more →
      Blocking.worse (blockingOf statements) (blockingOf more) = blockingOf more :=
  ⟨fun _ => blockingOf_eq_iff, fun stops => (blockingBy_eq stops statements).trans
    (blockingOf_eq statements).symm, fun _ h => h.worse_blockingOf⟩

/-- A module that waits in a block, and one with a statement more in this block. -/
theorem blockingOf_hasSeverity_block :
    ∃ statements more : List Node, Grow statements more ∧ HasSeverity statements none ∧
      HasSeverity more (some .topLevelAwait) ∧
        Blocking.worse (blockingOf statements) (blockingOf more) = blockingOf more := by
  let block : Node := .made (.block [])
  let waiting : Node := .made (.block [Make.statement (Make.wait (Make.name "x"))])
  let added : Node := Make.importNamed ⟨Text.Units.ofString "a.js", .sound⟩ []
  have hgrows : block.Grows waiting :=
    .intro .nowhere .nowhere (.block []) _ nofun (.block (List.nil_sublist _))
  have hgrow : Grow [block] [added, waiting] :=
    ⟨[waiting], .cons hgrows .nil, List.sublist_cons_self added [waiting]⟩
  exact ⟨_, _, hgrow, ((blockingOf_hasSeverity _).1 none).mp rfl,
    ((blockingOf_hasSeverity _).1 _).mp rfl, (blockingOf_hasSeverity [block]).2.2 _ hgrow⟩

end Awaitless.Script
