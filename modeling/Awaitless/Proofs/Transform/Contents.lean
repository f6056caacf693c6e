import Awaitless.Proofs.Transform.Pieces

/-!
# Dynamic imports stay in a module

Taking a module apart and putting its statements into a closure drops nothing but the word `export`
and declarators without a value, and adds names and declarations without a value. None of these
holds a dynamic import. So the calls of the closure are the calls of the module, in the same order
and as often, before any of them gets its continuation.

Both halves go by the inversion lemmas for one step, and by induction over the row. The shape of
declarations is carried along in the same way, because what becomes of a declaration depends on it.

* `Node.Leaves`, `Items.exists_leaves` — the pieces of a module are what its items leave.
* `Items.calls_ofStatements` — they hold exactly its dynamic imports, in order.
* `Items.declarators_of_ofStatements` — they declare variables as the grammar has it.
* `Body.calls_ofStatements` — the closure holds exactly the dynamic imports of the pieces, in order.
-/

namespace Awaitless

open Script

/-! ## What is left of an item -/

theorem Transform.Items.isConstrained_of_ownName? {value : Node} {name : String}
    (h : ownName? value = some name) : value.form.isConstrained = false := by
  unfold ownName? at h
  split at h
  · rename_i hform
    rw [hform]
    rfl
  · rename_i hform
    rw [hform]
    rfl
  · cases h

/-- What is left of an item in the body of the module: a statement, the declaration behind `export`
or the value behind `export default`, which gets a name if it has none. -/
inductive Script.Node.Leaves (n : Node) : Node → Prop
  | statement : n.isStatement = true → Leaves n n
  | exported (d : Node) : n.form = .exportDeclaration d → Leaves n d
  | default (value : Node) (name : String) : n.form = .exportDefault value →
    Transform.Items.ownName? value = some name → Leaves n value
  | named (value : Node) (name : String) : n.form = .exportDefault value →
    Leaves n (Make.declareAs name value)

/-- Whatever is left of an item declares variables as the grammar has it. -/
theorem Script.Node.Leaves.declarators {n s : Node} (h : n.Leaves s) (hn : n.IsItem) :
    ∀ d ∈ s.declarators, d.IsDeclarator := by
  cases h with
  | statement _ => exact hn.declarators
  | exported d hform => exact (hn.exported _ hform).declarators
  | default value name _ hname =>
    rw [declarators_of_form (Transform.Items.isConstrained_of_ownName? hname)]
    exact nofun
  | named value name _ =>
    exact List.forall_mem_singleton.mpr ⟨_, some value, rfl, ⟨.name rfl, rfl⟩, nofun⟩

namespace Transform

variable {moduleName : String}

/-! ## Items -/

namespace Items

variable {items items' : Items} {s : Node}

/-- One more item brings its calls. -/
theorem calls_add (h : add moduleName items s = .ok items') :
    items'.statements.flatMap Node.calls = items.statements.flatMap Node.calls ++ s.calls := by
  have hnothing : s.calls = [] → items.statements.flatMap Node.calls =
      items.statements.flatMap Node.calls ++ s.calls := by
    intro hs
    rw [hs, List.append_nil]
  have hpiece : ∀ x : Node, x.calls = s.calls → (items.statements ++ [x]).flatMap Node.calls =
      items.statements.flatMap Node.calls ++ s.calls := by
    intro x hx
    rw [List.flatMap_append, List.flatMap_singleton, hx]
  -- an item leaves nothing and holds no call, or it leaves what holds its calls
  cases becomes_of_add h with
  | importItem d hform => exact hnothing (Node.calls_of_form hform rfl)
  | exportNames specifiers hform => exact hnothing (Node.calls_of_form hform rfl)
  | exportDeclaration d names hform _ =>
    refine hpiece d ?_
    rw [Node.calls_of_form hform rfl]
    exact (List.flatMap_singleton ..).symm
  | namedDefault value name hform _ =>
    refine hpiece value ?_
    rw [Node.calls_of_form hform rfl]
    exact (List.flatMap_singleton ..).symm
  | unnamedDefault value hform _ =>
    refine hpiece _ ?_
    rw [Node.calls_of_form hform rfl, Make.calls_declareAs]
    exact (List.flatMap_singleton ..).symm
  | statement _ => exact hpiece s rfl

/-- The pieces of a module hold its dynamic imports, in order. -/
theorem calls_ofStatements {source : String} {statements : List Node}
    (h : ofStatements moduleName source statements = .ok items) :
    items.statements.flatMap Node.calls = statements.flatMap Node.calls := by
  refine foldlM_eq_ok_induction (fun seen items =>
    items.statements.flatMap Node.calls = seen.flatMap Node.calls) ?_ [] rfl h
  intro seen items s items' ih hadd
  rw [calls_add hadd, ih, List.flatMap_append, List.flatMap_singleton]

/-- One more item brings what is left of it. -/
theorem leaves_of_add (h : add moduleName items s = .ok items') {y : Node}
    (hy : y ∈ items'.statements) : y ∈ items.statements ∨ s.Leaves y := by
  have hpiece : ∀ x : Node, s.Leaves x → y ∈ items.statements ++ [x] →
      y ∈ items.statements ∨ s.Leaves y := by
    intro x hx hy
    rcases List.mem_append.mp hy with hy | hy
    · exact .inl hy
    · rw [List.mem_singleton.mp hy]
      exact .inr hx
  cases becomes_of_add h with
  | importItem _ _ | exportNames _ _ => exact .inl hy
  | exportDeclaration d names hform _ => exact hpiece d (.exported d hform) hy
  | namedDefault value name hform hname => exact hpiece value (.default value name hform hname) hy
  | unnamedDefault value hform _ => exact hpiece _ (.named value _ hform) hy
  | statement hs => exact hpiece s (.statement hs) hy

/-- The pieces of a module are what its items leave. -/
theorem exists_leaves {source : String} {statements : List Node}
    (h : ofStatements moduleName source statements = .ok items) :
    ∀ y ∈ items.statements, ∃ n ∈ statements, n.Leaves y := by
  refine foldlM_eq_ok_induction (fun seen items => ∀ y ∈ items.statements, ∃ n ∈ seen, n.Leaves y)
    ?_ [] nofun h
  intro seen items s items' ih hadd y hy
  rcases leaves_of_add hadd hy with hy | hy
  · obtain ⟨n, hn, hleaves⟩ := ih y hy
    exact ⟨n, List.mem_append_left _ hn, hleaves⟩
  · exact ⟨s, List.mem_append_right _ (List.mem_singleton_self s), hy⟩

/-- The pieces of a module declare variables as the grammar has it. -/
theorem declarators_of_ofStatements {source : String} {statements : List Node}
    (hitems : ∀ s ∈ statements, s.IsItem)
    (h : ofStatements moduleName source statements = .ok items) :
    ∀ y ∈ items.statements, ∀ d ∈ y.declarators, d.IsDeclarator := by
  intro y hy
  obtain ⟨n, hn, hleaves⟩ := exists_leaves h y hy
  exact hleaves.declarators (hitems n hn)

end Items

/-! ## The body of the closure -/

namespace Body

variable {exported : List String} {s d : Node} {ds xs : List Node}

/-- A declarator that holds a dynamic import has a value, so it turns into an assignment. -/
theorem calls_assignment? {assignment : Option Node} (hd : d.IsDeclarator)
    (h : assignment? moduleName d = .ok assignment) :
    assignment.toList.flatMap Node.calls = d.calls := by
  obtain ⟨pattern, value, hform, hpattern, hvalue⟩ := hd
  rw [assignment?_eq hform hpattern] at h
  cases h
  rw [Node.calls_of_form hform rfl]
  cases value with
  | none =>
    -- a plain name holds no calls
    obtain ⟨name, hname⟩ := hvalue rfl
    have hpattern : pattern.calls = [] := Node.calls_of_form hname rfl
    simp [Form.parts, hpattern]
  | some value => simp [Form.parts, Node.calls_withRole]

/-- Assignments keep the calls of their declarators, in order. -/
theorem calls_splitVariables (hds : ∀ d ∈ ds, d.IsDeclarator)
    (h : splitVariables moduleName exported ds = .ok xs) :
    xs.flatMap Node.calls = ds.flatMap Node.calls := by
  obtain ⟨assignments, hassignments, h⟩ := exists_of_bind_eq_ok h
  cases h
  have hvalues : (assignments.filterMap id).flatMap Node.calls =
      assignments.flatMap fun a => a.toList.flatMap Node.calls := by
    rw [List.filterMap_eq_flatMap_toList, List.flatMap_assoc]
    rfl
  rw [List.flatMap_append, Make.calls_declare?, List.nil_append, hvalues]
  refine flatMap_eq_of_mapM_eq_ok hassignments fun d hd a ha => ?_
  exact calls_assignment? (hds d hd) ha

/-- By what becomes of the statement. -/
theorem calls_ofStatement (hs : ∀ d ∈ s.declarators, d.IsDeclarator)
    (h : ofStatement moduleName exported s = .ok xs) : xs.flatMap Node.calls = s.calls := by
  cases becomes_of_ofStatement h with
  | split kind ds xs hform _ hsplit =>
    rw [Node.declarators, hform] at hs
    rw [calls_splitVariables hs hsplit, Node.calls_of_form hform rfl]
    rfl
  | assigned name _ _ =>
    rw [List.flatMap_singleton, Make.calls_assign, Make.calls_name, List.nil_append]
  | kept _ _ => exact List.flatMap_singleton ..

/-- The closure holds the dynamic imports of the pieces of a module, in order. -/
theorem calls_ofStatements {statements body : List Node}
    (hs : ∀ s ∈ statements, ∀ d ∈ s.declarators, d.IsDeclarator)
    (h : ofStatements moduleName exported statements = .ok body) :
    body.flatMap Node.calls = statements.flatMap Node.calls := by
  obtain ⟨lists, hlists, rfl⟩ := exists_of_map_eq_ok h
  rw [← List.flatMap_id, List.flatMap_assoc]
  exact flatMap_eq_of_mapM_eq_ok hlists fun s hmem xs hxs => calls_ofStatement (hs s hmem) hxs

end Body

/-- The closure holds the dynamic imports of the module, in order. -/
theorem calls_body {source : String} {statements body : List Node} {items : Items}
    {exported : List String} (hstatements : ∀ s ∈ statements, s.IsItem)
    (hitems : Items.ofStatements moduleName source statements = .ok items)
    (hbody : Body.ofStatements moduleName exported items.statements = .ok body) :
    body.flatMap Node.calls = statements.flatMap Node.calls := by
  rw [Body.calls_ofStatements (Items.declarators_of_ofStatements hstatements hitems) hbody,
    Items.calls_ofStatements hitems]

end Transform

end Awaitless
