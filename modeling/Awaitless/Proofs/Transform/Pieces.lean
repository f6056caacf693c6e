import Awaitless.Proofs.Failure
import Awaitless.Proofs.Script.Targets

/-!
# The pieces of a module

Two functions take a module apart: one goes through its items and notes imports, exports and what is
left of each item; the other goes through what is left and makes the body of the closure. Both are
long case distinctions, and looking into them again for each result would repeat the same splits. So
each has one inversion lemma here, which lists everything that one step can do
(`Items.Becomes`, `Body.Becomes`). What is proved about steps elsewhere is proved by cases on these.

The first result of this kind is in this file: no piece blocks unless a statement of the module
does, and the imports are collected in order.

* `Items.Becomes` — what becomes of a module taken apart with one more item.
* `Items.Adds`, `Items.ofStatements_eq_ok` — taking a module apart collects its import declarations
  and its pieces, none of which blocks unless a statement of the module does.
* `Body.Becomes` — what becomes of a statement in the closure.
* `Body.exists_blocks_of_mem_ofStatements` — neither does the body of the closure.
* `blocks_continueImports` — continuations of dynamic imports change nothing about this.
-/

namespace Awaitless

namespace Script

/-- The import declaration that a statement is. -/
def Node.importDeclaration? (n : Node) : Option ImportDeclaration :=
  match n.form with
  | .importItem d => some d
  | _ => none

/-- The import declarations of a module, in order. -/
def Program.importDeclarations (p : Program) : List ImportDeclaration :=
  p.statements.filterMap Node.importDeclaration?

/-- Whether an item is a statement: neither an import nor an export. -/
def Node.isStatement (n : Node) : Bool :=
  match n.form with
  | .importItem _ | .exportNames _ _ | .exportAll _ _ | .exportDeclaration _ | .exportDefault _
  | .exportAssignment _ | .exportNamespace _ => false
  | _ => true

theorem Node.importDeclaration?_of_isStatement {n : Node} (h : n.isStatement = true) :
    n.importDeclaration? = none := by
  obtain ⟨span, form⟩ := n
  cases form with
  | importItem d => cases h
  | _ => rfl

theorem Node.form_of_importDeclaration? {n : Node} {d : ImportDeclaration}
    (h : n.importDeclaration? = some d) : n.form = .importItem d := by
  unfold importDeclaration? at h
  split at h
  · rename_i hform
    cases h
    exact hform
  · cases h

end Script

open Script

namespace Transform

variable {members : Bool} {moduleName : String}

/-! ## Items -/

namespace Items

variable {items items' : Items} {s x : Node}

/-- The name that a function or class declares. -/
def ownName? (value : Node) : Option String :=
  match value.form with
  | .function _ name _ _ | .classLike _ _ name _ _ => declaredName? name
  | _ => none

/-- What a module taken apart becomes with one more item. -/
inductive Becomes (items : Items) (s : Node) : Items → Prop
  | importItem (d : ImportDeclaration) : s.form = .importItem d →
    Becomes items s { items with imports := items.imports ++ [(s.span, d)] }
  | exportNames (specifiers : List ExportSpecifier) : s.form = .exportNames specifiers none →
    Becomes items s { items with
      exports := specifiers.foldl (fun e x => e.insert x.exported.text x.binding.text)
        items.exports }
  | exportDeclaration (d : Node) (names : List String) : s.form = .exportDeclaration d →
    exportedBindings? d = some names →
    Becomes items s ({ items with exports := items.exports.insertAll names }.addStatement d)
  | namedDefault (value : Node) (name : String) : s.form = .exportDefault value →
    ownName? value = some name →
    Becomes items s ((items.exportDefault name).addStatement value)
  | unnamedDefault (value : Node) : s.form = .exportDefault value → ownName? value = none →
    Becomes items s (items.addDefaultValue value)
  | statement : s.isStatement = true → Becomes items s (items.addStatement s)

/-- A default export is one of a named function or class, or of a value that gets a name. -/
theorem becomes_of_addDefault {value : Node} (hform : s.form = .exportDefault value)
    (h : addDefault moduleName items value = .ok items') : Becomes items s items' := by
  unfold addDefault at h
  split at h
  · cases h
  · -- a function, by its own name if it has one
    rename_i hvalue
    split at h <;> cases h
    · exact .namedDefault value _ hform (by rw [ownName?, hvalue]; assumption)
    · exact .unnamedDefault value hform (by rw [ownName?, hvalue]; assumption)
  · -- a class, in the same way
    rename_i hvalue
    split at h <;> cases h
    · exact .namedDefault value _ hform (by rw [ownName?, hvalue]; assumption)
    · exact .unnamedDefault value hform (by rw [ownName?, hvalue]; assumption)
  · -- any other value has no name of its own
    rename_i hfunction hclass
    cases h
    refine .unnamedDefault value hform ?_
    unfold ownName?
    split
    · exact absurd ‹_› (hfunction _ _ _ _)
    · exact absurd ‹_› (hclass _ _ _ _ _)
    · rfl

/-- All that taking one more item apart can do. -/
theorem becomes_of_add (h : add moduleName items s = .ok items') : Becomes items s items' := by
  unfold add at h
  split at h
  · cases h
  · cases h
  · cases h
  · rename_i hform
    cases h
    exact .importItem _ hform
  · cases h
  · rename_i hform
    cases h
    exact .exportNames _ hform
  · rename_i hform
    split at h
    · rename_i hnames
      cases h
      exact .exportDeclaration _ _ hform hnames
    · cases h
  · rename_i hform
    exact becomes_of_addDefault hform h
  · -- no form of an item has matched, so this is a statement
    rename_i hall hassignment hnamespace himport hagain hnames hdeclaration hdefault
    cases h
    refine .statement ?_
    obtain ⟨span, form⟩ := s
    cases form with
    | exportAll exported source => exact absurd rfl (hall exported source)
    | exportAssignment value => exact absurd rfl (hassignment value)
    | exportNamespace name => exact absurd rfl (hnamespace name)
    | importItem d => exact absurd rfl (himport d)
    | exportNames specifiers source =>
      cases source with
      | some source => exact absurd rfl (hagain specifiers source)
      | none => exact absurd rfl (hnames specifiers)
    | exportDeclaration d => exact absurd rfl (hdeclaration d)
    | exportDefault value => exact absurd rfl (hdefault value)
    | _ => rfl

/-- What one item adds: its import, or a piece that blocks only if the item does. -/
structure Adds (s : Node) (items items' : Items) : Prop where
  imports : items'.imports.map (·.2) = items.imports.map (·.2) ++ s.importDeclaration?.toList
  statements : ∃ new, items'.statements = items.statements ++ new ∧
    ∀ x ∈ new, ∀ members, x.Blocks members → s.Blocks members

/-- An item that leaves one piece. -/
theorem Adds.of_piece (himports : items'.imports = items.imports)
    (hstatements : items'.statements = items.statements ++ [x]) (hs : s.importDeclaration? = none)
    (hblocks : ∀ members, x.Blocks members → s.Blocks members) : Adds s items items' := by
  refine ⟨?_, [x], hstatements, ?_⟩
  · rw [himports, hs, Option.toList_none, List.append_nil]
  · intro y hy
    rw [List.mem_singleton.mp hy]
    exact hblocks

/-- An item adds its import declaration, or what is left of it. -/
theorem adds_add (h : add moduleName items s = .ok items') : Adds s items items' := by
  cases becomes_of_add h with
  | importItem d hform =>
    have hs : s.importDeclaration? = some d := by rw [Node.importDeclaration?, hform]
    refine ⟨?_, [], (List.append_nil _).symm, nofun⟩
    rw [hs, List.map_append]
    rfl
  | exportNames specifiers hform =>
    have hs : s.importDeclaration? = none := by rw [Node.importDeclaration?, hform]
    refine ⟨?_, [], (List.append_nil _).symm, nofun⟩
    rw [hs, Option.toList_none, List.append_nil]
  | exportDeclaration d names hform _ =>
    have hpart : d ∈ s.form.immediateParts := by rw [hform]; exact List.mem_singleton_self d
    refine .of_piece rfl rfl ?_ fun members hd => hd.of_mem_immediateParts hpart
    rw [Node.importDeclaration?, hform]
  | namedDefault value _ hform _ =>
    have hpart : value ∈ s.form.immediateParts := by
      rw [hform]
      exact List.mem_singleton_self value
    refine .of_piece rfl rfl ?_ fun members hvalue => hvalue.of_mem_immediateParts hpart
    rw [Node.importDeclaration?, hform]
  -- the value is declared under a name, which evaluates the value and nothing else
  | unnamedDefault value hform _ =>
    have hpart : value ∈ s.form.immediateParts := by
      rw [hform]
      exact List.mem_singleton_self value
    refine .of_piece rfl rfl ?_ fun members hvalue => ?_
    · rw [Node.importDeclaration?, hform]
    · exact (Make.blocks_declareAs.mp hvalue).of_mem_immediateParts hpart
  | statement hs =>
    exact .of_piece rfl rfl (Node.importDeclaration?_of_isStatement hs) fun _ hblocks => hblocks

/-- The imports of a module, and its pieces: none of them blocks unless a statement does. -/
theorem ofStatements_eq_ok {source : String} {statements : List Node}
    (h : ofStatements moduleName source statements = .ok items) :
    items.imports.map (·.2) = statements.filterMap Node.importDeclaration? ∧
      ∀ x ∈ items.statements, ∀ members, x.Blocks members →
        ∃ s ∈ statements, s.Blocks members := by
  refine foldlM_eq_ok_induction (fun seen items =>
    items.imports.map (·.2) = seen.filterMap Node.importDeclaration? ∧
      ∀ x ∈ items.statements, ∀ members, x.Blocks members → ∃ s ∈ seen, s.Blocks members)
    ?_ [] ⟨rfl, nofun⟩ h
  -- `seen` are the statements that have been added, in order
  rintro seen items s items' ⟨himports, hpieces⟩ hadd
  obtain ⟨hadds, new, hnew, hblocks⟩ := adds_add hadd
  constructor
  · rw [hadds, himports, List.filterMap_append]
    cases hs : s.importDeclaration? <;> simp [hs]
  · intro x hx members hxblocks
    rw [hnew, List.mem_append] at hx
    rcases hx with hx | hx
    · obtain ⟨y, hy, hyblocks⟩ := hpieces x hx members hxblocks
      exact ⟨y, List.mem_append_left _ hy, hyblocks⟩
    · exact ⟨s, List.mem_append_right _ (List.mem_singleton_self s), hblocks x hx members hxblocks⟩

end Items

/-! ## The body of the closure -/

namespace Body

variable {exported : List String} {s d x : Node} {ds xs : List Node}

/-- A declarator turns into the assignment of its value, if it has one, to its pattern as a
target. -/
theorem assignment?_eq {pattern : Node} {value : Option Node}
    (hform : d.form = .declarator pattern value) (hpattern : pattern.IsWholePattern) :
    assignment? moduleName d = .ok (value.map (Make.assign (pattern.withRole .target))) := by
  rw [assignment?, declaratorParts, hform]
  cases value with
  | none => rfl
  | some value =>
    dsimp only
    rw [hpattern.toTarget_eq]
    rfl

/-- An assignment blocks only where its declarator does: in the pattern or in the value. -/
theorem blocks_of_assignment? (hd : d.IsDeclarator) (h : assignment? moduleName d = .ok (some x))
    (hx : x.Blocks members) : d.Blocks members := by
  obtain ⟨pattern, value, hform, hpattern, -⟩ := hd
  rw [assignment?_eq hform hpattern] at h
  obtain ⟨value, rfl, rfl⟩ := Option.map_eq_some_iff.mp (Except.ok.inj h)
  rcases Make.blocks_assign.mp hx with hx | hx
  · refine ((Node.blocks_withRole .target pattern).mp hx).of_mem_immediateParts ?_
    rw [hform]
    exact List.mem_cons_self ..
  · refine hx.of_mem_immediateParts ?_
    rw [hform]
    exact List.mem_cons_of_mem _ (List.mem_singleton_self value)

/-- A declaration that is split into assignments blocks in one of its declarators. -/
theorem exists_blocks_of_mem_splitVariables (hds : ∀ d ∈ ds, d.IsDeclarator)
    (h : splitVariables moduleName exported ds = .ok xs) (hx : x ∈ xs)
    (hblocks : x.Blocks members) : ∃ d ∈ ds, d.Blocks members := by
  obtain ⟨assignments, hassignments, h⟩ := exists_of_bind_eq_ok h
  cases h
  rcases List.mem_append.mp hx with hx | hx
  · exact absurd hblocks (Make.blocks_of_mem_declare? (Option.mem_toList.mp hx))
  · obtain ⟨assignment, hmem, rfl⟩ := List.mem_filterMap.mp hx
    obtain ⟨d, hd, hassignment⟩ := exists_of_mapM_eq_ok hassignments hmem
    exact ⟨d, hd, blocks_of_assignment? (hds d hd) hassignment hblocks⟩

/-- What a statement of the module becomes in the closure. -/
inductive Becomes (moduleName : String) (exported : List String) (s : Node) : List Node → Prop
  | split (kind : DeclarationKind) (ds xs : List Node) : s.form = .bindings kind ds →
    (ds.flatMap declaredNames).any exported.contains = true →
    splitVariables moduleName exported ds = .ok xs → Becomes moduleName exported s xs
  | assigned (name : String) : Items.ownName? s = some name → name ∈ exported →
    Becomes moduleName exported s [Make.assign (Make.name name) s]
  | kept : (∀ kind ds, s.form = .bindings kind ds → ∀ x ∈ ds.flatMap declaredNames, x ∉ exported) →
    (∀ name, Items.ownName? s = some name → name ∉ exported) → Becomes moduleName exported s [s]

/-- Variables that are not exported stay declared as they are. -/
theorem becomes_of_bindings {kind : DeclarationKind} (hform : s.form = .bindings kind ds)
    (hnone : ¬ (ds.flatMap declaredNames).any exported.contains = true) :
    Becomes moduleName exported s [s] := by
  refine .kept (fun kind' ds' hform' x hx hexported => ?_) fun name hname => ?_
  · rw [hform] at hform'
    cases hform'
    exact hnone (List.any_eq_true.mpr ⟨x, hx, List.contains_iff_mem.mpr hexported⟩)
  · rw [Items.ownName?, hform] at hname
    cases hname

/-- A function or class is assigned to its name if the name is exported. -/
theorem becomes_of_declaration {name : Option Node}
    (hown : Items.ownName? s = Items.declaredName? name)
    (hform : ∀ kind ds, s.form ≠ .bindings kind ds)
    (h : (match exportedName? exported name with
      | some n => .ok [Make.assign (Make.name n) s]
      | none => .ok [s] : Except UnsupportedShape (List Node)) = .ok xs) :
    Becomes moduleName exported s xs := by
  split at h
  · rename_i n hn
    cases h
    obtain ⟨hname, hexported⟩ := Option.filter_eq_some_iff.mp hn
    exact .assigned n (hown.trans hname) (List.contains_iff_mem.mp hexported)
  · rename_i hnone
    cases h
    refine .kept (fun kind ds hbindings => absurd hbindings (hform kind ds)) ?_
    intro n hn hexported
    rw [hown] at hn
    exact Option.filter_eq_none_iff.mp hnone n hn (List.contains_iff_mem.mpr hexported)

/-- All that the closure can do with a statement. -/
theorem becomes_of_ofStatement (h : ofStatement moduleName exported s = .ok xs) :
    Becomes moduleName exported s xs := by
  unfold ofStatement at h
  split at h
  · rename_i kind ds hform
    split at h
    · rename_i hany
      exact .split kind ds xs hform hany h
    · rename_i hnone
      cases h
      exact becomes_of_bindings hform hnone
  · rename_i hform
    exact becomes_of_declaration (by rw [Items.ownName?, hform]) (by simp [hform]) h
  · rename_i hform
    exact becomes_of_declaration (by rw [Items.ownName?, hform]) (by simp [hform]) h
  · -- only variables, functions and classes can have an exported name
    rename_i hbindings hfunction hclass
    cases h
    refine .kept (fun kind ds hform => absurd hform (hbindings kind ds)) fun name hname => ?_
    unfold Items.ownName? at hname
    split at hname
    · exact absurd ‹_› (hfunction _ _ _ _)
    · exact absurd ‹_› (hclass _ _ _ _ _)
    · cases hname

/-- What a statement becomes blocks only if the statement does. -/
theorem blocks_of_mem_ofStatement (hs : ∀ d ∈ s.declarators, d.IsDeclarator)
    (h : ofStatement moduleName exported s = .ok xs) (hx : x ∈ xs)
    (hblocks : x.Blocks members) : s.Blocks members := by
  cases becomes_of_ofStatement h with
  | split kind ds xs hform _ hsplit =>
    rw [Node.declarators, hform] at hs
    obtain ⟨d, hd, hdblocks⟩ := exists_blocks_of_mem_splitVariables hs hsplit hx hblocks
    refine hdblocks.of_mem_immediateParts ?_
    rw [hform]
    exact hd
  | assigned name _ _ =>
    rw [List.mem_singleton.mp hx, Make.blocks_assign] at hblocks
    exact hblocks.resolve_left Make.blocks_name
  | kept _ _ => rwa [← List.mem_singleton.mp hx]

/-- The closure blocks only if a piece of the module does. -/
theorem exists_blocks_of_mem_ofStatements {statements body : List Node}
    (hs : ∀ s ∈ statements, ∀ d ∈ s.declarators, d.IsDeclarator)
    (h : ofStatements moduleName exported statements = .ok body) (hx : x ∈ body)
    (hblocks : x.Blocks members) : ∃ s ∈ statements, s.Blocks members := by
  obtain ⟨lists, hlists, rfl⟩ := exists_of_map_eq_ok h
  obtain ⟨xs, hxs, hx⟩ := List.mem_flatten.mp hx
  obtain ⟨s, hmem, hstatement⟩ := exists_of_mapM_eq_ok hlists hxs
  exact ⟨s, hmem, blocks_of_mem_ofStatement (hs s hmem) hstatement hx hblocks⟩

end Body

/-! ## Dynamic imports -/

/-- A continuation waits for nothing when the call is made. -/
theorem blocks_continueImport (bundle : Bundle) (importer promise : String) (n : Node) :
    (continueImport bundle importer promise n).Blocks members ↔ n.Blocks members := by
  unfold continueImport
  split
  · split
    · exact Make.blocks_continued
    · rfl
  · rfl

/-- A call is no member of a class. -/
theorem memberHead_continueImport (bundle : Bundle) (importer promise : String) (n : Node) :
    (continueImport bundle importer promise n).form.memberHead = n.form.memberHead := by
  unfold continueImport
  split
  · rename_i hform
    split
    · rw [hform]
      rfl
    · rfl
  · rfl

/-- A continuation behind dynamic imports blocks nothing. -/
theorem blocks_continueImports (bundle : Bundle) (importer promise : String) (n : Node) :
    (continueImports bundle importer promise n).Blocks members ↔ n.Blocks members :=
  Node.blocks_bottomUp (blocks_continueImport bundle importer promise)
    (memberHead_continueImport bundle importer promise) n

end Transform

end Awaitless
