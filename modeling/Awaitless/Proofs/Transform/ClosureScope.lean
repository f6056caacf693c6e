import Awaitless.Proofs.Script.Names
import Awaitless.Proofs.Transform.Continuations

/-!
# The scope of the closure

Names that are not exported move to the closure. What a statement declares there is what it declared
before, with two changes: exported names are gone, since they are assigned, and the names that are
left of a declaration with an exported name are declared by `let`, whatever declared them before. A
`var` that becomes `let` must not be repeated any more. That is the only way in which the closure
can be in conflict with itself where the module was not, and counting declarations finds it.

The names are counted statement by statement (`Moves`), so that the whole closure is a sum.
Rewriting dynamic imports does not matter to it: no declaration stands in a continuation.

* `bodyNames_continueImports` — continuations of dynamic imports declare nothing.
* `Node.singleNames` — the names that a statement of a module declares by more than `var` in the
  closure.
* `Body.consistent_bodyScope_iff` — the scope is consistent exactly if each of these is declared
  once.
-/

namespace Awaitless

open Script

namespace Transform

/-! ## Continuations -/

section Continuations

variable (bundle : Bundle) (importer promise : String) (n : Node)

/-- A call is no pattern, and patterns keep their names. -/
theorem patternNames_continueImports :
    (continueImports bundle importer promise n).patternNames = n.patternNames := by
  induction n using Node.induction with
  | step span form ih =>
    rw [Node.patternNames_eq, Node.patternNames_eq (.mk span form)]
    -- a rewritten node has its form over rewritten parts, or it was a call
    rcases form_continueImports bundle importer promise (.mk span form) with
      hform | ⟨⟨phase, source, options, hdynamic⟩, callee, arguments, hform⟩
    · rw [hform]
      have hall : ∀ xs : List Node, (∀ x ∈ xs, x ∈ form.parts) →
          (xs.map (continueImports bundle importer promise)).flatMap Node.patternNames =
            xs.flatMap Node.patternNames := by
        intro xs hxs
        rw [List.flatMap_map, List.flatMap_def, List.flatMap_def,
          List.map_congr_left fun x hx => ih x (hxs x hx)]
      cases form with
      | objectPattern role xs => exact hall xs fun _ hx => hx
      | arrayPattern role xs => exact hall xs fun _ hx => hx
      | patternProperty key value computed shorthand =>
        exact ih value (List.mem_cons_of_mem _ (List.mem_singleton_self value))
      | defaulted target value => exact ih target (List.mem_cons_self ..)
      | rest target => exact ih target (List.mem_singleton_self target)
      | _ => rfl
    · rw [hform, hdynamic]

theorem name?_continueImports : (continueImports bundle importer promise n).name? = n.name? := by
  induction n using Node.induction with
  | step span form ih =>
    rcases form_continueImports bundle importer promise (.mk span form) with
      hform | ⟨⟨phase, source, options, hdynamic⟩, callee, arguments, hform⟩
    · rw [Node.name?_eq, Node.name?_eq (.mk span form), hform]
      cases form with
      | parenthesized x => exact ih x (List.mem_singleton_self x)
      | _ => rfl
    · rw [Node.name?_eq, Node.name?_eq (.mk span form), hform, hdynamic]

theorem declaratorNames_continueImports :
    (continueImports bundle importer promise n).declaratorNames = n.declaratorNames := by
  unfold Node.declaratorNames
  rcases form_continueImports bundle importer promise n with
    hform | ⟨⟨phase, source, options, hdynamic⟩, callee, arguments, hform⟩
  · rw [hform]
    cases hn : n.form with
    | declarator target value => exact patternNames_continueImports bundle importer promise target
    | _ => rfl
  · rw [hform, hdynamic]

theorem flatMap_declaratorNames_continueImports (ds : List Node) :
    (ds.map (continueImports bundle importer promise)).flatMap Node.declaratorNames =
      ds.flatMap Node.declaratorNames := by
  rw [List.flatMap_map, List.flatMap_def, List.flatMap_def,
    List.map_congr_left fun d _ => declaratorNames_continueImports bundle importer promise d]

/-- Nor does a call declare anything by `var`. -/
theorem varNames_continueImports :
    (continueImports bundle importer promise n).varNames = n.varNames := by
  induction n using Node.induction with
  | step span form ih =>
    rw [Node.varNames_eq, Node.varNames_eq (.mk span form)]
    rcases form_continueImports bundle importer promise (.mk span form) with
      hform | ⟨⟨phase, source, options, hdynamic⟩, callee, arguments, hform⟩
    · rw [hform]
      have hnested : (form.map (continueImports bundle importer promise)).nestedStatements.flatMap
          Node.varNames = form.nestedStatements.flatMap Node.varNames := by
        rw [Form.nestedStatements_map, List.flatMap_map, List.flatMap_def, List.flatMap_def,
          List.map_congr_left fun x hx => ih x (Form.mem_parts_of_mem_nestedStatements hx)]
      cases form with
      | bindings kind ds =>
        -- a `var` notes its own names; all other forms pass on those of the statements inside
        cases kind with
        | var => exact flatMap_declaratorNames_continueImports bundle importer promise ds
        | _ => rfl
      | _ => exact hnested
    · rw [hform, hdynamic]
      rfl

theorem ownName_continueImports (name : Option Node) :
    Node.ownName (name.map (continueImports bundle importer promise)) = Node.ownName name := by
  cases name with
  | none => rfl
  | some name => exact congrArg Option.toList (name?_continueImports bundle importer promise name)

/-- Continuations declare nothing. -/
theorem bodyNames_continueImports :
    (continueImports bundle importer promise n).bodyNames = n.bodyNames := by
  have hvar := varNames_continueImports bundle importer promise n
  unfold Node.bodyNames
  rcases form_continueImports bundle importer promise n with
    hform | ⟨⟨phase, source, options, hdynamic⟩, callee, arguments, hform⟩
  · rw [hform, hvar]
    cases n.form with
    | bindings kind ds =>
      have hds := flatMap_declaratorNames_continueImports bundle importer promise ds
      cases kind <;> simp only [Form.map, hds]
    | function traits name parameters body =>
      simp only [Form.map, ownName_continueImports]
    | classLike traits decorators name heritage members =>
      simp only [Form.map, ownName_continueImports]
    | _ => rfl
  · rw [hform, hdynamic, hvar]

/-- Rewriting dynamic imports changes no scope. -/
theorem bodyScope_continueImports (body : List Node) :
    bodyScope (body.map (continueImports bundle importer promise)) = bodyScope body := by
  rw [bodyScope, ScopeNames.collect_map]
  exact ScopeNames.collect_congr fun n _ => bodyNames_continueImports bundle importer promise n

end Continuations

end Transform

/-! ## The closure -/

/-- The names that a statement of a module declares by `let`, `const`, `using` or `class`, or else
by a `var` that has an exported name and turns into `let`. -/
def Script.Node.singleNames (exported : List String) (s : Node) : List String :=
  match s.form with
  | .bindings .var ds =>
    if (ds.flatMap Node.declaratorNames).any exported.contains then
      ds.flatMap Node.declaratorNames
    else []
  | _ => s.bodyNames.single

namespace Transform

namespace Body

variable {moduleName : String} {exported : List String} {s d : Node} {ds xs : List Node}

/-- The names that the program splits off are those of the declarators. -/
theorem declaredNames_eq (hd : d.IsDeclarator) : declaredNames d = d.declaratorNames := by
  obtain ⟨target, value, hform, htarget, -⟩ := hd
  have hparts : declaratorParts d = some (target, value) := by rw [declaratorParts, hform]
  rw [declaredNames, hparts, Node.declaratorNames, hform]
  exact htarget.isPattern.boundNames_eq_patternNames

theorem flatMap_declaredNames (hds : ∀ d ∈ ds, d.IsDeclarator) :
    ds.flatMap declaredNames = ds.flatMap Node.declaratorNames := by
  rw [List.flatMap_def, List.flatMap_def,
    List.map_congr_left fun d hd => declaredNames_eq (hds d hd)]

theorem bodyNames_assign (target value : Node) : (Make.assign target value).bodyNames = {} := by
  unfold Make.assign
  split
  · rfl
  · rfl

/-- An assignment declares nothing. -/
theorem bodyNames_of_assignment? {x : Node} (h : assignment? moduleName d = .ok (some x)) :
    x.bodyNames = {} := by
  unfold assignment? at h
  split at h
  · split at h
    · cases h
      exact bodyNames_assign _ _
    · cases h
  · cases h

/-- A declaration of names without values declares these names. -/
theorem bodyScope_declare? (names : List String) :
    bodyScope (Make.declare? names).toList = { single := names } := by
  unfold Make.declare?
  by_cases hnames : names = []
  · rw [hnames]
    rfl
  · have hdeclarators : (names.map fun n => Make.declarator n none).flatMap Node.declaratorNames =
        names := by
      rw [List.flatMap_map]
      exact List.flatMap_singleton' names
    rw [if_neg (by rwa [List.isEmpty_iff])]
    show ScopeNames.collect _ [_] = _
    rw [ScopeNames.collect_singleton]
    exact congrArg (fun xs => ({ single := xs } : ScopeNames)) hdeclarators

/-- What a split declaration declares in the closure: all that is not exported, by `let`. -/
theorem bodyScope_splitVariables (hds : ∀ d ∈ ds, d.IsDeclarator)
    (h : splitVariables moduleName exported ds = .ok xs) :
    bodyScope xs =
      { single := (ds.flatMap Node.declaratorNames).filter fun x => !exported.contains x } := by
  obtain ⟨assignments, hassignments, h⟩ := exists_of_bind_eq_ok h
  cases h
  have hempty : ∀ x ∈ assignments.filterMap id, x.bodyNames = {} := by
    intro x hx
    obtain ⟨assignment, hmem, rfl⟩ := List.mem_filterMap.mp hx
    obtain ⟨d, -, hd⟩ := exists_of_mapM_eq_ok hassignments hmem
    exact bodyNames_of_assignment? hd
  rw [bodyScope, ScopeNames.collect_append_of_empty hempty, flatMap_declaredNames hds]
  exact bodyScope_declare? _

/-- What a statement of the module declares in the closure. -/
structure Moves (exported : List String) (s : Node) (xs : List Node) : Prop where
  single : (bodyScope xs).single = (s.singleNames exported).filter fun x => !exported.contains x
  /-- Names that are not exported are declared as often as before. -/
  count : ∀ x, x ∉ exported → (bodyScope xs).all.count x = s.bodyNames.all.count x

theorem filter_eq_self_of_not_mem {names : List String} (h : ∀ x ∈ names, x ∉ exported) :
    names.filter (fun x => !exported.contains x) = names := by
  rw [List.filter_eq_self]
  intro x hx
  have hnot := h x hx
  simpa using hnot

/-- A declaration of variables that has an exported name declares the others by `let`. -/
theorem moves_split {kind : DeclarationKind} (hform : s.form = .bindings kind ds)
    (hds : ∀ d ∈ ds, d.IsDeclarator)
    (hany : (ds.flatMap declaredNames).any exported.contains = true)
    (h : splitVariables moduleName exported ds = .ok xs) : Moves exported s xs := by
  rw [flatMap_declaredNames hds] at hany
  have hscope := bodyScope_splitVariables hds h
  have hall : s.bodyNames.all = ds.flatMap Node.declaratorNames := by
    rw [Node.bodyNames, hform]
    cases kind <;> simp [ScopeNames.all]
  have hsingle : s.singleNames exported = ds.flatMap Node.declaratorNames := by
    rw [Node.singleNames, hform]
    cases kind with
    | var => exact if_pos hany
    | _ => rw [Node.bodyNames, hform]
  refine ⟨by rw [hscope, hsingle], fun x hx => ?_⟩
  rw [hscope, hall, ScopeNames.all, List.append_nil]
  refine List.count_filter ?_
  simpa using hx

/-- A function or class declares its name. -/
theorem names_of_ownName? (exported : List String) {name : String}
    (h : Items.ownName? s = some name) :
    s.bodyNames.all = [name] ∧ s.singleNames exported = s.bodyNames.single := by
  unfold Items.ownName? at h
  split at h
  · rename_i hform
    rw [Node.singleNames, Node.bodyNames, hform]
    exact ⟨congrArg Option.toList h, rfl⟩
  · rename_i hform
    rw [Node.singleNames, Node.bodyNames, hform]
    refine ⟨?_, rfl⟩
    rw [ScopeNames.all, List.append_nil]
    exact congrArg Option.toList h
  · cases h

/-- A function or class that is assigned declares nothing. -/
theorem moves_assigned {name : String} (hname : Items.ownName? s = some name)
    (hexported : name ∈ exported) : Moves exported s [Make.assign (Make.name name) s] := by
  obtain ⟨hall, hsame⟩ := names_of_ownName? exported hname
  have hscope : bodyScope [Make.assign (Make.name name) s] = {} := by
    rw [bodyScope, ScopeNames.collect_singleton, bodyNames_assign]
  refine ⟨?_, fun x hx => ?_⟩
  · rw [hscope, hsame]
    refine (List.filter_eq_nil_iff.mpr fun x hx => ?_).symm
    have hx : x ∈ s.bodyNames.all := List.mem_append_left _ hx
    rw [hall] at hx
    obtain rfl := List.mem_singleton.mp hx
    simpa using hexported
  · have hne : x ∉ [name] := fun hxn => hx (List.mem_singleton.mp hxn ▸ hexported)
    rw [hscope, hall, List.count_eq_zero.mpr hne]
    rfl

/-- A statement that declares no exported name stays as it is. -/
theorem moves_kept (hs : ∀ d ∈ s.declarators, d.IsDeclarator)
    (hbindings : ∀ kind ds, s.form = .bindings kind ds →
      ∀ x ∈ ds.flatMap declaredNames, x ∉ exported)
    (hname : ∀ name, Items.ownName? s = some name → name ∉ exported) :
    Moves exported s [s] := by
  have hscope : bodyScope [s] = s.bodyNames := ScopeNames.collect_singleton
  -- names that may be repeated are not in question
  suffices s.singleNames exported = s.bodyNames.single ∧ ∀ x ∈ s.bodyNames.single, x ∉ exported by
    obtain ⟨hsame, hnot⟩ := this
    refine ⟨?_, fun x _ => by rw [hscope]⟩
    rw [hscope, hsame, filter_eq_self_of_not_mem hnot]
  obtain ⟨span, form⟩ := s
  cases form with
  | bindings kind ds =>
    have hds : ∀ d ∈ ds, d.IsDeclarator := hs
    have hnot := hbindings kind ds rfl
    rw [flatMap_declaredNames hds] at hnot
    cases kind with
    | var =>
      refine ⟨if_neg fun hany => ?_, nofun⟩
      obtain ⟨x, hx, hexported⟩ := List.any_eq_true.mp hany
      exact hnot x hx (List.contains_iff_mem.mp hexported)
    | _ => exact ⟨rfl, hnot⟩
  | classLike traits decorators name heritage members =>
    exact ⟨rfl, fun x hx => hname x (Option.mem_toList.mp hx)⟩
  | _ => exact ⟨rfl, nofun⟩

/-- By the three rules of the closure. -/
theorem moves_ofStatement (hs : ∀ d ∈ s.declarators, d.IsDeclarator)
    (h : ofStatement moduleName exported s = .ok xs) : Moves exported s xs := by
  cases becomes_of_ofStatement h with
  | split kind ds xs hform hany hsplit =>
    rw [Node.declarators, hform] at hs
    exact moves_split hform hs hany hsplit
  | assigned name hname hexported => exact moves_assigned hname hexported
  | kept hbindings hname => exact moves_kept hs hbindings hname

/-- What the statements of the module declare in the closure. -/
theorem bodyScope_ofStatements {statements body : List Node}
    (hs : ∀ s ∈ statements, ∀ d ∈ s.declarators, d.IsDeclarator)
    (h : ofStatements moduleName exported statements = .ok body) :
    (bodyScope body).single =
        (statements.flatMap (Node.singleNames exported)).filter (fun x => !exported.contains x) ∧
      ∀ x, x ∉ exported → (bodyScope body).all.count x = (bodyScope statements).all.count x := by
  obtain ⟨lists, hlists, rfl⟩ := exists_of_map_eq_ok h
  clear h
  induction statements generalizing lists with
  | nil =>
    cases hlists
    exact ⟨rfl, fun _ _ => rfl⟩
  | cons s statements ih =>
    rw [List.mapM_cons] at hlists
    obtain ⟨first, hfirst, hlists⟩ := exists_of_bind_eq_ok hlists
    obtain ⟨rest, hrest, hlists⟩ := exists_of_bind_eq_ok hlists
    cases hlists
    obtain ⟨hs, hstatements⟩ := List.forall_mem_cons.mp hs
    -- names and counts of the first statement, then of all others
    obtain ⟨hsingle, hcount⟩ := moves_ofStatement hs hfirst
    obtain ⟨hsingles, hcounts⟩ := ih hstatements rest hrest
    refine ⟨?_, fun x hx => ?_⟩
    · rw [List.flatten_cons, bodyScope, ScopeNames.single_collect_append, List.flatMap_cons,
        List.filter_append, ← hsingle, ← hsingles]
      rfl
    · have hcons : (bodyScope (s :: statements)).all.count x =
          s.bodyNames.all.count x + (bodyScope statements).all.count x := by
        rw [← List.singleton_append, bodyScope, ScopeNames.count_all_collect_append,
          ScopeNames.collect_singleton]
        rfl
      rw [hcons, ← hcount x hx, ← hcounts x hx]
      exact ScopeNames.count_all_collect_append

/-- The scope of the closure is consistent exactly if every name that it declares by more than `var`
is declared once. -/
theorem consistent_bodyScope_iff {statements body : List Node}
    (hs : ∀ s ∈ statements, ∀ d ∈ s.declarators, d.IsDeclarator)
    (h : ofStatements moduleName exported statements = .ok body) :
    (bodyScope body).Consistent ↔ ∀ s ∈ statements, ∀ x ∈ s.singleNames exported, x ∉ exported →
      (bodyScope statements).all.count x = 1 := by
  obtain ⟨hsingle, hcount⟩ := bodyScope_ofStatements hs h
  -- the names that exclude others are those that the statements are left with
  have hmem : ∀ x, x ∈ (bodyScope body).single ↔
      (∃ s ∈ statements, x ∈ s.singleNames exported) ∧ x ∉ exported := by
    intro x
    rw [hsingle, List.mem_filter, List.mem_flatMap]
    simp
  rw [ScopeNames.consistent_iff]
  constructor
  · intro hone s hs x hx hexported
    rw [← hcount x hexported]
    exact hone x ((hmem x).mpr ⟨⟨s, hs, hx⟩, hexported⟩)
  · intro hone x hx
    obtain ⟨⟨s, hs, hx⟩, hexported⟩ := (hmem x).mp hx
    rw [hcount x hexported]
    exact hone s hs x hx hexported

end Body

end Transform

end Awaitless
