import Awaitless.Proofs.Script.Checking.Exports
import Awaitless.Proofs.Transform.Contents

/-!
# What cannot be transformed

A module is transformed unless an item of it has no place in a closure or beside one. Such items are
known by their forms, so the error of a module can be read off its items before anything is done:
the first of them decides. That there is no other error takes an argument. The closure makes targets
out of patterns, which could fail, and exported declarations could have no names; the grammar
excludes both, and the rules beyond the grammar exclude an exported class without a name.

* `Node.unsupported?` — the items that have no place.
* `failure?_add` — taking a module apart fails on just these.
* `Body.failure?_ofStatements` — the closure takes everything that is left: every pattern turns into
  a target.
* `failure?_program` — the first item without a place decides.
-/

namespace Awaitless

namespace Script

/-- Why an item has no place in a transformed module: it exports from another module, or exports no
value. -/
def Node.unsupported? (moduleName : String) (n : Node) : Option UnsupportedShape :=
  match n.form with
  | .exportAll _ _ => some ⟨moduleName, .topLevelStatement, "ExportAllDeclaration"⟩
  | .exportNames _ (some _) => some ⟨moduleName, .reExport, "ExportNamedDeclaration"⟩
  | .exportDefault value =>
    match value.form with
    | .typeDeclaration _ => some ⟨moduleName, .defaultExport, "TSInterfaceDeclaration"⟩
    | _ => none
  | _ => none

/-- No item without a place is one for its pattern. -/
theorem Node.place_of_unsupported? {moduleName : String} {n : Node} {shape : UnsupportedShape}
    (h : n.unsupported? moduleName = some shape) : shape.place ≠ .destructuringPattern := by
  unfold unsupported? at h
  split at h
  · cases h
    exact nofun
  · cases h
    exact nofun
  · split at h
    · cases h
      exact nofun
    · cases h
  · cases h

/-- The items of a module that the grammar and the rules accept. -/
structure Program.IsAccepted (p : Program) : Prop where
  isItem : ∀ n ∈ p.statements, n.IsItem
  named : ∀ n ∈ p.statements, ∀ d, n.form = .exportDeclaration d → ¬ d.IsNamelessClass

end Script

open Script

namespace Transform

variable {moduleName : String} {s d : Node}

/-! ## Items -/

namespace Items

/-- What is exported by its declaration has names. -/
theorem exists_exportedBindings? (h : d.IsExported) (hnamed : ¬ d.IsNamelessClass) :
    ∃ names, exportedBindings? d = some names := by
  have hname : ∀ {x : Node} {text : String}, x.form = .identifier text →
      (declaredName? (some x)).map ([·]) = some [text] := by
    intro x text hx
    obtain ⟨span, form⟩ := x
    obtain rfl : form = .identifier text := hx
    rfl
  unfold exportedBindings?
  cases h with
  | bindings hform _ =>
    rw [hform]
    exact ⟨_, rfl⟩
  | function hform hx =>
    rw [hform]
    exact ⟨_, hname hx⟩
  | @classLike traits decorators name heritage members hform hidentifier =>
    cases name with
    | none => exact absurd ⟨traits, decorators, heritage, members, hform⟩ hnamed
    | some x =>
      obtain ⟨text, hx⟩ := hidentifier x rfl
      rw [hform]
      exact ⟨_, hname hx⟩

/-- A default export fails where it exports a type. -/
theorem failure?_addDefault (items : Items) (value : Node) (hform : s.form = .exportDefault value) :
    failure? (addDefault moduleName items value) = s.unsupported? moduleName := by
  rw [Node.unsupported?, hform]
  unfold addDefault
  obtain ⟨span, form⟩ := value
  cases form with
  | function traits name parameters body =>
    dsimp only [Node.form]
    cases declaredName? name <;> rfl
  | classLike traits decorators name heritage members =>
    dsimp only [Node.form]
    cases declaredName? name <;> rfl
  | _ => rfl

/-- Taking a module apart fails on an item exactly if the item has no place. -/
theorem failure?_add (hs : s.IsItem)
    (hnamed : ∀ d, s.form = .exportDeclaration d → ¬ d.IsNamelessClass) (items : Items) :
    failure? (add moduleName items s) = s.unsupported? moduleName := by
  obtain ⟨span, form⟩ := s
  cases form with
  | exportDefault value => exact failure?_addDefault items value rfl
  | exportDeclaration d =>
    obtain ⟨names, hnames⟩ := exists_exportedBindings? (hs.exported d rfl) (hnamed d rfl)
    unfold add
    dsimp only [Node.form]
    rw [hnames]
    rfl
  | exportNames specifiers source => cases source <;> rfl
  | exportAssignment value => exact absurd hs.untyped nofun
  | exportNamespace name => exact absurd hs.untyped nofun
  | _ => rfl

end Items

/-- The first item without a place decides, since items are taken apart in order. -/
theorem Items.failure?_ofStatements {source : String} {p : Program} (hp : p.IsAccepted) :
    failure? (ofStatements moduleName source p.statements) =
      p.statements.findSome? (Node.unsupported? moduleName) :=
  failure?_foldlM (fun s hs items => failure?_add (hp.isItem s hs) (hp.named s hs) items) _

/-! ## The body of the closure -/

namespace Body

variable {exported : List String} {ds : List Node}

/-- A whole pattern turns into a target, whatever its pieces are. -/
theorem failure?_assignment? (h : d.IsDeclarator) : failure? (assignment? moduleName d) = none := by
  obtain ⟨pattern, value, hform, hpattern, -⟩ := h
  rw [assignment?_eq hform hpattern]
  rfl

/-- Every pattern of a declaration turns into a target. -/
theorem failure?_splitVariables (h : ∀ d ∈ ds, d.IsDeclarator) :
    failure? (splitVariables moduleName exported ds) = none := by
  have hassignments : failure? (ds.mapM (assignment? moduleName)) = none := by
    rw [failure?_mapM]
    exact List.findSome?_eq_none_iff.mpr fun d hd => failure?_assignment? (h d hd)
  exact (failure?_bind fun _ _ => rfl).trans hassignments

/-- No statement fails in the closure. -/
theorem failure?_ofStatement (h : ∀ d ∈ s.declarators, d.IsDeclarator) :
    failure? (ofStatement moduleName exported s) = none := by
  unfold ofStatement
  split
  · rename_i hform
    rw [Node.declarators, hform] at h
    split
    · exact failure?_splitVariables h
    · rfl
  · split <;> rfl
  · split <;> rfl
  · rfl

/-- The closure takes all statements that declare variables as the grammar has it. -/
theorem failure?_ofStatements {statements : List Node}
    (h : ∀ s ∈ statements, ∀ d ∈ s.declarators, d.IsDeclarator) :
    failure? (ofStatements moduleName exported statements) = none := by
  have hmapM : failure? (statements.mapM (ofStatement moduleName exported)) = none := by
    rw [failure?_mapM]
    exact List.findSome?_eq_none_iff.mpr fun s hs => failure?_ofStatement (h s hs)
  exact (failure?_map _ _).trans hmapM

end Body

/-! ## Modules -/

/-- The first item without a place decides whether a module can be transformed. -/
theorem failure?_program (s : Surroundings) (source : String) {p : Program} (hp : p.IsAccepted) :
    failure? (program s source p) = p.statements.findSome? (Node.unsupported? s.moduleName) := by
  have hbody : ∀ items, Items.ofStatements s.moduleName source p.statements = .ok items →
      failure? (Body.ofStatements s.moduleName (exportedBindings items.exports) items.statements) =
        none := fun items hitems =>
    Body.failure?_ofStatements (Items.declarators_of_ofStatements hp.isItem hitems)
  have hstatements : failure? (statements s source p.statements) =
      failure? (Items.ofStatements s.moduleName source p.statements) :=
    failure?_bind fun items hitems => (failure?_bind fun _ _ => rfl).trans (hbody items hitems)
  calc
    failure? (program s source p) = failure? (statements s source p.statements) :=
      failure?_bind fun _ _ => rfl
    _ = failure? (Items.ofStatements s.moduleName source p.statements) := hstatements
    _ = p.statements.findSome? (Node.unsupported? s.moduleName) := Items.failure?_ofStatements hp

end Transform

end Awaitless
