import Awaitless.Proofs.Transform.ClosureScope
import Awaitless.Proofs.Transform.Exports

/-!
# The scope of a transformed module

At the top of a transformed module stand its imports, the names that it exports, and names that are
generated: one for each promise that it imports, and the one of its own promise. The first two are
apart already, since an exported binding is declared only if it is not imported. So the scope is
consistent if the generated names are apart from each other and from all others. What is declared is
counted up to order, because a promise that is imported behind a namespace stands between imports.

* `generatedNames` — the names that the transformation adds.
* `moduleScope_assemble` — what a transformed module declares.
* `consistent_moduleScope_iff` — its scope is consistent exactly if no generated name meets another
  one.
* `mem_moduleScope_of_exported` — what it exports is declared at its top.
-/

namespace Awaitless

open Script

namespace Transform

namespace PromiseImports

variable (bundle : Bundle) (importer : String) (settings : Settings) (next : Nat)

/-- An entry adds its own binding, in the same declaration or in another one. -/
theorem moduleScope_addSpecifier (span : Span) (d : ImportDeclaration) (entry : ImportSpecifier) :
    moduleScope (addSpecifier span d entry) = { single := d.bindings ++ [entry.binding] } := by
  unfold addSpecifier
  split
  · rfl
  · have hbindings : ((d.specifiers.getD [] ++ [entry]).map (·.binding)) =
        d.bindings ++ [entry.binding] := List.map_append
    rw [moduleScope, ScopeNames.collect_singleton]
    exact congrArg (fun xs => ({ single := xs } : ScopeNames)) hbindings

/-- Threading adds the local names of the promises, and nothing else. -/
theorem moduleScope_threadFrom (imports : List (Span × ImportDeclaration)) :
    (moduleScope (threadFrom bundle importer settings next imports).1).single.Perm
        (imports.flatMap (fun p => p.2.bindings) ++
          (threadFrom bundle importer settings next imports).2) ∧
      (moduleScope (threadFrom bundle importer settings next imports).1).shared = [] := by
  induction imports generalizing next with
  | nil => exact ⟨.refl _, rfl⟩
  | cons p rest ih =>
    obtain ⟨span, d⟩ := p
    have hadd := moduleScope_addSpecifier span d (entryAt settings next)
    rw [threadFrom, List.flatMap_cons]
    split
    · -- the binding of the entry moves behind those of the other declarations
      obtain ⟨hsingle, hshared⟩ := ih (next + 1)
      constructor
      · show (moduleScope (addSpecifier span d (entryAt settings next) ++ _)).single.Perm _
        rw [single_moduleScope_append, hadd, List.append_assoc, List.append_assoc]
        refine List.Perm.append_left d.bindings ?_
        exact (hsingle.cons _).trans List.perm_middle.symm
      · show (moduleScope (addSpecifier span d (entryAt settings next) ++ _)).shared = []
        rw [shared_moduleScope_append, hadd, List.nil_append]
        exact hshared
    · obtain ⟨hsingle, hshared⟩ := ih next
      rw [List.append_assoc]
      exact ⟨hsingle.append_left d.bindings, hshared⟩

end PromiseImports

variable {s : Surroundings} {items : Items} {body : List Node}

/-- The names that the transformation adds to a module. -/
def generatedNames (s : Surroundings) (items : Items) : List String :=
  awaitedNames s items ++
    if items.exports.isEmpty && !s.isImported then [] else [s.settings.promiseName]

/-- What the module declares are names without values. -/
theorem moduleScope_declare? (names : List String) :
    moduleScope (Make.declare? names).toList = { single := names } := by
  rw [← Body.bodyScope_declare? names, moduleScope, bodyScope]
  refine ScopeNames.collect_congr fun n hn => ?_
  have hn := Option.mem_toList.mp hn
  unfold Make.declare? at hn
  split at hn
  · cases hn
  · cases hn
    rfl

/-- The promise is declared if it is exported, and stands alone otherwise. -/
theorem moduleScope_ending (exports : Exports) (promise : Node) :
    moduleScope (ending s exports promise) =
      { single := if exports.isEmpty && !s.isImported then [] else [s.settings.promiseName] } := by
  unfold ending
  split
  · rfl
  · rfl

/-- What a transformed module declares. -/
theorem moduleScope_assemble (s : Surroundings) (items : Items) (body : List Node) :
    (moduleScope (assemble s items body)).single.Perm
        (items.importBindings ++ hoistedNames items ++ generatedNames s items) ∧
      (moduleScope (assemble s items body)).shared = [] := by
  have hthread := PromiseImports.moduleScope_threadFrom (s.bundle) s.moduleName s.settings 0
    items.imports
  have hnames : (PromiseImports.threadFrom s.bundle s.moduleName s.settings 0 items.imports).2 =
      awaitedNames s items := by
    rw [awaitedNames, List.range_eq_range', ← PromiseImports.threadFrom_names]
  rw [hnames] at hthread
  rw [assemble_eq]
  constructor
  · rw [single_moduleScope_append, single_moduleScope_append, moduleScope_declare?,
      moduleScope_ending]
    have himports : (moduleScope (PromiseImports.thread s.bundle s.moduleName s.settings
        items.imports).1).single.Perm (items.importBindings ++ awaitedNames s items) := hthread.1
    -- the local names of the promises stand between the imports and the exported bindings
    refine ((himports.append_right _).append_right _).trans ?_
    rw [generatedNames, List.append_assoc, List.append_assoc, List.append_assoc]
    refine List.Perm.append_left items.importBindings ?_
    rw [← List.append_assoc, ← List.append_assoc]
    exact List.perm_append_comm.append_right _
  · rw [shared_moduleScope_append, shared_moduleScope_append, moduleScope_declare?,
      moduleScope_ending, List.append_nil, List.append_nil]
    exact hthread.2

/-- The scope of a transformed module is consistent exactly if no generated name belongs to an
imported or an exported binding. -/
theorem consistent_moduleScope_iff (body : List Node) (himports : items.importBindings.Nodup)
    (hgenerated : (generatedNames s items).Nodup) :
    (moduleScope (assemble s items body)).Consistent ↔
      ∀ x ∈ generatedNames s items, x ∉ items.importBindings ∧
        x ∉ exportedBindings items.exports := by
  obtain ⟨hsingle, hshared⟩ := moduleScope_assemble s items body
  have hmem : ∀ x, x ∈ hoistedNames items ↔
      x ∈ exportedBindings items.exports ∧ x ∉ items.importBindings := by
    intro x
    rw [hoistedNames, List.mem_filter]
    simp
  have hhoisted : (hoistedNames items).Nodup := (nodup_distinct _).filter _
  -- imports and exported names are apart by definition
  have hdeclared : (items.importBindings ++ hoistedNames items).Nodup := by
    refine List.nodup_append.mpr ⟨himports, hhoisted, fun x hx y hy hxy => ?_⟩
    exact ((hmem y).mp hy).2 (hxy ▸ hx)
  rw [ScopeNames.Consistent, hshared, hsingle.nodup_iff, List.nodup_append]
  constructor
  · rintro ⟨⟨-, -, hdisjoint⟩, -⟩ x hx
    have hnot : x ∉ items.importBindings ++ hoistedNames items :=
      fun h => hdisjoint x h x hx rfl
    rw [List.mem_append, not_or] at hnot
    exact ⟨hnot.1, fun hexported => hnot.2 ((hmem x).mpr ⟨hexported, hnot.1⟩)⟩
  · intro h
    refine ⟨⟨hdeclared, hgenerated, fun x hx y hy hxy => ?_⟩, fun _ _ => nofun⟩
    obtain ⟨himport, hexported⟩ := h y hy
    rcases List.mem_append.mp hx with hx | hx
    · exact himport (hxy ▸ hx)
    · exact hexported (hxy ▸ ((hmem x).mp hx).1)

/-- Everything that a transformed module exports is declared at its top. -/
theorem mem_moduleScope_of_exported {n : Node} {specifiers : List ExportSpecifier}
    {source : Option ModuleSource} {x : ExportSpecifier} (hn : n ∈ assemble s items body)
    (hform : n.form = .exportNames specifiers source) (hx : x ∈ specifiers) :
    x.binding.text ∈ (moduleScope (assemble s items body)).single := by
  have hentry := mem_exportEntries_of_assemble hn hform hx
  rw [(moduleScope_assemble s items body).1.mem_iff]
  rcases List.mem_append.mp hentry with hentry | hentry
  · -- an exported binding is imported or declared
    have hbinding : x.binding.text ∈ exportedBindings items.exports :=
      mem_distinct.mpr (List.mem_map_of_mem (f := Prod.snd) (List.mem_filter.mp hentry).1)
    refine List.mem_append_left _ ?_
    by_cases himport : x.binding.text ∈ items.importBindings
    · exact List.mem_append_left _ himport
    · refine List.mem_append_right _ (List.mem_filter.mpr ⟨hbinding, ?_⟩)
      simpa using himport
  · -- the promise is declared wherever there is an export clause
    have hpromise : x.binding.text = s.settings.promiseName :=
      congrArg Prod.snd (List.mem_singleton.mp hentry)
    cases hasked : items.exports.isEmpty && !s.isImported with
    | true =>
      have hexport : n.isExport = true := by
        have hne : specifiers ≠ [] := List.ne_nil_of_mem hx
        simp [Node.isExport, hform, Parser.exportedNames, hne]
      rw [isExport_of_mem_assemble hasked n hn] at hexport
      cases hexport
    | false =>
      rw [hpromise, generatedNames, hasked]
      exact List.mem_append_right _ (List.mem_append_right _ (List.mem_singleton_self _))

end Transform

end Awaitless
