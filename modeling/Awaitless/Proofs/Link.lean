import Awaitless.Proofs.Bundle.Operations
import Awaitless.Proofs.Scan

/-!
# The linked modules of a build

After scanning and propagation, a record says four things about its module: what it contains, what
it imports, who imports it, and whether it waits. All of this can be said of the modules directly,
and results about output chunks should not have to know about positions and queues. The bundle is
therefore replaced by a description of each record (`Linked`), proved once; what is known of
propagation on all bundles enters through `Bundle.reachable_ofModules`.

* `Bundle.reachable_ofModules` — the modules of a build make a bundle by the operations on bundles.
* `Linked` — a bundle that says about some modules what scanning and propagation find out.
* `linked_propagate` — scanning and propagation give such a bundle.
* `Linked.blocking_eq_none`, `Linked.hasImporters_iff` and others — what the flags of a module say
  about it and about the modules that it imports.
-/

namespace Awaitless

namespace Bundle

variable {b : Bundle} {modules : List Module}

/-! ## Scanning by operations -/

theorem length_addEdge (b : Bundle) (importer : Nat) (target : String) :
    (b.addEdge importer target).records.length = b.records.length := by
  unfold addEdge
  dsimp only
  split <;> simp [modify]

/-- Noting what a module says adds no record. -/
theorem length_record (b : Bundle) (i : Nat) (m : Module) :
    (b.record i m).records.length = b.records.length := by
  have hedges : ∀ (targets : List String) (b : Bundle),
      (targets.foldl (fun b target => b.addEdge i target) b).records.length =
        b.records.length := by
    intro targets
    induction targets with
    | nil => exact fun _ => rfl
    | cons target rest ih => exact fun b => (ih _).trans (length_addEdge ..)
  rw [record, setBlocking, modify, List.length_modify, hedges]

/-- Noting what a module says is a row of operations. -/
theorem Reachable.record {i : Nat} (h : b.Reachable) (hlt : i < b.records.length) (m : Module) :
    (b.record i m).Reachable := by
  have hedges : ∀ (targets : List String) (b : Bundle), b.Reachable → i < b.records.length →
      (targets.foldl (fun b target => b.addEdge i target) b).Reachable := by
    intro targets
    induction targets with
    | nil => exact fun _ h _ => h
    | cons target rest ih =>
      intro b h hlt
      have hedge : (b.apply (.edge i target)).Reachable := h.apply _
      rw [Bundle.apply, if_pos hlt] at hedge
      exact ih _ hedge (by rwa [length_addEdge])
  exact (hedges m.imports b h hlt).apply (.classify i m.blocking)

/-- Scanning builds its bundle by inserting all modules, and then adding edges and classifying. -/
theorem reachable_ofModules (hnodup : (modules.map (·.name)).Nodup) :
    (ofModules modules).Reachable := by
  have hfold : ∀ (noted : List (Module × Nat)) (b : Bundle), b.Reachable →
      (∀ p ∈ noted, p.2 < b.records.length) →
      (noted.foldl (fun b p => b.record p.2 p.1) b).Reachable := by
    intro noted
    induction noted with
    | nil => exact fun _ h _ => h
    | cons p rest ih =>
      intro b h hlt
      obtain ⟨hp, hrest⟩ := List.forall_mem_cons.mp hlt
      -- the bundle does not grow, so that all later positions stay inside of it
      refine ih _ (h.record hp p.1) fun q hq => ?_
      rw [length_record]
      exact hrest q hq
  refine hfold _ _ (.ofNames _) fun p hp => ?_
  rw [ofNames_eq_map hnodup, List.length_map, List.length_map]
  exact List.snd_lt_of_mem_zipIdx hp

/-! ## Edges and flags -/

/-- Whether the chunk with the given name is part of the bundle and waits. -/
def isWaiting (b : Bundle) (name : String) : Bool :=
  (b.get? name).any (·.awaits)

section ofModules

variable {i k : Nat} {m target : Module} (hnodup : (modules.map (·.name)).Nodup)
include hnodup

/-- Each module has its record at its own position. -/
theorem getElem?_ofModules (hm : modules[i]? = some m) :
    (ofModules modules).records[i]? = some (m.recordIn modules) := by
  rw [ofModules_eq_map hnodup, List.getElem?_map, hm]
  rfl

/-- There are no other records: each belongs to the module at its position. -/
theorem exists_of_getElem?_ofModules {r : Record} (h : (ofModules modules).records[i]? = some r) :
    ∃ m, modules[i]? = some m ∧ m.recordIn modules = r := by
  rwa [ofModules_eq_map hnodup, List.getElem?_map, Option.map_eq_some_iff] at h

/-- An import is an edge between the positions of two modules. -/
theorem importedBy_ofModules (htarget : modules[k]? = some target) (hm : modules[i]? = some m)
    (himports : target.name ∈ m.imports) : (ofModules modules).ImportedBy k i := by
  rw [ImportedBy, importersAt, getElem?_ofModules hnodup htarget]
  exact mem_importersIn.mpr ⟨m, hm, himports⟩

/-- Propagation keeps the names, in their order. -/
theorem names_propagate : (ofModules modules).propagate.names = modules.map (·.name) := by
  classical
  apply List.ext_getElem?
  intro i
  rw [propagate_eq_markWhere, names, List.getElem?_map, getElem?_markWhere,
    ofModules_eq_map hnodup, List.getElem?_map, List.getElem?_map]
  cases modules[i]? with
  | none => rfl
  | some m =>
    simp only [Option.map_some]
    split <;> rfl

/-- A module is found under its name at its position. -/
theorem get?_propagate (hm : modules[i]? = some m) :
    (ofModules modules).propagate.get? m.name = (ofModules modules).propagate.records[i]? := by
  have hsound := (reachable_ofModules hnodup).sound
  obtain ⟨r, hr, -, -, hname, -⟩ :=
    hsound.propagated.record i _ (getElem?_ofModules hnodup hm)
  rw [hr, get?_eq_some_iff (by rwa [names_propagate hnodup])]
  exact ⟨List.mem_of_getElem? hr, hname⟩

end ofModules

end Bundle

/-! ## Linked modules -/

/-- The record that a module has when waiting has spread. -/
structure Module.LinkedAs (modules : List Module) (m : Module) (r : Record) : Prop where
  name : r.name = m.name
  imports : r.imports = m.imports
  importers : r.importers = importersIn modules m.name
  blocking : r.blocking = m.blocking
  needsTransform : r.needsTransform = true ↔ m.blocking.isSome = true ∨ r.awaits = true
  awaits_of_blocking : m.blocking = some .topLevelAwait → r.awaits = true

/-- The bundle of some modules when waiting has spread. -/
structure Linked (modules : List Module) (b : Bundle) : Prop where
  /-- Every module has its record. -/
  record : ∀ m ∈ modules, ∃ r, b.get? m.name = some r ∧ m.LinkedAs modules r
  /-- There are no other records. -/
  module_of_get? : ∀ name r, b.get? name = some r → ∃ m ∈ modules, m.name = name
  /-- Whoever imports a waiting module waits. -/
  isWaiting_of_imports : ∀ m ∈ modules, ∀ target ∈ modules, target.name ∈ m.imports →
    b.isWaiting target.name = true → b.isWaiting m.name = true

section propagate

open Awaitless.Bundle

variable {modules : List Module} {m : Module} {i : Nat} (hnodup : (modules.map (·.name)).Nodup)
include hnodup

/-- A module waits in the end if it is reached from one that waits. -/
theorem isWaiting_propagate_iff_waitsBy (hm : modules[i]? = some m) :
    (ofModules modules).propagate.isWaiting m.name = true ↔ (ofModules modules).WaitsBy i := by
  obtain ⟨r, hr, hawaits, -⟩ := (reachable_ofModules hnodup).sound.propagated.record i _
    (getElem?_ofModules hnodup hm)
  rw [isWaiting, get?_propagate hnodup hm, hr]
  exact hawaits

/-- The record of a module says about it what it should. -/
theorem exists_linkedAs (hm : modules[i]? = some m) :
    ∃ r, (ofModules modules).propagate.records[i]? = some r ∧ m.LinkedAs modules r := by
  obtain ⟨r, hr, hawaits, hneeds, hname, himports, himporters, hblocking⟩ :=
    (reachable_ofModules hnodup).sound.propagated.record i _ (getElem?_ofModules hnodup hm)
  refine ⟨r, hr, hname, himports, himporters, hblocking, hneeds,
    fun hm' => hawaits.mpr (.of_mem_waiting (mem_waiting.mpr ?_))⟩
  refine ⟨_, getElem?_ofModules hnodup hm, ?_⟩
  rw [Module.recordIn, hm']
  rfl

/-- Scanning and propagation link the modules of a build. -/
theorem linked_propagate : Linked modules (ofModules modules).propagate := by
  refine ⟨fun m hmem => ?_, fun name r hr => ?_, fun m hmem target htarget himports h => ?_⟩
  · obtain ⟨i, hm⟩ := List.getElem?_of_mem hmem
    obtain ⟨r, hr, hlinked⟩ := exists_linkedAs hnodup hm
    exact ⟨r, by rw [get?_propagate hnodup hm, hr], hlinked⟩
  · have hmem : name ∈ (ofModules modules).propagate.names :=
      name_of_get? hr ▸ List.mem_map_of_mem (List.mem_of_find?_eq_some hr)
    rw [names_propagate hnodup] at hmem
    obtain ⟨m, hm, rfl⟩ := List.mem_map.mp hmem
    exact ⟨m, hm, rfl⟩
  · obtain ⟨i, hi⟩ := List.getElem?_of_mem hmem
    obtain ⟨k, hk⟩ := List.getElem?_of_mem htarget
    have hedge := importedBy_ofModules hnodup hk hi himports
    rw [isWaiting_propagate_iff_waitsBy hnodup hk] at h
    exact (isWaiting_propagate_iff_waitsBy hnodup hi).mpr (h.importedBy hedge)

end propagate

namespace Linked

variable {modules : List Module} {b : Bundle} {m target : Module} (h : Linked modules b)
include h

/-- Every record is that of a module. -/
theorem exists_of_mem_records (hnodup : b.names.Nodup) {r : Record} (hr : r ∈ b.records) :
    ∃ m ∈ modules, m.LinkedAs modules r := by
  have hget := (Bundle.get?_eq_some_iff hnodup).mpr ⟨hr, rfl⟩
  obtain ⟨m, hm, hname⟩ := h.module_of_get? _ _ hget
  obtain ⟨r', hr', hlinked⟩ := h.record m hm
  rw [hname, hget] at hr'
  cases hr'
  exact ⟨m, hm, hlinked⟩

/-- Only modules are transformed. -/
theorem module_of_isTransformed {name : String} (hname : b.isTransformed name = true) :
    ∃ m ∈ modules, m.name = name := by
  obtain ⟨r, hr, -⟩ := (Option.any_eq_true ..).mp hname
  exact h.module_of_get? name r hr

/-- A module that waits is transformed. -/
theorem isTransformed_of_isWaiting (hm : m ∈ modules) (hwaiting : b.isWaiting m.name = true) :
    b.isTransformed m.name = true := by
  obtain ⟨r, hr, hlinked⟩ := h.record m hm
  rw [Bundle.isWaiting, hr] at hwaiting
  rw [Bundle.isTransformed, hr]
  exact hlinked.needsTransform.mpr (.inr hwaiting)

/-- A module that is left untouched contains nothing that blocks. -/
theorem blocking_eq_none (hm : m ∈ modules) (huntouched : b.isTransformed m.name = false) :
    m.blocking = none := by
  obtain ⟨r, hr, hlinked⟩ := h.record m hm
  rw [Bundle.isTransformed, hr] at huntouched
  have hnot : ¬ (m.blocking.isSome = true ∨ r.awaits = true) := by
    rw [← hlinked.needsTransform]
    exact Bool.eq_false_iff.mp huntouched
  cases hblocking : m.blocking with
  | none => rfl
  | some _ => exact absurd (.inl (by rw [hblocking]; rfl)) hnot

/-- What a module that is left untouched imports does not wait. -/
theorem isWaiting_eq_false_of_imports (hm : m ∈ modules) (htarget : target ∈ modules)
    (himports : target.name ∈ m.imports) (huntouched : b.isTransformed m.name = false) :
    b.isWaiting target.name = false := by
  refine Bool.eq_false_iff.mpr fun hwaiting => ?_
  have hm' := h.isWaiting_of_imports m hm target htarget himports hwaiting
  rw [h.isTransformed_of_isWaiting hm hm'] at huntouched
  cases huntouched

/-- A module that does not wait is transformed for a dynamic import only. -/
theorem blocking_eq_dynamicImport (hm : m ∈ modules) (hwaiting : b.isWaiting m.name = false)
    (htransformed : b.isTransformed m.name = true) : m.blocking = some .dynamicImport := by
  obtain ⟨r, hr, hlinked⟩ := h.record m hm
  rw [Bundle.isWaiting, hr, Option.any_some] at hwaiting
  rw [Bundle.isTransformed, hr, Option.any_some, hlinked.needsTransform, hwaiting] at htransformed
  cases hblocking : m.blocking with
  | none =>
    rw [hblocking] at htransformed
    rcases htransformed with hnone | hfalse
    · cases hnone
    · cases hfalse
  | some blocking =>
    cases blocking with
    | dynamicImport => rfl
    | topLevelAwait =>
      rw [hlinked.awaits_of_blocking hblocking] at hwaiting
      cases hwaiting

/-- A module has importers exactly if another module, or the module itself, imports it. -/
theorem hasImporters_iff (hm : m ∈ modules) :
    (b.get? m.name).any (fun r => !r.importers.isEmpty) = true ↔
      ∃ x ∈ modules, m.name ∈ x.imports := by
  obtain ⟨r, hr, hlinked⟩ := h.record m hm
  rw [hr, Option.any_some, Bool.not_eq_true', List.isEmpty_eq_false_iff, hlinked.importers]
  constructor
  · intro hne
    obtain ⟨i, hi⟩ := List.exists_mem_of_ne_nil _ hne
    obtain ⟨x, hx, himports⟩ := mem_importersIn.mp hi
    exact ⟨x, List.mem_of_getElem? hx, himports⟩
  · rintro ⟨x, hx, himports⟩
    obtain ⟨i, hi⟩ := List.getElem?_of_mem hx
    exact List.ne_nil_of_mem (mem_importersIn.mpr ⟨x, hi, himports⟩)

end Linked

end Awaitless
