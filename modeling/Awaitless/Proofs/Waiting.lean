import Awaitless.Proofs.Transform.Surroundings
import Awaitless.Proofs.Build
import Mathlib.Data.Finset.Dedup

/-!
# The records of a build by name

Records hold positions, and waiting spreads from position to position. What comes out of this can
be said with names alone. A module waits if it blocks or imports a module that waits, which is an
induction over imports and not over a queue; and the importers of a record are the names that stand
at its positions. Said like this, a record depends on which modules there are, and two builds of the
same modules in different orders have the same records by name.

* `Module.Waits` — a module blocks, or imports a module that waits.
* `isWaiting_propagate_iff` — these are the modules that wait in the end.
* `NamedRecord`, `Bundle.named` — records with the names of importers in the place of positions.
* `map_toNamed_get?_congr` — they depend on which modules there are, and not on their order.
-/

namespace Awaitless

variable {modules modules' : List Module} {m : Module}

/-! ## Waiting -/

/-- A module waits that blocks itself, or imports a module that waits. -/
inductive Module.Waits (modules : List Module) : Module → Prop
  | blocks {m : Module} : m ∈ modules → m.blocking = some .topLevelAwait → Waits modules m
  | imports {m target : Module} : m ∈ modules → target.name ∈ m.imports → Waits modules target →
    Waits modules m

namespace Module.Waits

/-- Only modules of the build wait. -/
theorem mem (h : m.Waits modules) : m ∈ modules := by
  cases h with
  | blocks hm _ => exact hm
  | imports hm _ _ => exact hm

/-- More modules make no module stop waiting. -/
theorem of_subset (h : m.Waits modules) (hsubset : modules ⊆ modules') : m.Waits modules' := by
  induction h with
  | blocks hm hblocking => exact .blocks (hsubset hm) hblocking
  | imports hm himports _ ih => exact .imports (hsubset hm) himports ih

end Module.Waits

section propagate

open Awaitless.Bundle

variable (hnodup : (modules.map (·.name)).Nodup)
include hnodup

/-- What is reached from a waiting position is a module that waits. -/
theorem waits_of_waitsBy {i : Nat} (h : (ofModules modules).WaitsBy i) :
    ∃ m, modules[i]? = some m ∧ m.Waits modules := by
  obtain ⟨k, hk, path⟩ := h
  induction path with
  | refl =>
    obtain ⟨r, hr, hawaits⟩ := mem_waiting.mp hk
    obtain ⟨m, hm, rfl⟩ := exists_of_getElem?_ofModules hnodup hr
    exact ⟨m, hm, .blocks (List.mem_of_getElem? hm) (beq_iff_eq.mp hawaits)⟩
  | @tail k i _ hedge ih =>
    obtain ⟨target, htarget, hwaits⟩ := ih
    rw [ImportedBy, importersAt, getElem?_ofModules hnodup htarget] at hedge
    obtain ⟨m, hm, himports⟩ := mem_importersIn.mp hedge
    exact ⟨m, hm, .imports (List.mem_of_getElem? hm) himports hwaits⟩

/-- The modules that wait in the end are those that block, and those that import one that waits. -/
theorem isWaiting_propagate_iff (hm : m ∈ modules) :
    (ofModules modules).propagate.isWaiting m.name = true ↔ m.Waits modules := by
  constructor
  · intro h
    obtain ⟨i, hi⟩ := List.getElem?_of_mem hm
    rw [isWaiting_propagate_iff_waitsBy hnodup hi] at h
    -- the module at this position is this one
    obtain ⟨m', hm', hwaits⟩ := waits_of_waitsBy hnodup h
    rw [hi] at hm'
    cases hm'
    exact hwaits
  · intro h
    have hlinked := linked_propagate hnodup
    induction h with
    | blocks hm hblocking =>
      obtain ⟨r, hr, hrecord⟩ := hlinked.record _ hm
      rw [isWaiting, hr]
      exact hrecord.awaits_of_blocking hblocking
    | imports hm himports hwaits ih =>
      exact hlinked.isWaiting_of_imports _ hm _ hwaits.mem himports (ih hwaits.mem)

end propagate

/-! ## Records by name -/

/-- What a record says, with the names of all importers in the place of their positions. -/
structure NamedRecord where
  name : String
  imports : List String
  importers : Finset String
  blocking : Option Blocking
  needsTransform : Bool
  awaits : Bool
deriving DecidableEq

namespace Bundle

/-- A record of the bundle with the names of its importers. -/
def toNamed (b : Bundle) (r : Record) : NamedRecord :=
  ⟨r.name, r.imports, (b.importerNames r).toFinset, r.blocking, r.needsTransform, r.awaits⟩

/-- All records with the names of their importers. -/
def named (b : Bundle) : List NamedRecord :=
  b.records.map b.toNamed

/-- Under distinct names, the records are found by their names one after the other. -/
theorem named_eq_filterMap {b : Bundle} (hnodup : b.names.Nodup) :
    b.named = b.names.filterMap fun name => (b.get? name).map b.toNamed := by
  rw [named, names, List.filterMap_map, ← List.filterMap_eq_map]
  refine List.filterMap_congr fun r hr => ?_
  have hget : b.get? r.name = some r := (get?_eq_some_iff hnodup).mpr ⟨hr, rfl⟩
  simp only [Function.comp_apply, hget, Option.map_some]

/-- The importers of a record are the modules that import it. -/
theorem mem_importerNames_propagate (hnodup : (modules.map (·.name)).Nodup) {r : Record}
    (hr : m.LinkedAs modules r) {name : String} :
    name ∈ (ofModules modules).propagate.importerNames r ↔
      ∃ x ∈ modules, m.name ∈ x.imports ∧ x.name = name := by
  -- positions are read in a bundle that has the names of the modules, in their order
  have hname : ∀ i : Nat, ((ofModules modules).propagate.records[i]?).map (·.name) =
      (modules[i]?).map (·.name) := by
    intro i
    rw [← List.getElem?_map, ← List.getElem?_map, ← names_propagate hnodup]
    rfl
  rw [importerNames, hr.importers, List.mem_filterMap]
  simp only [hname, Option.map_eq_some_iff]
  constructor
  · rintro ⟨i, hi, x, hx, rfl⟩
    obtain ⟨x', hx', himports⟩ := mem_importersIn.mp hi
    rw [hx] at hx'
    cases hx'
    exact ⟨x, List.mem_of_getElem? hx, himports, rfl⟩
  · rintro ⟨x, hx, himports, rfl⟩
    obtain ⟨i, hi⟩ := List.getElem?_of_mem hx
    exact ⟨i, mem_importersIn.mpr ⟨x, hi, himports⟩, x, hi, rfl⟩

end Bundle

section order

open Awaitless.Bundle

variable (hnodup : (modules.map (·.name)).Nodup) (hnodup' : (modules'.map (·.name)).Nodup)
  (hmem : ∀ m, m ∈ modules ↔ m ∈ modules')
include hnodup hnodup' hmem

/-- Whether a module waits depends on which modules there are. -/
theorem isWaiting_propagate_congr (hm : m ∈ modules) :
    (ofModules modules).propagate.isWaiting m.name =
      (ofModules modules').propagate.isWaiting m.name := by
  rw [Bool.eq_iff_iff, isWaiting_propagate_iff hnodup hm,
    isWaiting_propagate_iff hnodup' ((hmem m).mp hm)]
  exact ⟨fun h => h.of_subset fun x => (hmem x).mp, fun h => h.of_subset fun x => (hmem x).mpr⟩

/-- What the record of a module says by name depends on which modules there are. -/
theorem toNamed_congr {r r' : Record} (hm : m ∈ modules)
    (hr : (ofModules modules).propagate.get? m.name = some r) (hrecord : m.LinkedAs modules r)
    (hr' : (ofModules modules').propagate.get? m.name = some r')
    (hrecord' : m.LinkedAs modules' r') :
    (ofModules modules).propagate.toNamed r = (ofModules modules').propagate.toNamed r' := by
  -- flags and importers are described by which modules there are; the rest is the module's own
  have hawaits : r.awaits = r'.awaits := by
    have hwaits := isWaiting_propagate_congr hnodup hnodup' hmem hm
    rwa [isWaiting, isWaiting, hr, hr', Option.any_some, Option.any_some] at hwaits
  have hneeds : r.needsTransform = r'.needsTransform := by
    rw [Bool.eq_iff_iff, hrecord.needsTransform, hrecord'.needsTransform, hawaits]
  have himporters : ((ofModules modules).propagate.importerNames r).toFinset =
      ((ofModules modules').propagate.importerNames r').toFinset := by
    ext x
    rw [List.mem_toFinset, List.mem_toFinset, mem_importerNames_propagate hnodup hrecord,
      mem_importerNames_propagate hnodup' hrecord']
    simp only [hmem]
  rw [toNamed, toNamed, hrecord.name, hrecord'.name, hrecord.imports, hrecord'.imports,
    himporters, hrecord.blocking, hrecord'.blocking, hneeds, hawaits]

/-- The record that is found under a name depends on which modules there are. -/
theorem map_toNamed_get?_congr (name : String) :
    ((ofModules modules).propagate.get? name).map (ofModules modules).propagate.toNamed =
      ((ofModules modules').propagate.get? name).map (ofModules modules').propagate.toNamed := by
  have hlinked := linked_propagate hnodup
  have hlinked' := linked_propagate hnodup'
  by_cases hname : ∃ m ∈ modules, m.name = name
  · obtain ⟨m, hm, rfl⟩ := hname
    obtain ⟨r, hr, hrecord⟩ := hlinked.record m hm
    obtain ⟨r', hr', hrecord'⟩ := hlinked'.record m ((hmem m).mp hm)
    rw [hr, hr', Option.map_some, Option.map_some,
      toNamed_congr hnodup hnodup' hmem hm hr hrecord hr' hrecord']
  · -- a name that no module has is found in neither bundle
    have hnone : (ofModules modules).propagate.get? name = none :=
      Option.eq_none_iff_forall_ne_some.mpr fun r hr => hname (hlinked.module_of_get? name r hr)
    have hnone' : (ofModules modules').propagate.get? name = none := by
      refine Option.eq_none_iff_forall_ne_some.mpr fun r hr => hname ?_
      obtain ⟨m, hm, hname'⟩ := hlinked'.module_of_get? name r hr
      exact ⟨m, (hmem m).mpr hm, hname'⟩
    rw [hnone, hnone']
    rfl

/-- Which chunks are transformed depends on which modules there are. -/
theorem isTransformed_propagate_congr (name : String) :
    (ofModules modules).propagate.isTransformed name =
      (ofModules modules').propagate.isTransformed name := by
  have h := congrArg (Option.any (·.needsTransform))
    (map_toNamed_get?_congr hnodup hnodup' hmem name)
  rwa [Option.any_map, Option.any_map] at h

/-- Which chunks are left untouched depends on which modules there are. -/
theorem isUntouched_propagate_congr (name : String) :
    (ofModules modules).propagate.isUntouched name =
      (ofModules modules').propagate.isUntouched name := by
  have h := congrArg (Option.any fun r => !r.needsTransform)
    (map_toNamed_get?_congr hnodup hnodup' hmem name)
  rwa [Option.any_map, Option.any_map] at h

end order

end Awaitless
