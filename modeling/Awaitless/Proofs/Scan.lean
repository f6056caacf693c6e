import Awaitless.Proofs.Bundle.Lookup
import Awaitless.Transform

/-!
# What modules say about each other

Scanning goes through the modules in order. Each one is recorded together with its imports, and is
noted in the records of those that it imports, which may come before or after it. The result is a
table that many steps have worked on; but for one record, only names decide what a step does to it
(`Record.note`). So a record can be followed alone, from its empty state through all modules: its
own module notes the imports, and the others can add an importer at most.

* `importersIn`, `Module.recordIn` — the record of a module, read off all modules of a build.
* `Record.note` — what one module notes in any record; it depends on names only.
* `Bundle.ofModules_eq_map` — of modules with distinct names, the bundle has the record of each.
-/

namespace Awaitless

/-- The positions of the modules that import a name statically, in order. -/
def importersIn (modules : List Module) (name : String) : List Nat :=
  (modules.zipIdx.filter fun (m, _) => name ∈ m.imports).map (·.2)

/-- The record of a module among the modules of a build. -/
def Module.recordIn (modules : List Module) (m : Module) : Record where
  name := m.name
  imports := m.imports
  importers := importersIn modules m.name
  blocking := m.blocking
  needsTransform := m.blocking.isSome
  awaits := m.blocking == some .topLevelAwait

/-- The importers of a name are the positions of the modules that import it. -/
theorem mem_importersIn {modules : List Module} {name : String} {i : Nat} :
    i ∈ importersIn modules name ↔ ∃ m, modules[i]? = some m ∧ name ∈ m.imports := by
  simp [importersIn, List.mem_zipIdx_iff_getElem?]

/-! ## One record -/

namespace Record

/-- What a module notes in a record: its imports, and with its own record what it contains. -/
def note (r : Record) (m : Module) (position : Nat) : Record :=
  let r := m.imports.foldl (edge m.name position) r
  if r.name = m.name then r.setBlocking m.blocking else r

/-- All imports of one module in a record. -/
theorem foldl_edge (importer : String) (position : Nat) (targets : List String) (r : Record) :
    targets.foldl (edge importer position) r =
      { r with
        imports := if r.name = importer then targets.foldl insertLast r.imports else r.imports
        importers :=
          if r.name ∈ targets then insertLast r.importers position else r.importers } := by
  induction targets generalizing r with
  | nil => simp
  | cons target rest ih =>
    rw [List.foldl_cons, ih, name_edge]
    unfold edge
    by_cases himporter : r.name = importer <;> by_cases htarget : r.name = target <;>
      by_cases hrest : r.name ∈ rest <;>
      simp_all [addImport, addImporter]

theorem name_foldl_edge (importer : String) (position : Nat) (targets : List String)
    (r : Record) : (targets.foldl (edge importer position) r).name = r.name := by
  rw [foldl_edge]

/-- A note renames nothing. -/
@[simp] theorem name_note (r : Record) (m : Module) (position : Nat) :
    (r.note m position).name = r.name := by
  unfold note
  dsimp only
  split
  · rw [name_setBlocking, name_foldl_edge]
  · rw [name_foldl_edge]

/-- In the records of others, a module notes only that it imports them. -/
theorem note_of_ne {r : Record} {m : Module} (position : Nat) (h : r.name ≠ m.name) :
    r.note m position =
      { r with
        importers :=
          if r.name ∈ m.imports then insertLast r.importers position else r.importers } := by
  rw [note, foldl_edge]
  dsimp only
  rw [if_neg h, if_neg h]

/-- A module notes what it contains in its own record. -/
theorem note_of_eq {r : Record} {m : Module} (position : Nat) (h : r.name = m.name) :
    r.note m position =
      ({ r with
        imports := m.imports.foldl insertLast r.imports
        importers :=
          if r.name ∈ m.imports then insertLast r.importers position else r.importers } :
        Record).setBlocking m.blocking := by
  rw [note, foldl_edge]
  dsimp only
  rw [if_pos h, if_pos h]

/-- The importers that some modules note. -/
def noteImporters (name : String) (importers : List Nat) (noted : List (Module × Nat)) :
    List Nat :=
  noted.foldl (fun is p => if name ∈ p.1.imports then insertLast is p.2 else is) importers

theorem noteImporters_cons (name : String) (importers : List Nat) (p : Module × Nat)
    (rest : List (Module × Nat)) :
    noteImporters name importers (p :: rest) =
      noteImporters name (if name ∈ p.1.imports then insertLast importers p.2 else importers)
        rest :=
  rfl

/-- Notes can be taken in two parts. -/
theorem noteImporters_append (name : String) (importers : List Nat)
    (before after : List (Module × Nat)) :
    noteImporters name importers (before ++ after) =
      noteImporters name (noteImporters name importers before) after :=
  List.foldl_append

/-- Modules with other names add importers and nothing else. -/
theorem foldl_note_of_forall_ne {noted : List (Module × Nat)} {r : Record}
    (h : ∀ p ∈ noted, r.name ≠ p.1.name) :
    noted.foldl (fun r p => r.note p.1 p.2) r =
      { r with importers := noteImporters r.name r.importers noted } := by
  induction noted generalizing r with
  | nil => rfl
  | cons p rest ih =>
    obtain ⟨hp, hrest⟩ := List.forall_mem_cons.mp h
    rw [List.foldl_cons, ih (by simpa using hrest), note_of_ne p.2 hp]
    rfl

end Record

/-- Noted one by one, the importers are those that were to be found. -/
theorem noteImporters_zipIdx (modules : List Module) (name : String) :
    Record.noteImporters name [] modules.zipIdx = importersIn modules name := by
  -- every position is noted once, so that no entry is dropped as a repetition
  have hnodup : (importersIn modules name).Nodup := by
    have hsub : ((modules.zipIdx.filter fun (m, _) => name ∈ m.imports).map (·.2)).Sublist
        (modules.zipIdx.map (·.2)) := List.filter_sublist.map _
    rw [List.zipIdx_map_snd] at hsub
    exact List.Nodup.sublist hsub List.nodup_range'
  rw [← distinct_eq_self hnodup, importersIn, distinct, List.foldl_map, List.foldl_filter]
  simp [Record.noteImporters]

/-- What all modules note in an empty record with the name of one of them. -/
theorem Record.foldl_note_empty {modules : List Module} {m : Module} (hmem : m ∈ modules)
    (hnodup : (modules.map (·.name)).Nodup) :
    modules.zipIdx.foldl (fun r p => r.note p.1 p.2) (Record.empty m.name) =
      m.recordIn modules := by
  -- the module's own note stands between those of the modules before and after it, which only
  -- add importers
  rw [Module.recordIn, ← noteImporters_zipIdx]
  obtain ⟨before, after, rfl⟩ := List.append_of_mem hmem
  rw [List.map_append, List.map_cons, List.nodup_append, List.nodup_cons] at hnodup
  obtain ⟨-, ⟨hafter, -⟩, hdisjoint⟩ := hnodup
  have hbefore : ∀ p ∈ before.zipIdx, m.name ≠ p.1.name := by
    intro p hp heq
    have hp := List.mem_map_of_mem (f := (·.name)) (List.fst_mem_of_mem_zipIdx hp)
    exact hdisjoint _ hp m.name (List.mem_cons_self ..) heq.symm
  have hafter : ∀ p ∈ after.zipIdx (before.length + 1), m.name ≠ p.1.name := by
    intro p hp heq
    exact hafter (heq ▸ List.mem_map_of_mem (List.fst_mem_of_mem_zipIdx hp))
  have himports : m.imports.foldl insertLast [] = m.imports :=
    distinct_eq_self (nodup_distinct _)
  rw [List.zipIdx_append, List.zipIdx_cons, Nat.zero_add, List.foldl_append, List.foldl_cons,
    foldl_note_of_forall_ne (r := empty m.name) hbefore, note_of_eq _ rfl,
    foldl_note_of_forall_ne, noteImporters_append, noteImporters_cons]
  · simp only [empty, setBlocking, himports, Bool.false_or]
    rfl
  · exact hafter

/-! ## The bundle of all modules -/

namespace Bundle

variable {b : Bundle} {m : Module} {i : Nat}

/-- All edges of a module, as a change of each record. -/
theorem foldl_addEdge_eq_map (hnodup : b.names.Nodup) (hname : b.names[i]? = some m.name)
    (targets : List String) :
    targets.foldl (fun b target => b.addEdge i target) b =
      ⟨b.records.map (targets.foldl (Record.edge m.name i))⟩ := by
  induction targets generalizing b with
  | nil => simp
  | cons target rest ih =>
    have hedge := addEdge_eq_map hnodup hname target
    have hnames := names_of_eq_map hedge fun r => r.name_edge ..
    rw [List.foldl_cons, ih (hnames ▸ hnodup) (hnames ▸ hname), hedge, List.map_map]
    rfl

/-- What one module notes, record by record. -/
theorem record_eq_map (hnodup : b.names.Nodup) (hname : b.names[i]? = some m.name) :
    b.record i m = ⟨b.records.map fun r => r.note m i⟩ := by
  have hedges := foldl_addEdge_eq_map hnodup hname m.imports
  have hnames := names_of_eq_map hedges fun r => r.name_foldl_edge ..
  rw [record, setBlocking, modify_eq_map (hnames ▸ hnodup) (hnames ▸ hname), hedges, List.map_map]
  rfl

/-- By induction on the modules: names do not change on the way, so that later positions stay right.
-/
theorem foldl_record_eq_map {noted : List (Module × Nat)} (hnodup : b.names.Nodup)
    (hname : ∀ p ∈ noted, b.names[p.2]? = some p.1.name) :
    noted.foldl (fun b (m, i) => b.record i m) b =
      ⟨b.records.map (noted.foldl fun r p => r.note p.1 p.2)⟩ := by
  induction noted generalizing b with
  | nil => simp
  | cons p rest ih =>
    obtain ⟨m, i⟩ := p
    obtain ⟨hp, hrest⟩ := List.forall_mem_cons.mp hname
    have hrecord : b.record i m = _ := record_eq_map hnodup hp
    have hnames := names_of_eq_map hrecord fun r => r.name_note ..
    rw [List.foldl_cons]
    show rest.foldl _ (b.record i m) = _
    rw [ih (hnames ▸ hnodup) (hnames ▸ hrest), hrecord, List.map_map]
    rfl

/-- The bundle of modules with distinct names has the record of each module. -/
theorem ofModules_eq_map {modules : List Module} (hnodup : (modules.map (·.name)).Nodup) :
    ofModules modules = ⟨modules.map (Module.recordIn modules)⟩ := by
  have hempty := ofNames_eq_map hnodup
  have hnames : (ofNames (modules.map (·.name))).names = modules.map (·.name) := by
    rw [hempty, names, List.map_map]
    exact List.map_id _
  have hposition : ∀ p ∈ modules.zipIdx,
      (ofNames (modules.map (·.name))).names[p.2]? = some p.1.name := by
    intro p hp
    rw [hnames, List.getElem?_map, List.mem_zipIdx_iff_getElem?.mp hp]
    rfl
  rw [ofModules, foldl_record_eq_map (by rwa [hnames]) hposition, hempty, List.map_map,
    List.map_map]
  congr 1
  exact List.map_congr_left fun m hm => Record.foldl_note_empty hm hnodup

end Bundle

end Awaitless
