import Awaitless.Proofs.Build
import Awaitless.Proofs.Transform.Pieces

/-!
# What scanning finds out

A scan records for each module where its imports lead, in the order in which they first occur, and
in the record of each import who imports it. Both ends of an edge are noted while the scan is under
way, so none of them can be read off the program directly; here they are compared with the texts of
the modules. Imports that lead to no chunk have one end only, and there is a warning for each.

The order of the results is a part of what is said. Records stand in the order of the modules,
imports in order of first occurrence, importers by position, and warnings by module and by import.

* `FirstOccurrences`, `firstOccurrences_distinct` — the members of a list, each once, in the order
  in which they first occur.
* `Module.targets` — where the import declarations of a module lead.
* `Scanned` — records with edges that are noted at both ends, and warnings about the other imports.
* `scan_records` — chunks with distinct names that can be read are scanned in this way.
-/

namespace Awaitless

open Script

/-! ## First occurrences -/

/-- `ys` holds the members of `xs`, each once, in the order of their first occurrences. -/
structure FirstOccurrences [DecidableEq α] (xs ys : List α) : Prop where
  mem_iff : ∀ y, y ∈ ys ↔ y ∈ xs
  ordered : ys.Pairwise fun a b => xs.idxOf a < xs.idxOf b

/-- What is read next either was there before, or comes behind everything that was. -/
theorem ordered_insertLast [DecidableEq α] {seen rest ys : List α} {x : α}
    (hmem : ∀ y, y ∈ ys ↔ y ∈ seen)
    (hordered : ys.Pairwise fun a b =>
      (seen ++ x :: rest).idxOf a < (seen ++ x :: rest).idxOf b) :
    (insertLast ys x).Pairwise fun a b =>
      (seen ++ x :: rest).idxOf a < (seen ++ x :: rest).idxOf b := by
  unfold insertLast
  split
  · exact hordered
  · rename_i hx
    refine List.pairwise_append.mpr ⟨hordered, List.pairwise_singleton .., ?_⟩
    intro a ha b hb
    have hold : a ∈ seen := (hmem a).mp ha
    have hnew : x ∉ seen := fun h => hx ((hmem x).mpr h)
    rw [List.mem_singleton.mp hb, List.idxOf_append_of_mem hold,
      List.idxOf_append_of_notMem hnew]
    have := List.idxOf_lt_length_of_mem hold
    omega

/-- Going through a list and leaving out what was there before keeps the first occurrences, in their
order. -/
theorem firstOccurrences_distinct [DecidableEq α] (xs : List α) :
    FirstOccurrences xs (distinct xs) := by
  refine ⟨fun y => mem_distinct, ?_⟩
  -- `seen` is what has been read, and `ys` holds its members
  have hfold : ∀ rest seen ys : List α, seen ++ rest = xs → (∀ y, y ∈ ys ↔ y ∈ seen) →
      ys.Pairwise (fun a b => xs.idxOf a < xs.idxOf b) →
      (rest.foldl insertLast ys).Pairwise fun a b => xs.idxOf a < xs.idxOf b := by
    intro rest
    induction rest with
    | nil => exact fun _ _ _ _ h => h
    | cons x rest ih =>
      rintro seen ys rfl hmem hordered
      refine ih (seen ++ [x]) _ (List.append_cons ..).symm (fun y => ?_)
        (ordered_insertLast hmem hordered)
      rw [mem_insertLast, hmem, List.mem_append, List.mem_singleton]
  exact hfold xs [] [] rfl (fun _ => Iff.rfl) .nil

/-! ## Edges -/

/-- Where the import declarations of a module lead, for those that may lead into the build. -/
def Module.targets (m : Module) : List String :=
  m.program.importDeclarations.filterMap fun d => resolve? m.name d.source.name.toString

/-- The imports of a module are where its declarations lead, each once. -/
theorem Module.imports_eq_distinct (m : Module) : m.imports = distinct m.targets := by
  rw [imports, targets, Program.importDeclarations, List.filterMap_filterMap]
  congr 2
  funext s
  obtain ⟨span, form⟩ := s
  cases form with
  | importItem d => rfl
  | _ => rfl

/-- Importers are found in the order of the modules. -/
theorem pairwise_importersIn (modules : List Module) (name : String) :
    (importersIn modules name).Pairwise (· < ·) := by
  have hsub : ((modules.zipIdx.filter fun p => name ∈ p.1.imports).map (·.2)).Sublist
      (modules.zipIdx.map (·.2)) := List.filter_sublist.map _
  rw [List.zipIdx_map_snd] at hsub
  exact (List.pairwise_lt_range' (s := 0) (n := modules.length)).sublist hsub

/-! ## Warnings -/

/-- There is a warning for each import that no module has the name of. -/
theorem mem_missingModules {modules : List Module} {w : MissingModule} :
    w ∈ missingModules modules ↔
      ∃ m ∈ modules, w.importer = m.name ∧ w.imported ∈ m.imports ∧
        w.imported ∉ modules.map (·.name) := by
  unfold missingModules
  simp only [List.mem_flatMap, List.mem_map, List.mem_filter]
  refine exists_congr fun m => and_congr_right fun _ => ?_
  constructor
  · rintro ⟨target, ⟨htarget, hmissing⟩, rfl⟩
    exact ⟨rfl, htarget, by simpa using hmissing⟩
  · rintro ⟨himporter, himported, hmissing⟩
    exact ⟨w.imported, ⟨himported, by simpa using hmissing⟩, by rw [← himporter]⟩

/-! ## Scanned modules -/

/-- One warning belongs before another: its importer comes first, or notes its target first. -/
def Scan.WarnsBefore (s : Scan) (v w : MissingModule) : Prop :=
  ∃ (i k : Nat) (r t : Record), s.bundle.records[i]? = some r ∧ s.bundle.records[k]? = some t ∧
    r.name = v.importer ∧ t.name = w.importer ∧
      (i < k ∨ i = k ∧ r.imports.idxOf v.imported < r.imports.idxOf w.imported)

/-- What scanning finds out about some modules. -/
structure Scanned (modules : List Module) (s : Scan) : Prop where
  /-- There is one record for each module, in order. -/
  names : s.bundle.names = modules.map (·.name)
  /-- The edges of a module are the targets of its import declarations. -/
  imports : ∀ (i : Nat) (m : Module) (r : Record), modules[i]? = some m →
    s.bundle.records[i]? = some r → FirstOccurrences m.targets r.imports
  /-- Every edge into the build is noted at both of its ends. -/
  symmetric : ∀ (i k : Nat) (r t : Record), s.bundle.records[i]? = some r →
    s.bundle.records[k]? = some t → (t.name ∈ r.imports ↔ i ∈ t.importers)
  /-- Importers stand in order, each once. -/
  importers : ∀ r ∈ s.bundle.records, r.importers.Pairwise (· < ·) ∧
    ∀ i ∈ r.importers, i < modules.length
  /-- The flags are those of what blocks in the module itself. -/
  flags : ∀ (i : Nat) (m : Module) (r : Record), modules[i]? = some m →
    s.bundle.records[i]? = some r →
    r.blocking = blockingOf m.program.statements ∧
      (r.needsTransform = true ↔ r.blocking ≠ none) ∧
      (r.awaits = true ↔ r.blocking = some .topLevelAwait)
  /-- There is a warning for each edge that leaves the build. -/
  warnings : ∀ w, w ∈ s.warnings ↔ ∃ r ∈ s.bundle.records,
    w.importer = r.name ∧ w.imported ∈ r.imports ∧ w.imported ∉ s.bundle.names
  /-- The warnings stand in order, each once. -/
  ordered : s.warnings.Pairwise s.WarnsBefore

variable {modules : List Module}

/-- Warnings come by module, and by import within a module. -/
theorem pairwise_missingModules (hnodup : (modules.map (·.name)).Nodup) :
    (missingModules modules).Pairwise (scanModules modules).WarnsBefore := by
  have hrecord : ∀ (i : Nat) (m : Module), modules[i]? = some m →
      (scanModules modules).bundle.records[i]? = some (m.recordIn modules) := fun _ _ hm =>
    Bundle.getElem?_ofModules hnodup hm
  unfold missingModules
  refine List.pairwise_flatMap.mpr ⟨fun m hm => ?_, ?_⟩
  · -- the targets of one module are its imports in order, without some of them
    obtain ⟨i, hi⟩ := List.getElem?_of_mem hm
    have himports : m.imports.Pairwise fun a b => m.imports.idxOf a < m.imports.idxOf b := by
      have honce : m.imports.Nodup := nodup_distinct _
      have hself := firstOccurrences_distinct m.imports
      rw [distinct_eq_self honce] at hself
      exact hself.ordered
    refine List.pairwise_map.mpr ((himports.sublist List.filter_sublist).imp fun hlt => ?_)
    exact ⟨i, i, _, _, hrecord i m hi, hrecord i m hi, rfl, rfl, .inr ⟨rfl, hlt⟩⟩
  · refine List.pairwise_iff_getElem.mpr fun i k hi hk hlt v hv w hw => ?_
    obtain ⟨a, -, rfl⟩ := List.mem_map.mp hv
    obtain ⟨b, -, rfl⟩ := List.mem_map.mp hw
    exact ⟨i, k, _, _, hrecord i _ (List.getElem?_eq_getElem hi),
      hrecord k _ (List.getElem?_eq_getElem hk), rfl, rfl, .inl hlt⟩

section records

variable {i : Nat} {m : Module} {r : Record} (hnodup : (modules.map (·.name)).Nodup)
include hnodup

/-- There is one record for each module, and it is about this module. -/
theorem records_scanModules :
    (scanModules modules).bundle.records = modules.map (Module.recordIn modules) := by
  rw [scanModules, Bundle.ofModules_eq_map hnodup]

/-- Records stand under the names of their modules. -/
theorem names_scanModules : (scanModules modules).bundle.names = modules.map (·.name) := by
  rw [Bundle.names, records_scanModules hnodup, List.map_map]
  rfl

/-- The record at the position of a module is the record of this module. -/
theorem eq_recordIn_of_getElem? (hm : modules[i]? = some m)
    (h : (scanModules modules).bundle.records[i]? = some r) : r = m.recordIn modules :=
  Option.some.inj (h.symm.trans (Bundle.getElem?_ofModules hnodup hm))

end records

/-- All that is said about the records of a scan follows from what the record of one module holds. -/
theorem scanned_scanModules (hnodup : (modules.map (·.name)).Nodup) :
    Scanned modules (scanModules modules) where
  names := names_scanModules hnodup
  imports i m r hm hr := by
    rw [eq_recordIn_of_getElem? hnodup hm hr, Module.recordIn, Module.imports_eq_distinct]
    exact firstOccurrences_distinct _
  symmetric i k r t hr ht := by
    -- the importer notes an import if and only if the import notes the position of the importer
    obtain ⟨m, hm, rfl⟩ := Bundle.exists_of_getElem?_ofModules hnodup hr
    obtain ⟨target, -, rfl⟩ := Bundle.exists_of_getElem?_ofModules hnodup ht
    show target.name ∈ m.imports ↔ i ∈ importersIn modules target.name
    rw [mem_importersIn, hm]
    simp
  importers r hr := by
    rw [records_scanModules hnodup] at hr
    obtain ⟨m, -, rfl⟩ := List.mem_map.mp hr
    refine ⟨pairwise_importersIn modules m.name, fun i hi => ?_⟩
    obtain ⟨importer, himporter, -⟩ := mem_importersIn.mp hi
    exact (List.getElem?_eq_some_iff.mp himporter).1
  flags i m r hm hr := by
    rw [eq_recordIn_of_getElem? hnodup hm hr]
    -- nothing has been spread to this module yet
    exact ⟨rfl, Option.isSome_iff_ne_none, beq_iff_eq⟩
  warnings w := by
    rw [names_scanModules hnodup, records_scanModules hnodup]
    simp only [List.mem_map, exists_exists_and_eq_and]
    rw [← List.mem_map]
    exact mem_missingModules
  ordered := pairwise_missingModules hnodup

/-- Chunks with distinct names that can all be read are scanned, and the scan notes every edge at
both of its ends. -/
theorem scan_records {chunks : List Chunk} (hnodup : (chunks.map (·.name)).Nodup)
    (hread : ∀ c ∈ chunks, ∃ program, Source.check c.name c.text = .ok program) :
    ∃ modules s, chunks.map Chunk.read = modules.map .ok ∧ scan chunks = .ok s ∧
      Scanned modules s := by
  obtain ⟨modules, hmodules⟩ : ∃ modules : List Module,
      chunks.map Chunk.read = modules.map .ok := by
    -- the texts can be read one by one, whatever their names
    clear hnodup
    induction chunks with
    | nil => exact ⟨[], rfl⟩
    | cons c chunks ih =>
      obtain ⟨hc, hchunks⟩ := List.forall_mem_cons.mp hread
      obtain ⟨program, hprogram⟩ := hc
      obtain ⟨modules, hmodules⟩ := ih hchunks
      refine ⟨⟨c.name, c.text, program⟩ :: modules, ?_⟩
      rw [List.map_cons, List.map_cons, hmodules, Chunk.read, hprogram]
      rfl
  have hnames := names_of_read hmodules
  refine ⟨modules, scanModules modules, hmodules, ?_, scanned_scanModules (hnames ▸ hnodup)⟩
  rw [scan, readAll_eq_ok_iff.mpr ⟨hmodules, hnames ▸ hnodup⟩]
  rfl

/-- Two chunks that import each other, one of which imports itself, twice, and one that is
missing. -/
def tangled : List Chunk :=
  [⟨"a.js", "import './b.js'; import './a.js'; import './gone.js'; import './a.js'"⟩,
    ⟨"b.js", "import './a.js'; await 0"⟩]

/-- Modules that import themselves, import twice, and import what is not there. -/
theorem scan_records_tangled :
    (tangled.map (·.name)).Nodup ∧
      (∀ c ∈ tangled, ∃ program, Source.check c.name c.text = .ok program) ∧
        ∃ modules s, tangled.map Chunk.read = modules.map .ok ∧ scan tangled = .ok s ∧
          Scanned modules s := by
  have hnodup : (tangled.map (·.name)).Nodup := by decide +kernel
  have hread : ∀ c ∈ tangled, ∃ program, Source.check c.name c.text = .ok program := by
    have hok : ∀ c ∈ tangled, (Source.check c.name c.text).isOk = true := by decide +kernel
    exact fun c hc => exists_of_isOk (hok c hc)
  exact ⟨hnodup, hread, scan_records hnodup hread⟩

end Awaitless
