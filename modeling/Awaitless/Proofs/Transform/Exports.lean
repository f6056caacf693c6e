import Awaitless.Proofs.Script.Names
import Awaitless.Proofs.Transform.Assembly
import Awaitless.Proofs.Transform.Pieces
import Awaitless.Script.Parse

/-!
# What is exported

Exports are noted while a module is taken apart, each under its own name and with the binding behind
it, and a name that is noted again replaces what was noted before. The clause at the end lists them
with the promise. Whether there is a clause depends on whether anything was noted, so the notes are
compared with the items of the module: an item that exports something is one that leaves a note.

* `Node.isExport` — an item exports something.
* `Items.exports_eq_nil_iff` — nothing is noted exactly if no item of the module exports anything.
* `exportsCompletion_assemble_iff` — a transformed module exports its completion promise exactly if
  it exports something of its own or is imported; else it exports nothing at all.
-/

namespace Awaitless

open Script

/-! ## Items that export -/

namespace Script.Node

/-- Whether an item exports something. -/
def isExport (n : Node) : Bool :=
  match n.form with
  | .exportDefault _ => true
  | _ => !(Parser.exportedNames n).isEmpty

end Script.Node

namespace Transform

variable {moduleName : String}

/-! ## Noted exports -/

namespace Exports

/-- Something is noted then. -/
theorem insert_ne_nil (exported binding : String) (e : Exports) :
    e.insert exported binding ≠ [] := by
  cases e with
  | nil => exact List.cons_ne_nil _ _
  | cons entry rest =>
    rw [insert]
    split
    · exact List.cons_ne_nil _ _
    · exact List.cons_ne_nil _ _

/-- Noting a name loses no other name. -/
theorem mem_names_insert {exported binding name : String} {e : Exports} :
    name ∈ (e.insert exported binding).map (·.1) ↔ name = exported ∨ name ∈ e.map (·.1) := by
  induction e with
  | nil => exact List.mem_singleton.trans (or_iff_left nofun).symm
  | cons entry rest ih =>
    rw [insert]
    split
    · rename_i hname
      simp only [List.map_cons, List.mem_cons, hname]
      exact or_self_left.symm
    · rw [List.map_cons, List.mem_cons, ih, List.map_cons, List.mem_cons]
      exact or_left_comm

/-- A name that is exported again keeps its place, so no name is noted twice. -/
theorem nodup_insert {exported binding : String} {e : Exports} (h : (e.map (·.1)).Nodup) :
    ((e.insert exported binding).map (·.1)).Nodup := by
  induction e with
  | nil => simp [insert]
  | cons entry rest ih =>
    obtain ⟨hentry, hrest⟩ := List.nodup_cons.mp h
    rw [insert]
    split
    · rename_i hname
      rw [List.map_cons, ← hname]
      exact h
    · rename_i hname
      refine List.nodup_cons.mpr ⟨?_, ih hrest⟩
      rw [mem_names_insert]
      exact not_or.mpr ⟨hname, hentry⟩

/-- Any row of notes, by induction on the row. -/
theorem nodup_foldl_insert {β : Type} {exported binding : β → String} {xs : List β} {e : Exports}
    (h : (e.map (·.1)).Nodup) :
    ((xs.foldl (fun e x => e.insert (exported x) (binding x)) e).map (·.1)).Nodup := by
  induction xs generalizing e with
  | nil => exact h
  | cons x xs ih => exact ih (nodup_insert h)

/-- Of some exports, at least one is noted. -/
theorem foldl_insert_eq_nil_iff {β : Type} {exported binding : β → String} {xs : List β}
    {e : Exports} :
    xs.foldl (fun e x => e.insert (exported x) (binding x)) e = [] ↔ e = [] ∧ xs = [] := by
  induction xs generalizing e with
  | nil => exact (and_iff_left rfl).symm
  | cons x xs ih =>
    rw [List.foldl_cons, ih]
    exact iff_of_false (fun h => insert_ne_nil _ _ _ h.1) nofun

end Exports

namespace Items

variable {items items' : Items} {s : Node}

/-- The names that the program notes are those that the grammar finds. -/
theorem exportedNames_of_exportDeclaration {d : Node} {names : List String}
    (hs : s.form = .exportDeclaration d) (h : exportedBindings? d = some names) :
    Parser.exportedNames s = names := by
  have hname : ∀ {name : Option Node}, (declaredName? name).map ([·]) = some names →
      ∃ x, name = some x ∧ x.boundNames = names := by
    intro name h
    obtain ⟨n, hn, rfl⟩ := Option.map_eq_some_iff.mp h
    obtain ⟨x, rfl, hx⟩ := Option.bind_eq_some_iff.mp hn
    exact ⟨x, rfl, Node.boundNames_of_name? hx⟩
  unfold exportedBindings? at h
  unfold Parser.exportedNames
  rw [hs]
  dsimp only
  split at h
  · rename_i hd
    rw [hd]
    exact Option.some.inj h
  · rename_i hd
    obtain ⟨x, rfl, hx⟩ := hname h
    rw [hd]
    exact hx
  · rename_i hd
    obtain ⟨x, rfl, hx⟩ := hname h
    rw [hd]
    exact hx
  · cases h

/-- A statement exports nothing. -/
theorem isExport_of_isStatement (h : s.isStatement = true) : s.isExport = false := by
  obtain ⟨span, form⟩ := s
  cases form with
  | exportNames specifiers source => cases h
  | exportAll exported source => cases h
  | exportDeclaration d => cases h
  | exportDefault value => cases h
  | _ => rfl

/-- One item notes something exactly if it exports something. -/
theorem exports_add_eq_nil_iff (h : add moduleName items s = .ok items') :
    items'.exports = [] ↔ items.exports = [] ∧ s.isExport = false := by
  have hnames : ∀ {names : List String}, s.isExport = !names.isEmpty →
      (names = [] ↔ s.isExport = false) := by
    intro names hs
    rw [hs, Bool.not_eq_false', List.isEmpty_iff]
  have hdefault : ∀ {value : Node} {binding : String}, s.form = .exportDefault value →
      (items.exports.insert "default" binding = [] ↔ items.exports = [] ∧ s.isExport = false) := by
    intro value binding hform
    have hs : s.isExport = true := by rw [Node.isExport, hform]
    rw [hs]
    exact iff_of_false (Exports.insert_ne_nil _ _ _) nofun
  -- by what has become of the item
  cases becomes_of_add h with
  | importItem d hform =>
    have hs : s.isExport = false := by simp [Node.isExport, Parser.exportedNames, hform]
    exact (and_iff_left hs).symm
  | exportNames specifiers hform =>
    have hs : s.isExport = !(specifiers.map (·.exported.text)).isEmpty := by
      simp [Node.isExport, Parser.exportedNames, hform]
    rw [Exports.foldl_insert_eq_nil_iff, ← hnames hs, List.map_eq_nil_iff]
  | exportDeclaration d names hform hd =>
    have hs : s.isExport = !names.isEmpty := by
      rw [← exportedNames_of_exportDeclaration hform hd, Node.isExport, hform]
    show items.exports.insertAll names = [] ↔ _
    rw [Exports.insertAll, Exports.foldl_insert_eq_nil_iff, ← hnames hs]
  | namedDefault value name hform _ => exact hdefault hform
  | unnamedDefault value hform _ => exact hdefault hform
  | statement hs => exact (and_iff_left (isExport_of_isStatement hs)).symm

/-- No name is noted twice. -/
theorem nodup_exports_add (h : add moduleName items s = .ok items')
    (hitems : (items.exports.map (·.1)).Nodup) : (items'.exports.map (·.1)).Nodup := by
  cases becomes_of_add h with
  | importItem d _ => exact hitems
  | exportNames specifiers _ => exact Exports.nodup_foldl_insert hitems
  | exportDeclaration d names _ _ => exact Exports.nodup_foldl_insert hitems
  | namedDefault value name _ _ => exact Exports.nodup_insert hitems
  | unnamedDefault value _ _ => exact Exports.nodup_insert hitems
  | statement _ => exact hitems

/-- No name is noted twice. -/
theorem nodup_exports {source : String} {statements : List Node}
    (h : ofStatements moduleName source statements = .ok items) :
    (items.exports.map (·.1)).Nodup :=
  foldlM_eq_ok_induction (fun _ items => (items.exports.map (·.1)).Nodup)
    (fun _ _ _ _ ih hadd => nodup_exports_add hadd ih) [] .nil h

/-- Nothing is noted exactly if nothing is exported. -/
theorem exports_eq_nil_iff {source : String} {statements : List Node}
    (h : ofStatements moduleName source statements = .ok items) :
    items.exports = [] ↔ ∀ s ∈ statements, s.isExport = false := by
  refine foldlM_eq_ok_induction (fun seen items =>
    items.exports = [] ↔ ∀ s ∈ seen, s.isExport = false) ?_ [] (iff_of_true rfl nofun) h
  intro seen items s items' ih hadd
  rw [exports_add_eq_nil_iff hadd, ih, List.forall_mem_append, List.forall_mem_singleton]

end Items

/-! ## The end of the module -/

variable {s : Surroundings} {items : Items} {body : List Node} {p : Program}

theorem isExport_importItem {n : Node} {d : ImportDeclaration} (h : n.form = .importItem d) :
    n.isExport = false := by
  simp [Node.isExport, Parser.exportedNames, h]

/-- A declaration of names exports none of them by itself. -/
theorem isExport_of_mem_declare? {n : Node} {names : List String} (h : n ∈ Make.declare? names) :
    n.isExport = false := by
  unfold Make.declare? at h
  split at h
  · cases h
  · obtain rfl := Option.some.inj h
    rfl

/-- A module that exports nothing and that nobody imports ends with a statement. -/
theorem isExport_of_mem_assemble (h : (items.exports.isEmpty && !s.isImported) = true) :
    ∀ n ∈ assemble s items body, n.isExport = false := by
  intro n hn
  rcases List.mem_append.mp hn with hn | hn
  · rcases List.mem_append.mp hn with hn | hn
    · obtain ⟨d, hd⟩ := PromiseImports.exists_importItem_of_mem_threadFrom hn
      exact isExport_importItem (d := d) (by rw [hd]; rfl)
    · exact isExport_of_mem_declare? (Option.mem_toList.mp hn)
  · rw [ending, h] at hn
    rw [List.mem_singleton.mp hn]
    rfl

/-- A module that exports its completion promise has an item that exports. -/
theorem exists_isExport_of_exportsCompletion {promise : String} {completion : Node}
    (h : p.ExportsCompletion promise completion) : ∃ n ∈ p.statements, n.isExport = true := by
  obtain ⟨entries, hmem, hsuffix⟩ := h
  refine ⟨Make.exportNamed entries, hsuffix.mem (List.mem_cons_of_mem _ ?_), ?_⟩
  · exact List.mem_singleton_self _
  · have hne : entries ≠ [] := List.ne_nil_of_mem hmem
    simp [Node.isExport, Make.exportNamed, Node.made, Parser.exportedNames, hne]

/-- The completion promise is exported exactly if the module exports something of its own or is
imported. -/
theorem exportsCompletion_assemble_iff (hp : p.statements = assemble s items body) :
    p.ExportsCompletion s.settings.promiseName
        (completion (awaitedNames s items) (closure s body)) ↔
      items.exports ≠ [] ∨ s.isImported = true := by
  have hasked : (items.exports.isEmpty && !s.isImported) = false ↔
      items.exports ≠ [] ∨ s.isImported = true := by
    rw [Bool.and_eq_false_iff, List.isEmpty_eq_false_iff, Bool.not_eq_false']
  rw [← hasked]
  constructor
  · intro h
    obtain ⟨n, hn, hexport⟩ := exists_isExport_of_exportsCompletion h
    rw [hp] at hn
    refine Bool.eq_false_iff.mpr fun hnone => ?_
    rw [isExport_of_mem_assemble hnone n hn] at hexport
    cases hexport
  · exact exportsCompletion_assemble hp

/-- The entries of all export clauses of a transformed module stand in its last statement. -/
theorem mem_exportEntries_of_assemble {n : Node} {specifiers : List ExportSpecifier}
    {source : Option ModuleSource} {x : ExportSpecifier} (hn : n ∈ assemble s items body)
    (hform : n.form = .exportNames specifiers source) (hx : x ∈ specifiers) :
    (x.exported.text, x.binding.text) ∈ exportEntries items.exports s.settings.promiseName := by
  -- neither an import nor a declaration is an export clause
  rcases List.mem_append.mp hn with hn | hn
  · rcases List.mem_append.mp hn with hn | hn
    · obtain ⟨d, hd⟩ := PromiseImports.exists_importItem_of_mem_threadFrom hn
      rw [hd] at hform
      cases hform
    · have hn := Option.mem_toList.mp hn
      unfold Make.declare? at hn
      split at hn
      · cases hn
      · obtain rfl := Option.some.inj hn
        cases hform
  · unfold ending at hn
    split at hn
    · rw [List.mem_singleton.mp hn] at hform
      cases hform
    · rcases List.mem_cons.mp hn with rfl | hn
      · cases hform
      · rw [List.mem_singleton.mp hn] at hform
        cases hform
        obtain ⟨entry, hentry, rfl⟩ := List.mem_map.mp hx
        rw [Make.text_outerName]
        exact hentry

/-- Under the name of the promise, nothing else is exported. -/
theorem eq_of_mem_exportEntries {exports : Exports} {promise : String} {entry : String × String}
    (h : entry ∈ exportEntries exports promise) (hname : entry.1 = promise) :
    entry = (promise, promise) := by
  rcases List.mem_append.mp h with h | h
  · have hne := (List.mem_filter.mp h).2
    rw [decide_eq_true_eq] at hne
    exact absurd hname hne
  · exact List.mem_singleton.mp h

/-- No name stands in the export clause twice. -/
theorem nodup_exportEntries {exports : Exports} {promise : String}
    (h : (exports.map (·.1)).Nodup) : ((exportEntries exports promise).map (·.1)).Nodup := by
  have hkept : ((exports.filter fun entry => entry.1 ≠ promise).map (·.1)).Nodup :=
    h.sublist (List.filter_sublist.map _)
  rw [exportEntries, List.map_append]
  refine List.nodup_append.mpr ⟨hkept, by simp, fun x hx y hy hxy => ?_⟩
  obtain ⟨entry, hentry, rfl⟩ := List.mem_map.mp hx
  have hne := (List.mem_filter.mp hentry).2
  rw [decide_eq_true_eq] at hne
  exact hne (hxy.trans (List.mem_singleton.mp hy))

/-- What is no export exports no name. -/
theorem exportedNames_of_isExport {n : Node} (h : n.isExport = false) :
    Parser.exportedNames n = [] := by
  unfold Node.isExport at h
  split at h
  · cases h
  · exact List.isEmpty_iff.mp ((Bool.not_eq_false' ..).mp h)

theorem exportedNames_exportNamed (pairs : List (String × String)) :
    Parser.exportedNames (Make.exportNamed pairs) = pairs.map (·.1) := by
  show List.map _ (List.map _ pairs) = _
  rw [List.map_map]
  exact List.map_congr_left fun pair _ => Make.text_outerName pair.1

/-- What a transformed module exports are the entries of its export clause. -/
theorem exportedNames_assemble (s : Surroundings) (items : Items) (body : List Node) :
    (assemble s items body).flatMap Parser.exportedNames =
      if items.exports.isEmpty && !s.isImported then []
      else (exportEntries items.exports s.settings.promiseName).map (·.1) := by
  -- the first two sections export nothing
  have himports : ∀ n ∈ (PromiseImports.thread s.bundle s.moduleName s.settings items.imports).1,
      Parser.exportedNames n = [] := by
    intro n hn
    obtain ⟨d, hd⟩ := PromiseImports.exists_importItem_of_mem_threadFrom hn
    rw [hd]
    rfl
  have hdeclared : ∀ n ∈ (Make.declare? (hoistedNames items)).toList,
      Parser.exportedNames n = [] := fun n hn =>
    exportedNames_of_isExport (isExport_of_mem_declare? (Option.mem_toList.mp hn))
  rw [assemble_eq, List.flatMap_append, List.flatMap_append, List.flatMap_eq_nil_iff.mpr himports,
    List.flatMap_eq_nil_iff.mpr hdeclared, List.append_nil, List.nil_append]
  unfold ending
  split
  · rfl
  · rw [List.flatMap_cons, List.flatMap_singleton, exportedNames_exportNamed]
    rfl

/-- No transformed module exports a name twice. -/
theorem nodup_exportedNames_assemble (h : (items.exports.map (·.1)).Nodup) :
    ((assemble s items body).flatMap Parser.exportedNames).Nodup := by
  rw [exportedNames_assemble]
  split
  · exact .nil
  · exact nodup_exportEntries h

end Transform

end Awaitless
