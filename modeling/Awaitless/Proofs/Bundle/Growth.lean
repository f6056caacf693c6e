import Awaitless.Proofs.Bundle.Lookup
import Awaitless.Proofs.Bundle.Operations

/-!
# Bundles grow

Whatever is done to a bundle, its records stay where they are and keep their names, and what is
noted in them stays noted. Growth is a preorder, so one lemma for each change of a record lifts to
every operation, and from one operation to any row of them.

Edges are noted twice, in the record of the importer and in that of the import. That both notes
agree is `Coherent`. An operation keeps it because bundles grow: an importer that was noted has
noted the import, and neither note is ever lost, so only what an operation adds has to be looked at.
It adds at most one pair of notes, the import first.

* `Record.Grows`, `Bundle.Grows` — a record and a bundle later on; every operation makes a bundle
  grow.
* `Bundle.Coherent` — names are distinct, and whoever is noted as an importer notes the import.
* `Bundle.Reachable.coherent` — every operation keeps a bundle coherent.
* `Bundle.mem_names_foldl_apply` — a bundle has the names that have been inserted.
-/

namespace Awaitless

/-! ## Records -/

/-- How a record may look later on. -/
structure Record.Grows (r later : Record) : Prop where
  name : later.name = r.name
  imports : r.imports ⊆ later.imports
  needsTransform : r.needsTransform = true → later.needsTransform = true
  awaits : r.awaits = true → later.awaits = true

namespace Record.Grows

variable {r s t : Record}

theorem refl (r : Record) : r.Grows r :=
  ⟨rfl, List.Subset.refl _, id, id⟩

theorem trans (h : r.Grows s) (h' : s.Grows t) : r.Grows t where
  name := h'.name.trans h.name
  imports := List.Subset.trans h.imports h'.imports
  needsTransform hneeds := h'.needsTransform (h.needsTransform hneeds)
  awaits hawaits := h'.awaits (h.awaits hawaits)

/-- A verdict turns flags on, and leaves the edges alone. -/
theorem setBlocking (r : Record) (blocking : Option Blocking) :
    r.Grows (r.setBlocking blocking) where
  name := rfl
  imports := List.Subset.refl _
  needsTransform h := by
    show (r.needsTransform || blocking.isSome) = true
    rw [h, Bool.true_or]
  awaits h := by
    show (r.awaits || blocking == some .topLevelAwait) = true
    rw [h, Bool.true_or]

theorem mark (r : Record) : r.Grows r.mark where
  name := rfl
  imports := List.Subset.refl _
  needsTransform h := by
    show (r.needsTransform || !r.awaits) = true
    rw [h, Bool.true_or]
  awaits _ := rfl

/-- An import is noted behind all others, and once only. -/
theorem addImport (r : Record) (target : String) : r.Grows (r.addImport target) where
  name := rfl
  imports := fun _ hx => mem_insertLast.mpr (.inl hx)
  needsTransform := id
  awaits := id

theorem addImporter (r : Record) (position : Nat) : r.Grows (r.addImporter position) :=
  ⟨rfl, List.Subset.refl _, id, id⟩

end Record.Grows

namespace Bundle

variable {b c d : Bundle} {i k : Nat}

/-! ## Bundles -/

/-- How a bundle may look later on: every record is still where it was. -/
def Grows (b later : Bundle) : Prop :=
  ∀ (i : Nat) (r : Record), b.records[i]? = some r →
    ∃ r', later.records[i]? = some r' ∧ r.Grows r'

/-- Every record of a changed bundle is one that was there, changed or not. -/
theorem exists_of_mem_modify {f : Record → Record} {r' : Record}
    (h : r' ∈ (b.modify i f).records) :
    ∃ j r, b.records[j]? = some r ∧ r' = if i = j then f r else r := by
  obtain ⟨j, hj⟩ := List.getElem?_of_mem h
  replace hj : (b.records.modify i f)[j]? = some r' := hj
  rw [List.getElem?_modify, Option.map_eq_map, Option.map_eq_some_iff] at hj
  obtain ⟨r, hr, heq⟩ := hj
  exact ⟨j, r, hr, heq.symm⟩

namespace Grows

theorem refl (b : Bundle) : b.Grows b :=
  fun _ r hr => ⟨r, hr, .refl r⟩

theorem trans (h : b.Grows c) (h' : c.Grows d) : b.Grows d := by
  intro i r hr
  obtain ⟨s, hs, hrs⟩ := h i r hr
  obtain ⟨t, ht, hst⟩ := h' i s hs
  exact ⟨t, ht, hrs.trans hst⟩

/-- A change under which records grow, made at one position. -/
theorem modify (b : Bundle) (i : Nat) {f : Record → Record} (hf : ∀ r : Record, r.Grows (f r)) :
    b.Grows (b.modify i f) := by
  intro j r hr
  show ∃ r', (b.records.modify i f)[j]? = some r' ∧ r.Grows r'
  rw [List.getElem?_modify, hr]
  by_cases hij : i = j
  · exact ⟨f r, by simp [hij], hf r⟩
  · exact ⟨r, by simp [hij], .refl r⟩

/-- A record that is added stands behind all others. -/
theorem insert (b : Bundle) (name : String) : b.Grows (b.insert name).2 := by
  unfold Bundle.insert
  split
  · exact refl b
  · intro i r hr
    have hlt := (List.getElem?_eq_some_iff.mp hr).1
    exact ⟨r, (List.getElem?_append_left hlt).trans hr, .refl r⟩

/-- An edge is two changes, one of the importer and one of the import. -/
theorem addEdge (b : Bundle) (importer : Nat) (target : String) :
    b.Grows (b.addEdge importer target) := by
  have himport := modify b importer fun r => Record.Grows.addImport r target
  unfold Bundle.addEdge
  dsimp only
  split
  · exact himport.trans (modify _ _ fun r => Record.Grows.addImporter r importer)
  · exact himport

theorem markWhere (b : Bundle) (p : Nat → Prop) [DecidablePred p] : b.Grows (b.markWhere p) := by
  intro i r hr
  rw [getElem?_markWhere, hr, Option.map_some]
  split
  · exact ⟨_, rfl, .mark r⟩
  · exact ⟨_, rfl, .refl r⟩

/-- Every operation lets a bundle grow. -/
theorem apply (b : Bundle) (operation : Operation) : b.Grows (b.apply operation) := by
  cases operation with
  | insert name => exact insert b name
  | edge importer target =>
    show b.Grows (if importer < b.records.length then b.addEdge importer target else b)
    split
    · exact addEdge b importer target
    · exact refl b
  | classify position blocking =>
    exact modify b position fun r => Record.Grows.setBlocking r blocking
  | mark position => exact modify b position Record.Grows.mark
  | propagate =>
    -- propagation marks records, and marking is growth
    classical
    rw [Bundle.apply, propagate_eq_markWhere]
    exact markWhere b _

/-- Any row of operations, by induction on the row. -/
theorem foldl_apply (operations : List Operation) (b : Bundle) :
    b.Grows (operations.foldl Bundle.apply b) := by
  induction operations generalizing b with
  | nil => exact refl b
  | cons operation operations ih => exact (apply b operation).trans (ih _)

end Grows

/-! ## Names -/

/-- The name that an operation inserts. -/
def Operation.inserted? : Operation → Option String
  | .insert name => some name
  | _ => none

/-- Whatever name is looked up successfully is there. -/
theorem mem_names_of_indexOf? {name : String} (h : b.indexOf? name = some i) : name ∈ b.names :=
  List.mem_of_getElem? (names_of_indexOf? h)

/-- Inserting a name adds it and no other. -/
theorem mem_names_insert {name x : String} :
    x ∈ (b.insert name).2.names ↔ x ∈ b.names ∨ x = name := by
  unfold insert
  split
  · rename_i hknown
    refine ⟨.inl, fun h => h.elim id fun hx => ?_⟩
    rw [hx]
    exact mem_names_of_indexOf? hknown
  · rw [names, List.map_append, List.mem_append]
    exact or_congr_right List.mem_singleton

/-- An edge renames nothing. -/
theorem names_addEdge (importer : Nat) (target : String) :
    (b.addEdge importer target).names = b.names := by
  have himport : (b.modify importer (·.addImport target)).names = b.names :=
    names_modify _ fun _ => rfl
  unfold addEdge
  dsimp only
  split
  · rw [names_modify (·.addImporter importer) fun _ => rfl, himport]
  · exact himport

theorem names_markWhere (b : Bundle) (p : Nat → Prop) [DecidablePred p] :
    (b.markWhere p).names = b.names := by
  apply List.ext_getElem?
  intro i
  rw [names, List.getElem?_map, getElem?_markWhere, names, List.getElem?_map, Option.map_map]
  refine Option.map_congr fun r _ => ?_
  show (if p i then r.mark else r).name = r.name
  split <;> rfl

/-- Only insertions name chunks. -/
theorem mem_names_apply {operation : Operation} {x : String} :
    x ∈ (b.apply operation).names ↔ x ∈ b.names ∨ x ∈ operation.inserted? := by
  cases operation with
  | insert name =>
    rw [Operation.inserted?, Option.mem_some, eq_comm]
    exact mem_names_insert
  | edge importer target =>
    -- all other operations keep the names, and insert none
    have hnames : (b.apply (.edge importer target)).names = b.names := by
      rw [apply]
      split
      · exact names_addEdge importer target
      · rfl
    simp [hnames, Operation.inserted?]
  | classify position blocking =>
    have hnames : (b.apply (.classify position blocking)).names = b.names :=
      names_modify _ fun _ => rfl
    simp [hnames, Operation.inserted?]
  | mark position =>
    have hnames : (b.apply (.mark position)).names = b.names := names_modify _ fun _ => rfl
    simp [hnames, Operation.inserted?]
  | propagate =>
    classical
    have hnames : (b.apply .propagate).names = b.names := by
      rw [apply, propagate_eq_markWhere]
      exact names_markWhere b _
    simp [hnames, Operation.inserted?]

/-- After a row of operations, the names are the old ones and those that were inserted. -/
theorem mem_names_foldl_apply (operations : List Operation) {x : String} :
    x ∈ (operations.foldl apply b).names ↔
      x ∈ b.names ∨ x ∈ operations.filterMap Operation.inserted? := by
  induction operations generalizing b with
  | nil => simp
  | cons operation operations ih =>
    rw [List.foldl_cons, ih, mem_names_apply, or_assoc]
    refine or_congr_right ?_
    rw [List.mem_filterMap, List.mem_filterMap, List.exists_mem_cons_iff]
    rfl

/-- A bundle with some names is one in which they have been inserted. -/
theorem ofNames_eq_foldl_apply (names : List String) :
    ofNames names = (names.map Operation.insert).foldl apply empty := by
  rw [List.foldl_map]
  rfl

/-- A bundle made from names has exactly these. -/
theorem mem_names_ofNames {names : List String} {x : String} :
    x ∈ (ofNames names).names ↔ x ∈ names := by
  have hinserted : (names.map Operation.insert).filterMap Operation.inserted? = names := by
    rw [List.filterMap_map]
    exact List.filterMap_some
  rw [ofNames_eq_foldl_apply, mem_names_foldl_apply, hinserted]
  exact or_iff_right List.not_mem_nil

/-! ## Coherence -/

/-- Names are distinct, and every importer that is noted is the position of a chunk that notes this
very import. -/
structure Coherent (b : Bundle) : Prop where
  nodup_names : b.names.Nodup
  importers : ∀ r ∈ b.records, r.importers.Nodup
  edges : ∀ r ∈ b.records, ∀ k ∈ r.importers,
    ∃ importer, b.records[k]? = some importer ∧ r.name ∈ importer.imports

namespace Coherent

/-- A chunk that notes an import notes it later on. -/
theorem exists_importer_of_grows (hgrows : b.Grows c) {name : String}
    (h : ∃ importer, b.records[k]? = some importer ∧ name ∈ importer.imports) :
    ∃ importer, c.records[k]? = some importer ∧ name ∈ importer.imports := by
  obtain ⟨importer, hk, hname⟩ := h
  obtain ⟨importer', hk', himporter⟩ := hgrows k importer hk
  exact ⟨importer', hk', himporter.imports hname⟩

/-- A bundle that grows stays coherent if no importers are added and no name is taken. -/
theorem of_grows (h : b.Coherent) (hgrows : b.Grows c) (hnames : c.names.Nodup)
    (hrecords : ∀ r' ∈ c.records,
      r'.importers = [] ∨ ∃ r ∈ b.records, r'.name = r.name ∧ r'.importers = r.importers) :
    c.Coherent := by
  refine ⟨hnames, fun r' hr' => ?_, fun r' hr' k hk => ?_⟩
  · -- no importer is listed twice
    rcases hrecords r' hr' with hnone | ⟨r, hr, -, himporters⟩
    · rw [hnone]
      exact .nil
    · rw [himporters]
      exact h.importers r hr
  · -- who is listed was listed before, and has noted the import ever since
    rcases hrecords r' hr' with hnone | ⟨r, hr, hname, himporters⟩
    · rw [hnone] at hk
      cases hk
    · rw [hname]
      rw [himporters] at hk
      exact exists_importer_of_grows hgrows (h.edges r hr k hk)

/-- A change that leaves the importers alone leaves a coherent bundle coherent. -/
theorem modify {f : Record → Record} (h : b.Coherent) (i : Nat)
    (hf : ∀ r : Record, r.Grows (f r)) (himporters : ∀ r : Record, (f r).importers = r.importers) :
    (b.modify i f).Coherent := by
  refine h.of_grows (.modify b i hf) ?_ fun r' hr' => .inr ?_
  · rw [names_modify f fun r => (hf r).name]
    exact h.nodup_names
  · obtain ⟨j, r, hr, rfl⟩ := exists_of_mem_modify hr'
    refine ⟨r, List.mem_of_getElem? hr, ?_⟩
    split
    · exact ⟨(hf r).name, himporters r⟩
    · exact ⟨rfl, rfl⟩

/-- An importer may be added where the import has been noted. -/
theorem addImporter {target : String} (h : b.Coherent) (htarget : b.names[i]? = some target)
    (hk : ∃ importer, b.records[k]? = some importer ∧ target ∈ importer.imports) :
    (b.modify i (·.addImporter k)).Coherent := by
  have hgrows : b.Grows (b.modify i (·.addImporter k)) :=
    .modify b i fun r => Record.Grows.addImporter r k
  -- only records with the name of the import are changed
  have hrecords : ∀ r' ∈ (b.modify i (·.addImporter k)).records,
      r' ∈ b.records ∨ ∃ r ∈ b.records, r.name = target ∧ r' = r.addImporter k := by
    intro r' hr'
    obtain ⟨j, r, hr, rfl⟩ := exists_of_mem_modify hr'
    split
    · rename_i hij
      rw [names, List.getElem?_map, hij, hr] at htarget
      exact .inr ⟨r, List.mem_of_getElem? hr, Option.some.inj htarget, rfl⟩
    · exact .inl (List.mem_of_getElem? hr)
  refine ⟨?_, fun r' hr' => ?_, fun r' hr' j hj => exists_importer_of_grows hgrows ?_⟩
  · rw [names_modify (·.addImporter k) fun _ => rfl]
    exact h.nodup_names
  · rcases hrecords r' hr' with hr | ⟨r, hr, -, rfl⟩
    · exact h.importers r' hr
    · exact nodup_insertLast k (h.importers r hr)
  · rcases hrecords r' hr' with hr | ⟨r, hr, hname, rfl⟩
    · exact h.edges r' hr j hj
    · rcases mem_insertLast.mp hj with hj | rfl
      · exact h.edges r hr j hj
      · rw [Record.name_addImporter, hname]
        exact hk

/-- An edge is noted with the importer before it is noted with the import. -/
theorem addEdge (h : b.Coherent) {importer : Nat} (hlt : importer < b.records.length)
    (target : String) : (b.addEdge importer target).Coherent := by
  have himport : (b.modify importer (·.addImport target)).Coherent :=
    h.modify importer (fun r => Record.Grows.addImport r target) fun _ => rfl
  -- the import is noted before the importer is
  have hnoted : ∃ r, (b.modify importer (·.addImport target)).records[importer]? = some r ∧
      target ∈ r.imports := by
    refine ⟨b.records[importer].addImport target, ?_, mem_insertLast.mpr (.inr rfl)⟩
    show (b.records.modify importer _)[importer]? = _
    rw [List.getElem?_modify, List.getElem?_eq_getElem hlt]
    simp
  unfold Bundle.addEdge
  dsimp only
  split
  · exact himport.addImporter (names_of_indexOf? ‹_›) hnoted
  · exact himport

/-- A record is added only under a name that no record has. -/
theorem insert (h : b.Coherent) (name : String) : (b.insert name).2.Coherent := by
  have hgrows := Grows.insert b name
  unfold Bundle.insert at hgrows ⊢
  split
  · exact h
  · rename_i hnone
    rw [hnone] at hgrows
    have hfresh : name ∉ b.names := by
      intro hmem
      obtain ⟨r, hr, hname⟩ := List.mem_map.mp hmem
      have hne := List.findIdx?_eq_none_iff.mp hnone r hr
      exact beq_eq_false_iff_ne.mp hne hname
    -- the new record has a new name and no importers
    refine h.of_grows hgrows ?_ fun r hr => ?_
    · rw [names, List.map_append]
      refine List.nodup_append.mpr ⟨h.nodup_names, List.nodup_singleton _, fun x hx y hy hxy => ?_⟩
      obtain rfl : x = name := hxy.trans (List.mem_singleton.mp hy)
      exact hfresh hx
    · rcases List.mem_append.mp hr with hr | hr
      · exact .inr ⟨r, hr, rfl, rfl⟩
      · rw [List.mem_singleton.mp hr]
        exact .inl rfl

theorem markWhere (h : b.Coherent) (p : Nat → Prop) [DecidablePred p] :
    (b.markWhere p).Coherent := by
  have hsame : ∀ (i : Nat) (r : Record), (if p i then r.mark else r).name = r.name ∧
      (if p i then r.mark else r).importers = r.importers := by
    intro i r
    split <;> exact ⟨rfl, rfl⟩
  refine h.of_grows (.markWhere b p) ?_ fun r' hr' => .inr ?_
  · rw [names_markWhere]
    exact h.nodup_names
  · obtain ⟨i, hi⟩ := List.getElem?_of_mem hr'
    rw [getElem?_markWhere, Option.map_eq_some_iff] at hi
    obtain ⟨r, hr, rfl⟩ := hi
    exact ⟨r, List.mem_of_getElem? hr, hsame i r⟩

/-- Every operation keeps a bundle coherent. -/
theorem apply (h : b.Coherent) (operation : Operation) : (b.apply operation).Coherent := by
  cases operation with
  | insert name => exact h.insert name
  | edge importer target =>
    show (if importer < b.records.length then b.addEdge importer target else b).Coherent
    split
    · exact h.addEdge ‹_› target
    · exact h
  | classify position blocking =>
    exact h.modify position (fun r => Record.Grows.setBlocking r blocking) fun _ => rfl
  | mark position => exact h.modify position Record.Grows.mark fun _ => rfl
  | propagate =>
    classical
    rw [Bundle.apply, propagate_eq_markWhere]
    exact h.markWhere _

end Coherent

/-! ## Whatever operations build -/

theorem coherent_empty : empty.Coherent :=
  ⟨.nil, nofun, nofun⟩

/-- Coherent is what any names start as. -/
theorem coherent_ofNames (names : List String) : (ofNames names).Coherent := by
  rw [ofNames_eq_foldl_apply]
  exact List.foldlRecOn _ _ coherent_empty fun _ h operation _ => h.apply operation

/-- Every bundle that operations build is coherent. -/
theorem Reachable.coherent (h : b.Reachable) : b.Coherent := by
  induction h with
  | ofNames names => exact coherent_ofNames names
  | apply operation _ ih => exact ih.apply operation

end Bundle

end Awaitless
