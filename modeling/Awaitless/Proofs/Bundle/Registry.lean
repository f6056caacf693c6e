import Awaitless.Bundle.Registry
import Awaitless.Proofs.Bundle.Growth

/-!
# The table agrees with the records

A registry keeps a table of names beside its records, so that a name is found without a search. The
table is data of its own and could go out of step. It does not: each operation does to the records
what the operation on a bundle does, and leaves the table right. So every question that the registry
answers from the table is answered as the bundle of its records does, and what is known of bundles
that operations build holds of registries.

* `Registry.Synchronized` — every record knows its position, and the table has the position of
  every name and nothing else.
* `Registry.bundle_insert`, `Registry.bundle_addEdge`, `Registry.bundle_propagate` — the operations
  do to the records what they do to a bundle.
* `Registry.run_consistent` — whatever is done to a registry, in any order and number, its table,
  its edges and its flags fit together, and nothing that has been noted is lost.
-/

namespace Awaitless

/-- Positions depend on names only. -/
theorem Bundle.indexOf?_congr {b c : Bundle} (h : b.names = c.names) (name : String) :
    b.indexOf? name = c.indexOf? name := by
  have hnames : ∀ b : Bundle, b.indexOf? name = b.names.findIdx? (· == name) := by
    intro b
    rw [names, List.findIdx?_map]
    rfl
  rw [hnames, hnames, h]

/-- Exactly the names of the records have a position. -/
theorem Bundle.isSome_indexOf? {b : Bundle} {name : String} :
    (b.indexOf? name).isSome = true ↔ name ∈ b.names := by
  rw [indexOf?, List.findIdx?_isSome, List.any_eq_true]
  constructor
  · rintro ⟨r, hr, hname⟩
    exact List.mem_map.mpr ⟨r, hr, beq_iff_eq.mp hname⟩
  · intro hname
    obtain ⟨r, hr, heq⟩ := List.mem_map.mp hname
    exact ⟨r, hr, beq_iff_eq.mpr heq⟩

namespace Registry

open Awaitless.Bundle (Operation)

variable {r s t : Registry} {name : String} {i : Nat}

/-- Every record knows its position, and the table gives the positions that the records have. -/
structure Synchronized (r : Registry) : Prop where
  index : ∀ (i : Nat) (e : Entry), r.entries[i]? = some e → e.index = i
  indexOf? : ∀ name, r.indexOf? name = r.bundle.indexOf? name

/-! ## The records alone -/

theorem getElem?_records (r : Registry) (i : Nat) :
    r.bundle.records[i]? = r.entries[i]?.map (·.record) :=
  List.getElem?_map

@[simp] theorem length_records (r : Registry) : r.bundle.records.length = r.entries.length :=
  List.length_map ..

/-- A change of an entry is a change of its record. -/
theorem bundle_modify (r : Registry) (i : Nat) (f : Record → Record) :
    (r.modify i f).bundle = r.bundle.modify i f := by
  refine congrArg Bundle.mk (List.ext_getElem? fun j => ?_)
  rw [List.getElem?_map, List.getElem?_modify, getElem?_records]
  show Option.map _ (r.entries.modify i _)[j]? = _
  rw [List.getElem?_modify]
  cases r.entries[j]? with
  | none => rfl
  | some e =>
    by_cases hij : i = j
    · simp [hij]
    · simp [hij]

/-! ## One operation -/

namespace Synchronized

/-- A change that keeps names keeps the table right. -/
theorem modify {f : Record → Record} (h : r.Synchronized) (i : Nat)
    (hf : ∀ record : Record, (f record).name = record.name) : (r.modify i f).Synchronized where
  index j e' hj := by
    replace hj : (r.entries.modify i _)[j]? = some e' := hj
    rw [List.getElem?_modify, Option.map_eq_map, Option.map_eq_some_iff] at hj
    obtain ⟨e, he, rfl⟩ := hj
    have hindex := h.index j e he
    split
    · exact hindex
    · exact hindex
  indexOf? name := by
    have hnames : r.bundle.names = (r.modify i f).bundle.names := by
      rw [bundle_modify, Bundle.names_modify f hf]
    exact (h.indexOf? name).trans (Bundle.indexOf?_congr hnames name)

/-- A name is added to the table together with its record, which stands at the end. -/
theorem insert (h : r.Synchronized) (name : String) : (r.insert name).2.Synchronized := by
  unfold Registry.insert
  split
  · exact h
  · rename_i hunknown
    refine ⟨fun i e he => ?_, fun x => ?_⟩
    · rcases Nat.lt_or_ge i r.entries.length with hlt | hge
      · rw [List.getElem?_append_left hlt] at he
        exact h.index i e he
      · -- the new entry stands at the end
        rw [List.getElem?_append_right hge, List.getElem?_singleton] at he
        split at he
        · obtain rfl := Option.some.inj he
          show r.entries.length = i
          omega
        · cases he
    · show List.lookup x ((name, r.entries.length) :: r.positions) =
        List.findIdx? (fun record : Record => record.name == x)
          ((r.entries ++ [(⟨r.entries.length, Record.empty name⟩ : Entry)]).map (·.record))
      have hold : List.lookup x r.positions =
          List.findIdx? (fun record : Record => record.name == x) r.bundle.records := h.indexOf? x
      rw [List.lookup_cons, List.map_append, List.findIdx?_append]
      by_cases hx : x = name
      · -- the new name is in no record before
        subst hx
        have hnone : r.bundle.records.findIdx? (fun record => record.name == x) = none :=
          hold ▸ hunknown
        have hlen := length_records r
        unfold Registry.bundle at hnone hlen
        simp [hnone, Record.empty]
      · have hne : (x == name) = false := beq_eq_false_iff_ne.mpr hx
        have hne' : (name == x) = false := beq_eq_false_iff_ne.mpr (Ne.symm hx)
        unfold Registry.bundle at hold
        simp [hne, hne', hold, Record.empty]

/-- A record that waits waits at the position that it knows. -/
theorem waiting (h : r.Synchronized) : r.waiting = r.bundle.waiting := by
  have hentries : r.entries.map (fun e => (e.record, e.index)) = r.bundle.records.zipIdx := by
    apply List.ext_getElem?
    intro i
    rw [List.getElem?_map, List.getElem?_zipIdx, getElem?_records, Option.map_map]
    refine Option.map_congr fun e he => ?_
    rw [h.index i e he]
    simp
  rw [Bundle.waiting, ← hentries, List.filter_map, List.map_map]
  rfl

end Synchronized

/-- Inserting a name adds the record that a bundle adds, and finds it where a bundle does. -/
theorem bundle_insert (h : r.Synchronized) (name : String) :
    ((r.insert name).1, (r.insert name).2.bundle) = r.bundle.insert name := by
  unfold Registry.insert Bundle.insert
  rw [← h.indexOf? name]
  cases r.indexOf? name with
  | some i => rfl
  | none =>
    show ((r.entries.length, ⟨List.map _ (r.entries ++ [_])⟩) : Nat × Bundle) = _
    rw [List.map_append, length_records]
    rfl

/-- Both look the import up and find it at the same position, or not at all. -/
theorem bundle_addEdge (h : r.Synchronized) (importer : Nat) (target : String) :
    (r.addEdge importer target).bundle = r.bundle.addEdge importer target ∧
      (r.addEdge importer target).Synchronized := by
  have himport : (r.modify importer (·.addImport target)).Synchronized :=
    h.modify importer fun _ => rfl
  -- the table is read after the import is noted, which changes no name
  have hlookup := himport.indexOf? target
  rw [bundle_modify] at hlookup
  unfold Registry.addEdge Bundle.addEdge
  dsimp only
  rw [← hlookup]
  cases (r.modify importer (·.addImport target)).indexOf? target with
  | some i =>
    refine ⟨?_, himport.modify i fun _ => rfl⟩
    rw [bundle_modify, bundle_modify]
  | none => exact ⟨bundle_modify .., himport⟩

/-- The registry lets the queue run over its records and puts them back one by one. -/
theorem bundle_propagate (h : r.Synchronized) :
    r.propagate.bundle = r.bundle.propagate ∧ r.propagate.Synchronized := by
  classical
  have hmarked : Worklist.run ⟨r.bundle, r.waiting⟩ = r.bundle.propagate := by
    rw [h.waiting]
    rfl
  have hlength : r.bundle.propagate.records.length = r.entries.length := by
    rw [Bundle.propagate_eq_markWhere, Bundle.length_markWhere, length_records]
  have hbundle : r.propagate.bundle = r.bundle.propagate := by
    refine congrArg Bundle.mk ?_
    show (List.zipWith _ r.entries (Worklist.run ⟨r.bundle, r.waiting⟩).records).map _ = _
    rw [hmarked, List.map_zipWith]
    -- the entries are as many as the marked records, so pairing them loses none
    have hzip : (r.entries.zip r.bundle.propagate.records).map Prod.snd =
        r.bundle.propagate.records := List.map_snd_zip (Nat.le_of_eq hlength)
    exact List.map_zip_eq_zipWith.symm.trans hzip
  refine ⟨hbundle, fun i e' he' => ?_, fun name => ?_⟩
  · -- a marked entry keeps its position
    obtain ⟨e, record, he, -, rfl⟩ := List.getElem?_zipWith_eq_some.mp he'
    exact h.index i e he
  · have hnames : r.bundle.names = r.propagate.bundle.names := by
      rw [hbundle, Bundle.propagate_eq_markWhere, Bundle.names_markWhere]
    exact (h.indexOf? name).trans (Bundle.indexOf?_congr hnames name)

/-! ## Any operations -/

/-- The changed registry; only chunks import. -/
def apply (r : Registry) : Operation → Registry
  | .insert name => (r.insert name).2
  | .edge importer target =>
    if importer < r.entries.length then r.addEdge importer target else r
  | .classify position blocking => r.setBlocking position blocking
  | .mark position => r.mark position
  | .propagate => r.propagate

/-- What operations build from some names. -/
def run (names : List String) (operations : List Operation) : Registry :=
  operations.foldl apply (ofNames names)

/-- Every operation does to the records what it does to a bundle, and keeps the table in step. -/
theorem bundle_apply (h : r.Synchronized) (operation : Operation) :
    (r.apply operation).bundle = r.bundle.apply operation ∧
      (r.apply operation).Synchronized := by
  cases operation with
  | insert name => exact ⟨congrArg Prod.snd (bundle_insert h name), h.insert name⟩
  | edge importer target =>
    rw [apply, Bundle.apply, length_records]
    split
    · exact bundle_addEdge h importer target
    · exact ⟨rfl, h⟩
  | classify position blocking =>
    exact ⟨bundle_modify .., h.modify position (·.name_setBlocking blocking)⟩
  | mark position => exact ⟨bundle_modify .., h.modify position Record.name_mark⟩
  | propagate => exact bundle_propagate h

/-- Any row of operations, by induction on the row. -/
theorem bundle_foldl_apply (h : r.Synchronized) (operations : List Operation) :
    (operations.foldl apply r).bundle = operations.foldl Bundle.apply r.bundle ∧
      (operations.foldl apply r).Synchronized := by
  induction operations generalizing r with
  | nil => exact ⟨rfl, h⟩
  | cons operation operations ih =>
    obtain ⟨hbundle, hsync⟩ := bundle_apply h operation
    rw [List.foldl_cons, List.foldl_cons, ← hbundle]
    exact ih hsync

/-- A registry with some names is one in which they have been inserted. -/
theorem ofNames_eq_foldl_apply (names : List String) :
    ofNames names = (names.map Operation.insert).foldl apply empty := by
  rw [List.foldl_map]
  rfl

theorem bundle_ofNames (names : List String) :
    (ofNames names).bundle = Bundle.ofNames names ∧ (ofNames names).Synchronized := by
  have hempty : empty.Synchronized := ⟨nofun, fun _ => rfl⟩
  rw [ofNames_eq_foldl_apply, Bundle.ofNames_eq_foldl_apply]
  exact bundle_foldl_apply hempty (names.map Operation.insert)

/-- A whole run of a registry is a run of operations on a bundle. -/
theorem bundle_run (names : List String) (operations : List Operation) :
    (run names operations).bundle = operations.foldl Bundle.apply (Bundle.ofNames names) ∧
      (run names operations).Synchronized := by
  obtain ⟨hbundle, hsync⟩ := bundle_ofNames names
  rw [← hbundle]
  exact bundle_foldl_apply hsync operations

/-! ## Consistency -/

/-- How the parts of a registry fit together once some names have been inserted. -/
structure Consistent (r : Registry) (inserted : List String) : Prop where
  names : (r.entries.map (·.record.name)).Nodup
  lookup : ∀ (i : Nat) (e : Entry), r.entries[i]? = some e →
    r.indexOf? e.record.name = some i ∧ r.get? e.record.name = some e.record ∧ e.index = i
  contains : ∀ name, r.contains name = true ↔ name ∈ inserted
  nodup_importers : ∀ e ∈ r.entries, e.record.importers.Nodup
  importers : ∀ e ∈ r.entries, ∀ k ∈ e.record.importers,
    ∃ importer, r.entries[k]? = some importer ∧ e.record.name ∈ importer.record.imports
  needsTransform : ∀ e ∈ r.entries, e.record.awaits = true → e.record.needsTransform = true

/-- How a registry looks later on: every record is where it was, with the name that it had, and
flags that are on stay on. -/
def Grows (r later : Registry) : Prop :=
  ∀ (i : Nat) (e : Entry), r.entries[i]? = some e →
    ∃ e', later.entries[i]? = some e' ∧ e'.index = e.index ∧ e.record.Grows e'.record

theorem record_mem {e : Entry} (he : e ∈ r.entries) : e.record ∈ r.bundle.records :=
  List.mem_map_of_mem he

/-- In step with a coherent bundle whose flags are sound, a registry is consistent. -/
theorem Synchronized.consistent (h : r.Synchronized) (hcoherent : r.bundle.Coherent)
    (hsound : r.bundle.Sound) : r.Consistent r.bundle.names := by
  have hlookup : ∀ i e, r.entries[i]? = some e → r.indexOf? e.record.name = some i := by
    intro i e he
    have hname : r.bundle.names[i]? = some e.record.name := by
      rw [Bundle.names, List.getElem?_map, getElem?_records, he]
      rfl
    cases hindex : r.bundle.indexOf? e.record.name with
    | none =>
      have hmem := record_mem (List.mem_of_getElem? he)
      have hne := List.findIdx?_eq_none_iff.mp hindex e.record hmem
      simp at hne
    | some j =>
      -- distinct names stand at distinct positions
      have hlt := (List.getElem?_eq_some_iff.mp hname).1
      have hij := (List.getElem?_inj hlt hcoherent.nodup_names).mp
        (hname.trans (Bundle.names_of_indexOf? hindex).symm)
      rw [h.indexOf?, hindex, hij]
  refine ⟨?_, fun i e he => ⟨hlookup i e he, ?_, h.index i e he⟩, fun name => ?_,
    fun e he => hcoherent.importers _ (record_mem he), fun e he k hk => ?_,
    fun e he => hsound _ (record_mem he)⟩
  · -- the names are distinct, and lookups lead to their own entries
    have hnodup := hcoherent.nodup_names
    rw [Bundle.names, bundle, List.map_map] at hnodup
    exact hnodup
  · rw [get?, hlookup i e he, Option.bind_some, he]
    rfl
  · rw [contains, h.indexOf?]
    exact Bundle.isSome_indexOf?
  · -- whoever is noted as an importer has an entry that notes the import
    obtain ⟨record, hrecord, himports⟩ := hcoherent.edges _ (record_mem he) k hk
    rw [getElem?_records, Option.map_eq_some_iff] at hrecord
    obtain ⟨importer, himporter, rfl⟩ := hrecord
    exact ⟨importer, himporter, himports⟩

/-- Where records know their positions, a registry grows as its bundle does. -/
theorem Synchronized.grows (h : r.Synchronized) (hs : s.Synchronized)
    (hgrows : r.bundle.Grows s.bundle) : r.Grows s := by
  intro i e he
  obtain ⟨record, hrecord, hlater⟩ := hgrows i e.record (by rw [getElem?_records, he]; rfl)
  rw [getElem?_records, Option.map_eq_some_iff] at hrecord
  obtain ⟨e', he', rfl⟩ := hrecord
  exact ⟨e', he', (hs.index i e' he').trans (h.index i e he).symm, hlater⟩

/-- Whatever is done to a registry, in any order and number: names are distinct, the table leads
from each to its record, which knows its position, and has exactly the names that were inserted;
importers are noted once, are chunks, and note the import; whoever waits gets transformed. All that
is done afterwards leaves every record where it is, with its name and position, its imports and
whatever flags are on. -/
theorem run_consistent (names : List String) (operations later : List Operation) :
    (run names operations).Consistent (names ++ operations.filterMap Operation.inserted?) ∧
      (run names operations).Grows (run names (operations ++ later)) := by
  obtain ⟨hbundle, hsync⟩ := bundle_run names operations
  obtain ⟨hbundle', hsync'⟩ := bundle_run names (operations ++ later)
  have hreach := Bundle.Reachable.foldl_apply operations (.ofNames names)
  rw [← hbundle] at hreach
  constructor
  · have hconsistent := hsync.consistent hreach.coherent hreach.sound
    refine { hconsistent with contains := fun name => (hconsistent.contains name).trans ?_ }
    rw [hbundle, Bundle.mem_names_foldl_apply, Bundle.mem_names_ofNames, List.mem_append]
  · refine hsync.grows hsync' ?_
    rw [hbundle', List.foldl_append, ← hbundle]
    exact .foldl_apply later _

/-- A cycle with a chunk that comes later, whose edges are noted twice and which first waits. -/
example :
    (run ["a", "b", "a"] [.edge 0 "c", .insert "c", .edge 0 "c", .edge 2 "a", .edge 2 "a",
      .classify 2 (some .topLevelAwait), .classify 2 none, .propagate]).entries =
      [⟨0, ⟨"a", ["c"], [2], none, true, true⟩⟩, ⟨1, ⟨"b", [], [], none, false, false⟩⟩,
        ⟨2, ⟨"c", ["a"], [0], none, true, true⟩⟩] := by
  decide +kernel

end Registry

end Awaitless
