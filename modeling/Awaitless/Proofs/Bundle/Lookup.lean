import Awaitless.Bundle.Basic
import Mathlib.Data.List.Nodup

/-!
# Bundles with distinct names

A bundle is changed at positions, while the description of a build speaks of names. Where no two
chunks share a name this makes no difference: a change at a position is the change of all records
with the name that stands there, and one record is all of them. So a bundle can be seen as a table
from names to records, and the order of its records drops out of the results that use it.

* `Bundle.get?_eq_some_iff` — the record with a name is the only one that has it.
* `Bundle.modify_eq_map`, `Bundle.addEdge_eq_map` — a change at a position is a change under a name.
* `Bundle.ofNames_eq_map` — the bundle of distinct names has one empty record for each.
-/

namespace Awaitless

/-- What a static import notes in a record: with the importer the target, with the target the
position of the importer. -/
def Record.edge (importer : String) (position : Nat) (r : Record) (target : String) : Record :=
  let r := if r.name = importer then r.addImport target else r
  if r.name = target then r.addImporter position else r

@[simp] theorem Record.name_edge (importer : String) (position : Nat) (r : Record)
    (target : String) : (r.edge importer position target).name = r.name := by
  unfold edge
  dsimp only
  split <;> split <;> rfl

namespace Bundle

/-- The names of all chunks. -/
def names (b : Bundle) : List String :=
  b.records.map (·.name)

variable {b : Bundle} {name : String} {i : Nat} {r : Record}

/-- What is found under a name has this name. -/
theorem name_of_get? (h : b.get? name = some r) : r.name = name := by
  simpa using List.find?_some h

/-- The record with a name is the only one that has it. -/
theorem get?_eq_some_iff (hnodup : b.names.Nodup) :
    b.get? name = some r ↔ r ∈ b.records ∧ r.name = name := by
  constructor
  · intro h
    exact ⟨List.mem_of_find?_eq_some h, name_of_get? h⟩
  · rintro ⟨hmem, rfl⟩
    cases hget : b.get? r.name with
    | none =>
      have := List.find?_eq_none.mp hget r hmem
      simp at this
    | some r' =>
      have hmem' : r' ∈ b.records := List.mem_of_find?_eq_some hget
      rw [List.inj_on_of_nodup_map hnodup hmem' hmem (name_of_get? hget)]

/-! ## Changes under a name -/

section records

variable {records : List Record} (f : Record → Record)

/-- A change under a name that no record has changes nothing. -/
theorem map_of_forall_ne (h : ∀ r ∈ records, r.name ≠ name) :
    (records.map fun r => if r.name = name then f r else r) = records := by
  conv => rhs; rw [← List.map_id records]
  refine List.map_congr_left fun r hr => ?_
  rw [if_neg (h r hr)]
  rfl

/-- By induction on the records: the one that is changed has the name, and no other has. -/
theorem modify_records_eq_map (hnodup : (records.map (·.name)).Nodup)
    (hname : records[i]?.map (·.name) = some name) :
    records.modify i f = records.map fun r => if r.name = name then f r else r := by
  induction records generalizing i with
  | nil => cases hname
  | cons r rest ih =>
    rw [List.map_cons, List.nodup_cons] at hnodup
    obtain ⟨hfresh, hrest⟩ := hnodup
    cases i with
    | zero =>
      obtain rfl : r.name = name := Option.some.inj hname
      have hne : ∀ r' ∈ rest, r'.name ≠ r.name := fun r' hr' heq =>
        hfresh (heq ▸ List.mem_map_of_mem hr')
      rw [List.modify_zero_cons, List.map_cons, if_pos rfl, map_of_forall_ne f hne]
    | succ i =>
      have hne : r.name ≠ name := by
        rintro rfl
        obtain ⟨r', hr', heq⟩ := Option.map_eq_some_iff.mp hname
        exact hfresh (heq ▸ List.mem_map_of_mem (List.mem_of_getElem? hr'))
      rw [List.modify_succ_cons, List.map_cons, if_neg hne, ih hrest hname]

end records

/-- A change at a position is a change under the name that stands there. -/
theorem modify_eq_map (hnodup : b.names.Nodup) (hname : b.names[i]? = some name)
    (f : Record → Record) :
    b.modify i f = ⟨b.records.map fun r => if r.name = name then f r else r⟩ := by
  rw [names, List.getElem?_map] at hname
  rw [modify, modify_records_eq_map f hnodup hname]

/-- Names stay where records keep theirs. -/
theorem names_of_eq_map {b b' : Bundle} {f : Record → Record} (h : b' = ⟨b.records.map f⟩)
    (hf : ∀ r, (f r).name = r.name) : b'.names = b.names := by
  rw [h, names, names, List.map_map]
  exact List.map_congr_left fun r _ => hf r

/-- A change that keeps the names of records keeps those of the bundle. -/
theorem names_modify (f : Record → Record) (hf : ∀ r, (f r).name = r.name) :
    (b.modify i f).names = b.names := by
  unfold names modify
  apply List.ext_getElem?
  intro j
  rw [List.getElem?_map, List.getElem?_modify, List.getElem?_map]
  cases b.records[j]? with
  | none => rfl
  | some r => by_cases hij : i = j <;> simp [hij, hf]

theorem names_of_indexOf? (h : b.indexOf? name = some i) : b.names[i]? = some name := by
  obtain ⟨hlt, hname, -⟩ := List.findIdx?_eq_some_iff_getElem.mp h
  rw [names, List.getElem?_map, List.getElem?_eq_getElem hlt, Option.map_some, beq_iff_eq.mp hname]

/-- What an import notes, record by record. -/
theorem addEdge_eq_map {importer : String} (hnodup : b.names.Nodup)
    (hname : b.names[i]? = some importer) (target : String) :
    b.addEdge i target = ⟨b.records.map fun r => r.edge importer i target⟩ := by
  have himport : (b.modify i (·.addImport target)).names = b.names := names_modify _ fun _ => rfl
  have hmap := modify_eq_map hnodup hname (·.addImport target)
  unfold addEdge
  dsimp only
  split
  · -- the name of the target leads to its only record
    rename_i k hk
    rw [modify_eq_map (himport ▸ hnodup) (names_of_indexOf? hk), hmap, List.map_map]
    rfl
  · -- no record has the name of the target
    rename_i hnone
    have hne := List.findIdx?_eq_none_iff.mp hnone
    rw [hmap] at hne ⊢
    congr 1
    refine List.map_congr_left fun r hr => ?_
    have := hne _ (List.mem_map_of_mem hr)
    rw [beq_eq_false_iff_ne] at this
    unfold Record.edge
    rw [if_neg this]

/-! ## Empty records -/

/-- The bundle of distinct names has one empty record for each, in their order. -/
theorem ofNames_eq_map {names : List String} (hnodup : names.Nodup) :
    ofNames names = ⟨names.map Record.empty⟩ := by
  -- names are inserted one by one, so the statement is about any bundle that has none of them yet
  have hfold : ∀ b : Bundle, (b.names ++ names).Nodup →
      names.foldl (fun b name => (b.insert name).2) b =
        ⟨b.records ++ names.map Record.empty⟩ := by
    clear hnodup
    induction names with
    | nil =>
      intro b _
      rw [List.map_nil, List.append_nil]
      rfl
    | cons name rest ih =>
      intro b hnodup
      -- a name that is still to come stands in no record
      have hfresh : b.indexOf? name = none := by
        refine List.findIdx?_eq_none_iff.mpr fun r hr => beq_eq_false_iff_ne.mpr fun heq => ?_
        have hmem : name ∈ b.names := heq ▸ List.mem_map_of_mem hr
        exact (List.nodup_append.mp hnodup).2.2 name hmem name (List.mem_cons_self ..) rfl
      have hinsert : (b.insert name).2 = ⟨b.records ++ [Record.empty name]⟩ := by
        rw [insert, hfresh]
      have hnames : (b.insert name).2.names = b.names ++ [name] := by
        rw [hinsert, Bundle.names, List.map_append]
        rfl
      rw [List.append_cons, ← hnames] at hnodup
      rw [List.foldl_cons, ih _ hnodup, hinsert, List.append_assoc]
      rfl
  exact hfold empty hnodup

end Bundle

end Awaitless
