import Awaitless.Proofs.Bundle.Propagation

/-!
# Bundles that operations build

What the operations build, in any order and number, is more than what a build happens to make: a
record may be marked by hand, classified twice or linked to itself. The results about propagation
are about all such bundles. They need one invariant beside the edges (`Bundle.Sound`): a record is
marked as waiting together with its need to be transformed, so marking can be read off one flag.

That a second propagation changes nothing is seen from the description of the first one: what is
reached from the marked chunks was reached before (`waitsBy_markWhere`).

* `Bundle.Operation`, `Bundle.Reachable` — the operations on a bundle, and what they build in any
  order and number.
* `Bundle.Sound` — whoever waits gets transformed; every operation keeps this.
* `Bundle.propagate_spreads` — on every such bundle, propagation marks exactly what is reached from
  the waiting chunks, and changes nothing else.
-/

namespace Awaitless

/-! ## Records -/

namespace Record

/-- Whoever waits gets transformed. -/
def Sound (r : Record) : Prop :=
  r.awaits = true → r.needsTransform = true

theorem sound_empty (name : String) : (empty name).Sound := nofun

theorem Sound.mark {r : Record} (h : r.Sound) : r.mark.Sound := by
  intro _
  show (r.needsTransform || !r.awaits) = true
  cases hwaits : r.awaits with
  | true => rw [h hwaits, Bool.true_or]
  | false => exact Bool.or_true _

/-- A verdict never says that a chunk waits without saying that it is transformed. -/
theorem Sound.setBlocking {r : Record} (h : r.Sound) (blocking : Option Blocking) :
    (r.setBlocking blocking).Sound := by
  intro hwaits
  replace hwaits : (r.awaits || blocking == some .topLevelAwait) = true := hwaits
  show (r.needsTransform || blocking.isSome) = true
  rw [Bool.or_eq_true, beq_iff_eq] at hwaits
  rcases hwaits with hwaits | rfl
  · rw [h hwaits, Bool.true_or]
  · exact Bool.or_true _

end Record

namespace Bundle

variable {b : Bundle}

/-! ## Operations -/

/-- A change of a bundle. -/
inductive Operation where
  | insert (name : String)
  /-- A static import, noted with the importer and with a known target. -/
  | edge (importer : Nat) (target : String)
  | classify (position : Nat) (blocking : Option Blocking)
  | mark (position : Nat)
  | propagate
deriving Repr, DecidableEq

/-- The changed bundle; only chunks import. -/
def apply (b : Bundle) : Operation → Bundle
  | .insert name => (b.insert name).2
  | .edge importer target =>
    if importer < b.records.length then b.addEdge importer target else b
  | .classify position blocking => b.setBlocking position blocking
  | .mark position => b.mark position
  | .propagate => b.propagate

/-- What operations build from some names. -/
inductive Reachable : Bundle → Prop
  | ofNames (names : List String) : Reachable (Bundle.ofNames names)
  | apply {built : Bundle} (operation : Operation) :
    Reachable built → Reachable (built.apply operation)

/-- Any row of operations leads from a reachable bundle to another one. -/
theorem Reachable.foldl_apply (operations : List Operation) (h : b.Reachable) :
    (operations.foldl Bundle.apply b).Reachable := by
  induction operations generalizing b with
  | nil => exact h
  | cons operation operations ih => exact ih (h.apply operation)

/-! ## Soundness -/

/-- Whoever waits gets transformed. -/
def Sound (b : Bundle) : Prop :=
  ∀ r ∈ b.records, r.Sound

/-- A change that keeps every record sound keeps the bundle sound. -/
theorem Sound.modify {f : Record → Record} (h : b.Sound) (i : Nat)
    (hf : ∀ r : Record, r.Sound → (f r).Sound) : (b.modify i f).Sound := by
  intro r hr
  obtain ⟨k, hk⟩ := List.getElem?_of_mem hr
  replace hk : (b.records.modify i f)[k]? = some r := hk
  rw [List.getElem?_modify, Option.map_eq_map, Option.map_eq_some_iff] at hk
  obtain ⟨r', hr', rfl⟩ := hk
  have hsound := h r' (List.mem_of_getElem? hr')
  split
  · exact hf r' hsound
  · exact hsound

theorem Sound.insert (h : b.Sound) (name : String) : (b.insert name).2.Sound := by
  unfold Bundle.insert
  split
  · exact h
  · intro r hr
    rcases List.mem_append.mp hr with hr | hr
    · exact h r hr
    · rw [List.mem_singleton.mp hr]
      exact Record.sound_empty name

theorem sound_ofNames (names : List String) : (ofNames names).Sound := by
  have hfold : ∀ built : Bundle, built.Sound →
      (names.foldl (fun b name => (b.insert name).2) built).Sound := by
    induction names with
    | nil => exact fun _ h => h
    | cons name names ih => exact fun built h => ih _ (h.insert name)
  exact hfold empty nofun

theorem Sound.markWhere (h : b.Sound) (p : Nat → Prop) [DecidablePred p] :
    (b.markWhere p).Sound := by
  intro r hr
  obtain ⟨i, hi⟩ := List.getElem?_of_mem hr
  rw [getElem?_markWhere, Option.map_eq_some_iff] at hi
  obtain ⟨r', hr', rfl⟩ := hi
  have hsound := h r' (List.mem_of_getElem? hr')
  split
  · exact hsound.mark
  · exact hsound

theorem Sound.addEdge (h : b.Sound) (importer : Nat) (target : String) :
    (b.addEdge importer target).Sound := by
  have himport : (b.modify importer (·.addImport target)).Sound := h.modify importer fun _ hr => hr
  unfold Bundle.addEdge
  dsimp only
  split
  · exact himport.modify _ fun _ hr => hr
  · exact himport

/-- Every operation keeps the bundle sound. -/
theorem Sound.apply (h : b.Sound) (operation : Operation) : (b.apply operation).Sound := by
  cases operation with
  | insert name => exact h.insert name
  | edge importer target =>
    show (if importer < b.records.length then b.addEdge importer target else b).Sound
    split
    · exact h.addEdge importer target
    · exact h
  | classify position blocking => exact h.modify position fun _ hr => hr.setBlocking blocking
  | mark position => exact h.modify position fun _ hr => hr.mark
  | propagate =>
    classical
    rw [Bundle.apply, propagate_eq_markWhere]
    exact h.markWhere _

/-- Every bundle that operations build is sound. -/
theorem Reachable.sound (h : b.Reachable) : b.Sound := by
  induction h with
  | ofNames names => exact sound_ofNames names
  | apply operation _ ih => exact ih.apply operation

/-! ## Propagation -/

/-- How a bundle looks when waiting has spread: flags of reached chunks are on, and all else is as
before. -/
structure Propagated (before after : Bundle) : Prop where
  length_eq : after.records.length = before.records.length
  record : ∀ i r, before.records[i]? = some r → ∃ r', after.records[i]? = some r' ∧
    (r'.awaits = true ↔ before.WaitsBy i) ∧
    (r'.needsTransform = true ↔ r.needsTransform = true ∨ r'.awaits = true) ∧
    r'.name = r.name ∧ r'.imports = r.imports ∧ r'.importers = r.importers ∧
    r'.blocking = r.blocking
  unreached : ∀ i, ¬ before.WaitsBy i → after.records[i]? = before.records[i]?

/-- Marking the reached chunks reaches no others. -/
theorem waitsBy_markWhere [DecidablePred b.WaitsBy] {i : Nat} :
    (b.markWhere b.WaitsBy).WaitsBy i ↔ b.WaitsBy i := by
  have hedge : (b.markWhere b.WaitsBy).ImportedBy = b.ImportedBy := by
    funext k i
    rw [ImportedBy, importersAt_markWhere, ImportedBy]
  constructor
  · -- a path from a marked chunk continues one from a chunk that waited
    rintro ⟨k, hk, path⟩
    rw [hedge] at path
    have hwaits := awaitsAt_of_mem_waiting hk
    rw [awaitsAt_markWhere, Bool.or_eq_true, decide_eq_true_iff] at hwaits
    have hreached : b.WaitsBy k := by
      rcases hwaits with hwaits | hwaits
      · exact hwaits
      · obtain ⟨r, hr, -⟩ := mem_waiting.mp hk
        have hlt := (List.getElem?_eq_some_iff.mp hr).1
        rw [length_markWhere] at hlt
        exact .of_mem_waiting ((mem_waiting_iff_awaitsAt hlt).mpr hwaits)
    obtain ⟨origin, horigin, before⟩ := hreached
    exact ⟨origin, horigin, before.trans path⟩
  · -- who waited before is marked as well, so the path is still there
    rintro ⟨k, hk, path⟩
    refine ⟨k, ?_, hedge ▸ path⟩
    obtain ⟨r, hr, hwaits⟩ := mem_waiting.mp hk
    refine mem_waiting.mpr ⟨r.mark, ?_, rfl⟩
    rw [getElem?_markWhere, hr, Option.map_some, if_pos (.of_mem_waiting hk)]

/-- A second propagation finds nothing to mark. -/
theorem propagate_propagate (b : Bundle) : b.propagate.propagate = b.propagate := by
  classical
  rw [b.propagate_eq_markWhere, propagate_eq_markWhere, markWhere_markWhere]
  refine markWhere_congr fun i _ => ?_
  rw [waitsBy_markWhere, or_self]

/-- What propagation does, record by record. In a sound bundle, whoever waited is transformed
already, so that marking turns on both flags wherever it is done. -/
theorem Sound.propagated (h : b.Sound) : Propagated b b.propagate := by
  classical
  rw [b.propagate_eq_markWhere]
  refine ⟨b.length_markWhere _, fun i r hr => ?_, fun i hi => ?_⟩
  · have hsound := h r (List.mem_of_getElem? hr)
    rw [getElem?_markWhere, hr, Option.map_some]
    by_cases hi : b.WaitsBy i
    · rw [if_pos hi]
      refine ⟨r.mark, rfl, by simp [hi], ?_, rfl, rfl, rfl, rfl⟩
      have hmark : r.mark.needsTransform = true := hsound.mark rfl
      simp [hmark]
    · rw [if_neg hi]
      have hidle : r.awaits ≠ true := fun hwaits =>
        hi (.of_mem_waiting (mem_waiting.mpr ⟨r, hr, hwaits⟩))
      exact ⟨r, rfl, by simp [hi, hidle], by simp [hidle], rfl, rfl, rfl, rfl⟩
  · -- a chunk that is not reached keeps its record
    rw [getElem?_markWhere]
    cases b.records[i]? with
    | none => rfl
    | some r => rw [Option.map_some, if_neg hi]

/-- On every bundle that operations build, the queue of propagation runs empty; what is reached
from a waiting chunk waits then and gets transformed, nothing else changes, and spreading again
changes nothing. -/
theorem propagate_spreads (h : b.Reachable) :
    (Worklist.start b).after b.propagate.waiting.length = some ⟨b.propagate, []⟩ ∧
      Propagated b b.propagate ∧ b.propagate.propagate = b.propagate :=
  ⟨Worklist.after_waiting b, h.sound.propagated, b.propagate_propagate⟩

/-- A cycle of `a` and `b`, which imports the waiting `c` and a chunk that is missing, beside `d`,
which imports a chunk with a dynamic import only. -/
def cyclic : Bundle :=
  [.edge 0 "b", .edge 1 "a", .edge 1 "c", .edge 1 "missing", .edge 3 "e",
    .classify 2 (some .topLevelAwait), .classify 4 (some .dynamicImport)].foldl apply
    (ofNames ["a", "b", "c", "d", "e"])

/-- A bundle whose edges run in a circle, with one chunk in it that waits. -/
theorem propagate_spreads_cyclic :
    cyclic.Reachable ∧ cyclic.needed = ["c", "e"] ∧ Propagated cyclic cyclic.propagate ∧
      cyclic.propagate.needed = ["a", "b", "c", "e"] := by
  have hreach : cyclic.Reachable := Reachable.foldl_apply _ (.ofNames _)
  exact ⟨hreach, by decide +kernel, (propagate_spreads hreach).2.1, by decide +kernel⟩

end Bundle

end Awaitless
