import Awaitless.Bundle.Propagation
import Mathlib.Logic.Relation

/-!
# What waiting spreads to

Propagation works through a queue: it takes a waiting chunk off, marks those of its importers that
do not wait yet, and puts them at the end. The result is described without the queue, as what is
reached from the chunks that wait at first. One invariant carries the proof (`Worklist.Spreads`):
only reached chunks are marked, only reached chunks are queued, and the importers of a waiting chunk
wait as well unless that chunk is still in the queue. With an empty queue the waiting chunks are
closed under importers, so they are what is reached.

That the queue runs empty needs a number that falls. A chunk is queued when it is marked and at no
other time, so the chunks in the queue and those that do not wait bound the steps together.

* `Bundle.ImportedBy`, `Bundle.WaitsBy` — the edges that waiting travels along, and what it
  reaches from the chunks that wait.
* `Bundle.markWhere` — a bundle with some of its chunks marked and nothing else changed; every
  stage of the queue is one of these.
* `Worklist.Spreads` — the invariant of the queue: only reached chunks are marked, and a waiting
  chunk is still queued or all its importers wait.
* `Bundle.propagate_eq_markWhere` — propagation marks exactly what is reached.
* `Worklist.after_waiting` — the queue runs empty; every chunk that waits in the end is taken off
  it once.
-/

namespace Awaitless

/-! ## Edges -/

namespace Bundle

variable {b : Bundle} {i k : Nat}

/-- The chunk at `k` has the chunk at `i` among its importers. -/
def ImportedBy (b : Bundle) (k i : Nat) : Prop :=
  i ∈ b.importersAt k

/-- The chunk at `i` is reached from a waiting chunk along importers, in any number of steps. -/
def WaitsBy (b : Bundle) (i : Nat) : Prop :=
  ∃ k ∈ b.waiting, Relation.ReflTransGen b.ImportedBy k i

/-- The queue starts with the positions of the records that wait. -/
theorem mem_waiting : i ∈ b.waiting ↔ ∃ r, b.records[i]? = some r ∧ r.awaits = true := by
  simp [waiting, List.mem_zipIdx_iff_getElem?]

theorem mem_waiting_iff_awaitsAt (hlt : i < b.records.length) :
    i ∈ b.waiting ↔ b.awaitsAt i = true := by
  rw [mem_waiting, awaitsAt, List.getElem?_eq_getElem hlt]
  simp

theorem awaitsAt_of_mem_waiting (h : i ∈ b.waiting) : b.awaitsAt i = true := by
  obtain ⟨r, hr, hwaits⟩ := mem_waiting.mp h
  rw [awaitsAt, hr]
  exact hwaits

/-- Only chunks have importers. -/
theorem ImportedBy.lt_length (h : b.ImportedBy k i) : k < b.records.length := by
  unfold ImportedBy importersAt at h
  cases hr : b.records[k]? with
  | none => simp [hr] at h
  | some r => exact (List.getElem?_eq_some_iff.mp hr).1

/-- Whoever waits is reached without an edge. -/
theorem WaitsBy.of_mem_waiting (h : i ∈ b.waiting) : b.WaitsBy i :=
  ⟨i, h, .refl⟩

/-- Whoever imports what is reached is reached. -/
theorem WaitsBy.importedBy (hk : b.WaitsBy k) (h : b.ImportedBy k i) : b.WaitsBy i := by
  obtain ⟨origin, horigin, path⟩ := hk
  exact ⟨origin, horigin, path.tail h⟩

/-! ## Marked bundles -/

/-- The bundle with the chunks at the given positions marked. -/
def markWhere (b : Bundle) (p : Nat → Prop) [DecidablePred p] : Bundle :=
  ⟨b.records.mapIdx fun i r => if p i then r.mark else r⟩

section markWhere

variable (b) (p q : Nat → Prop) [DecidablePred p] [DecidablePred q]

theorem getElem?_markWhere (i : Nat) :
    (b.markWhere p).records[i]? =
      b.records[i]?.map fun r => if p i then r.mark else r := by
  simp [markWhere]

@[simp] theorem length_markWhere : (b.markWhere p).records.length = b.records.length := by
  simp [markWhere]

/-- One mark is a set of one mark. -/
theorem mark_eq_markWhere (i : Nat) : b.mark i = b.markWhere (· = i) := by
  unfold mark modify markWhere
  congr 1
  apply List.ext_getElem?
  intro j
  rw [List.getElem?_modify, List.getElem?_mapIdx]
  by_cases h : i = j
  · simp [h]
  · simp [h, Ne.symm h]

/-- Marks add up, whatever order they are set in. -/
theorem markWhere_markWhere :
    (b.markWhere p).markWhere q = b.markWhere fun i => p i ∨ q i := by
  unfold markWhere
  congr 1
  apply List.ext_getElem?
  intro i
  by_cases hp : p i <;> by_cases hq : q i <;>
    simp [hp, hq, Function.comp_def, Record.mark_mark]

/-- A record waits if it is marked or waited before. -/
theorem awaitsAt_markWhere (i : Nat) :
    (b.markWhere p).awaitsAt i = (decide (p i) || b.awaitsAt i) := by
  unfold awaitsAt
  rw [getElem?_markWhere]
  cases b.records[i]? with
  | none => simp
  | some r => by_cases h : p i <;> simp [h]

/-- Marks leave the edges as they are, so the edges of the start can be used throughout. -/
theorem importersAt_markWhere (i : Nat) : (b.markWhere p).importersAt i = b.importersAt i := by
  unfold importersAt
  rw [getElem?_markWhere]
  cases b.records[i]? with
  | none => rfl
  | some r => by_cases h : p i <;> simp [h, Record.mark]

end markWhere

/-- Marking a chunk that waits changes nothing, so it does not matter which of those are marked. -/
theorem markWhere_congr {p q : Nat → Prop} [DecidablePred p] [DecidablePred q]
    (h : ∀ i, b.awaitsAt i = false → (p i ↔ q i)) : b.markWhere p = b.markWhere q := by
  unfold markWhere
  congr 1
  apply List.ext_getElem?
  intro i
  rw [List.getElem?_mapIdx, List.getElem?_mapIdx]
  cases hr : b.records[i]? with
  | none => rfl
  | some r =>
    cases hwaits : r.awaits with
    | true =>
      have hmark : r.mark = r := Record.mark_of_awaits hwaits
      simp [hmark]
    | false =>
      have hpq : p i ↔ q i := h i (by simp [awaitsAt, hr, hwaits])
      simp [hpq]

theorem markWhere_of_forall_not {p : Nat → Prop} [DecidablePred p] (h : ∀ i, ¬ p i) :
    b.markWhere p = b := by
  unfold markWhere
  congr 1
  apply List.ext_getElem?
  intro i
  simp [h]

/-! ## Marking in a row -/

/-- What is fresh is what was asked for and did not wait. -/
theorem mem_markAll (is : List Nat) (b : Bundle) :
    i ∈ (b.markAll is).2 ↔ i ∈ is ∧ b.awaitsAt i = false := by
  induction is generalizing b with
  | nil => simp [markAll]
  | cons j rest ih =>
    rw [markAll]
    split
    · -- a position that waits already is passed over
      rename_i hj
      rw [ih, List.mem_cons]
      constructor
      · rintro ⟨hmem, hidle⟩
        exact ⟨.inr hmem, hidle⟩
      · rintro ⟨rfl | hmem, hidle⟩
        · rw [hj] at hidle
          cases hidle
        · exact ⟨hmem, hidle⟩
    · -- a position that is marked is not new any more when it comes again
      rename_i hj
      simp only [List.mem_cons, ih, mark_eq_markWhere, awaitsAt_markWhere]
      by_cases hij : i = j
      · subst hij
        simp [hj]
      · simp [hij]

/-- Marking a row of positions is marking those that the row reports as new. -/
theorem markAll_eq_markWhere (is : List Nat) (b : Bundle) :
    (b.markAll is).1 = b.markWhere (· ∈ (b.markAll is).2) := by
  induction is generalizing b with
  | nil => exact (markWhere_of_forall_not (by simp [markAll])).symm
  | cons j rest ih =>
    rw [markAll]
    split
    · exact ih b
    · show ((b.mark j).markAll rest).1 = _
      rw [ih, mark_eq_markWhere, markWhere_markWhere]
      refine markWhere_congr fun i _ => ?_
      simp

end Bundle

/-! ## The invariant of the queue -/

namespace Worklist

open Awaitless.Bundle

variable {b current : Bundle} {queue : List Nat} {w next : Worklist}

/-- Where the spreading of waiting from `b` may stand: some reached chunks are marked, only reached
chunks are queued, and whoever imports a waiting chunk waits, unless that chunk is still queued. -/
structure Spreads (b current : Bundle) (queue : List Nat) : Prop where
  marked : ∃ reached : List Nat, current = b.markWhere (· ∈ reached) ∧ ∀ i ∈ reached, b.WaitsBy i
  queued : ∀ k ∈ queue, b.WaitsBy k
  closed : ∀ k ∈ current.waiting, ∀ i, b.ImportedBy k i → k ∈ queue ∨ current.awaitsAt i = true

/-- The invariant at the start: nothing is marked, and whoever waits is queued. -/
theorem spreads_waiting (b : Bundle) : Spreads b b b.waiting where
  marked := ⟨[], (markWhere_of_forall_not (by simp)).symm, by simp⟩
  queued _ hk := .of_mem_waiting hk
  closed _ hk _ _ := .inl hk

/-- A stage of the queue has the edges of the start. -/
theorem Spreads.importersAt (h : Spreads b current queue) (k : Nat) :
    current.importersAt k = b.importersAt k := by
  obtain ⟨reached, hcurrent, -⟩ := h.marked
  rw [hcurrent, importersAt_markWhere]

theorem Spreads.mem_waiting_iff {k i : Nat} (h : Spreads b current queue)
    (hedge : b.ImportedBy k i) : k ∈ current.waiting ↔ current.awaitsAt k = true := by
  obtain ⟨reached, hcurrent, -⟩ := h.marked
  refine mem_waiting_iff_awaitsAt ?_
  rw [hcurrent, length_markWhere]
  exact hedge.lt_length

/-- Taking the head off the queue and marking its idle importers keeps the invariant. -/
theorem Spreads.markWhere {head : Nat} {fresh : List Nat} (h : Spreads b current (head :: queue))
    (hfresh : ∀ i, i ∈ fresh ↔ i ∈ b.importersAt head ∧ current.awaitsAt i = false) :
    Spreads b (current.markWhere (· ∈ fresh)) (queue ++ fresh) := by
  have hreach : ∀ i ∈ fresh, b.WaitsBy i := fun i hi =>
    (h.queued head (List.mem_cons_self ..)).importedBy ((hfresh i).mp hi).1
  refine ⟨?_, ?_, ?_⟩
  · obtain ⟨reached, hcurrent, hreached⟩ := h.marked
    refine ⟨reached ++ fresh, ?_, ?_⟩
    · rw [hcurrent, markWhere_markWhere]
      exact markWhere_congr fun i _ => List.mem_append.symm
    · intro i hi
      rcases List.mem_append.mp hi with hi | hi
      · exact hreached i hi
      · exact hreach i hi
  · intro k hk
    rcases List.mem_append.mp hk with hk | hk
    · exact h.queued k (List.mem_cons_of_mem _ hk)
    · exact hreach k hk
  · -- whoever waits now waited before, or is fresh and therefore queued
    intro k hk i hedge
    have hwaits := awaitsAt_of_mem_waiting hk
    rw [awaitsAt_markWhere, Bool.or_eq_true, decide_eq_true_iff] at hwaits ⊢
    rcases hwaits with hwaits | hwaits
    · exact .inl (List.mem_append_right _ hwaits)
    · rcases h.closed k ((h.mem_waiting_iff hedge).mpr hwaits) i hedge with hqueue | hi
      · rcases List.mem_cons.mp hqueue with rfl | hqueue
        · -- the importers of the head waited before or have just been marked
          cases hidle : current.awaitsAt i with
          | true => exact .inr (.inr rfl)
          | false => exact .inr (.inl ((hfresh i).mpr ⟨hedge, hidle⟩))
        · exact .inl (List.mem_append_left _ hqueue)
      · exact .inr (.inr hi)

/-- Only an empty queue has no next step. -/
theorem queue_of_step?_eq_none (h : w.step? = none) : w.queue = [] := by
  obtain ⟨current, queue⟩ := w
  cases queue with
  | nil => rfl
  | cons head queue => cases h

/-- One step of the queue keeps the invariant. -/
theorem Spreads.step (h : Spreads b w.bundle w.queue) (hstep : w.step? = some next) :
    Spreads b next.bundle next.queue := by
  obtain ⟨current, queue⟩ := w
  cases queue with
  | nil => cases hstep
  | cons head queue =>
    cases hstep
    show Spreads b (current.markAll (current.importersAt head)).1 (queue ++ _)
    rw [markAll_eq_markWhere]
    refine Spreads.markWhere h fun i => ?_
    rw [mem_markAll, h.importersAt]

/-- What holds at the start and is kept by every step holds when the queue is empty. -/
theorem Spreads.run (h : Spreads b w.bundle w.queue) : Spreads b w.run [] := by
  fun_induction Worklist.run w with
  | case1 w hnone =>
    rw [← queue_of_step?_eq_none hnone]
    exact h
  | case2 w next hstep ih => exact ih (h.step hstep)

/-- Without a queue, exactly the reached chunks are marked. -/
theorem Spreads.eq_markWhere [DecidablePred b.WaitsBy] (h : Spreads b current []) :
    current = b.markWhere b.WaitsBy := by
  obtain ⟨reached, hcurrent, hreached⟩ := h.marked
  have hawaits : ∀ i, current.awaitsAt i = (decide (i ∈ reached) || b.awaitsAt i) := by
    rw [hcurrent]
    exact awaitsAt_markWhere b _
  have hwaits : ∀ i, b.WaitsBy i → current.awaitsAt i = true := by
    rintro i ⟨origin, horigin, path⟩
    -- along a path from a waiting chunk, every chunk waits: the queue holds none of them back
    induction path with
    | refl => rw [hawaits, awaitsAt_of_mem_waiting horigin, Bool.or_true]
    | tail _ hedge ih =>
      rcases h.closed _ ((h.mem_waiting_iff hedge).mpr ih) _ hedge with hqueue | hi
      · cases hqueue
      · exact hi
  rw [hcurrent]
  refine markWhere_congr fun i hidle => ⟨hreached i, fun hi => ?_⟩
  have hi := hwaits i hi
  rw [hawaits, hidle, Bool.or_false, decide_eq_true_iff] at hi
  exact hi

/-! ## The number of steps -/

/-- The queue after a number of steps, if it does not run empty before. -/
def after : (steps : Nat) → Worklist → Option Worklist
  | 0, w => some w
  | steps + 1, w => w.step?.bind (after steps)

/-- Each step uses up one that is left, so the queue is empty in time. -/
theorem idle_run_le (w : Worklist) : w.run.idle ≤ w.remaining := by
  fun_induction Worklist.run w with
  | case1 w hnone => exact Nat.le_add_right ..
  | case2 w next hstep ih =>
    have := remaining_step? hstep
    omega

/-- The queue runs empty after as many steps as there are chunks in it and chunks still to be
marked. -/
theorem after_remaining (w : Worklist) :
    w.after (w.remaining - w.run.idle) = some ⟨w.run, []⟩ := by
  fun_induction Worklist.run w with
  | case1 w hnone =>
    obtain ⟨current, queue⟩ := w
    obtain rfl : queue = [] := queue_of_step?_eq_none hnone
    rw [show Worklist.remaining ⟨current, []⟩ - current.idle = 0 from Nat.sub_self _]
    rfl
  | case2 w next hstep ih =>
    have hcount := remaining_step? hstep
    have hle := idle_run_le next
    rw [show w.remaining - next.run.idle = next.remaining - next.run.idle + 1 by omega, after,
      hstep]
    exact ih

end Worklist

namespace Bundle

/-- Propagation marks exactly the chunks that are reached from waiting chunks. -/
theorem propagate_eq_markWhere (b : Bundle) [DecidablePred b.WaitsBy] :
    b.propagate = b.markWhere b.WaitsBy :=
  (Worklist.spreads_waiting b).run (w := Worklist.start b) |>.eq_markWhere

/-- Every chunk waits or is idle. -/
theorem length_waiting_add_idle (b : Bundle) : b.waiting.length + b.idle = b.records.length := by
  have hwaiting : b.waiting.length = b.records.countP (·.awaits) := by
    rw [waiting, List.length_map, ← List.countP_eq_length_filter]
    conv => rhs; rw [← List.zipIdx_map_fst 0 b.records, List.countP_map]
    rfl
  rw [hwaiting, List.length_eq_countP_add_countP (·.awaits) (l := b.records)]
  simp [idle]

end Bundle

/-- The queue of all waiting chunks runs empty; every chunk that waits in the end is taken off it
once. -/
theorem Worklist.after_waiting (b : Bundle) :
    (Worklist.start b).after b.propagate.waiting.length = some ⟨b.propagate, []⟩ := by
  have hbefore := b.length_waiting_add_idle
  have hafter := b.propagate.length_waiting_add_idle
  have hlength : b.propagate.records.length = b.records.length := by
    classical rw [b.propagate_eq_markWhere, b.length_markWhere]
  have hsteps : b.propagate.waiting.length = (start b).remaining - (start b).run.idle := by
    show _ = b.idle + b.waiting.length - b.propagate.idle
    omega
  rw [hsteps]
  exact after_remaining (start b)

end Awaitless
