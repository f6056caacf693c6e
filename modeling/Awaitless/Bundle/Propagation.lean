import Awaitless.Bundle.Basic

/-!
# Waiting spreads to importers

Every chunk that statically imports a waiting chunk waits too. A dynamic import stays with the
chunk that contains it.

* `Bundle.markAll` — marks some chunks, and tells which of them did not wait before.
* `Worklist.step?`, `Worklist.run` — a queue of waiting chunks whose importers are still to be
  marked. Every step takes one chunk off, and queues only chunks that it has just marked.
* `Bundle.propagate` — the queue starts with all chunks that wait.
-/

namespace Awaitless

namespace Bundle

/-- Whether the chunk at a position waits; where there is no chunk, nothing is left to mark. -/
def awaitsAt (b : Bundle) (position : Nat) : Bool :=
  b.records[position]?.all (·.awaits)

/-- The positions of the chunks that import the chunk at a position. -/
def importersAt (b : Bundle) (position : Nat) : List Nat :=
  (b.records[position]?.map (·.importers)).getD []

/-- The positions of all chunks that wait, in order. -/
def waiting (b : Bundle) : List Nat :=
  (b.records.zipIdx.filter (·.1.awaits)).map (·.2)

/-- The number of chunks that do not wait. -/
def idle (b : Bundle) : Nat :=
  b.records.countP fun r => !r.awaits

/-- Marks the chunks at some positions; also gives those that did not wait before, in order. -/
def markAll (b : Bundle) : List Nat → Bundle × List Nat
  | [] => (b, [])
  | i :: rest =>
    if b.awaitsAt i then b.markAll rest
    else
      let (marked, fresh) := (b.mark i).markAll rest
      (marked, i :: fresh)

/-- Where a chunk does not wait yet, there is a chunk. -/
theorem awaitsAt_eq_false {b : Bundle} {i : Nat} (h : b.awaitsAt i = false) :
    ∃ r, b.records[i]? = some r ∧ r.awaits = false := by
  unfold awaitsAt at h
  cases hr : b.records[i]? with
  | none => simp [hr] at h
  | some r => exact ⟨r, rfl, by simpa [hr] using h⟩

/-- Marking a chunk that did not wait leaves one fewer of those. -/
theorem idle_mark {b : Bundle} {i : Nat} (h : b.awaitsAt i = false) :
    (b.mark i).idle + 1 = b.idle := by
  obtain ⟨r, hr, hwaits⟩ := awaitsAt_eq_false h
  obtain ⟨hlt, hget⟩ := List.getElem?_eq_some_iff.mp hr
  obtain ⟨before, r', after, hsplit, hlen, hmodify⟩ := List.exists_of_modify Record.mark hlt
  have hr' : r' = r := by
    rw [← hget]
    simp [hsplit, ← hlen]
  subst hr'
  show (b.records.modify i Record.mark).countP _ + 1 = b.records.countP _
  rw [hmodify, hsplit]
  simp [hwaits, Nat.add_assoc]

/-- What is marked did not wait before, and does now. -/
theorem idle_markAll (is : List Nat) (b : Bundle) :
    (b.markAll is).1.idle + (b.markAll is).2.length = b.idle := by
  induction is generalizing b with
  | nil => rfl
  | cons i rest ih =>
    rw [markAll]
    split
    · exact ih b
    · rename_i h
      have hmark := idle_mark (Bool.eq_false_iff.mpr h)
      have hrest := ih (b.mark i)
      simp only [List.length_cons]
      omega

end Bundle

/-! ## The queue -/

/-- A bundle, and the waiting chunks of it whose importers are still to be marked. -/
structure Worklist where
  bundle : Bundle
  queue : List Nat
deriving Repr, DecidableEq, Inhabited

namespace Worklist

/-- All chunks that wait are queued. -/
def start (b : Bundle) : Worklist :=
  ⟨b, b.waiting⟩

/-- Marks the importers of the first chunk in the queue, and queues those that did not wait. -/
def step? : Worklist → Option Worklist
  | ⟨_, []⟩ => none
  | ⟨b, i :: queue⟩ =>
    let (marked, fresh) := b.markAll (b.importersAt i)
    some ⟨marked, queue ++ fresh⟩

/-- The number of steps that are left at most: every chunk that does not wait may still be
queued. -/
def remaining (w : Worklist) : Nat :=
  w.bundle.idle + w.queue.length

/-- A step takes one chunk off the queue, and trades idle chunks for queued ones. -/
theorem remaining_step? {w next : Worklist} (h : w.step? = some next) :
    next.remaining + 1 = w.remaining := by
  obtain ⟨b, queue⟩ := w
  cases queue with
  | nil => simp [step?] at h
  | cons i queue =>
    have hcount := Bundle.idle_markAll (b.importersAt i) b
    simp only [step?, Option.some.injEq] at h
    subst h
    simp only [remaining, List.length_append, List.length_cons]
    omega

/-- The bundle when the queue has run empty. -/
def run (w : Worklist) : Bundle :=
  match _h : w.step? with
  | none => w.bundle
  | some next => next.run
termination_by w.remaining
decreasing_by
  have := remaining_step? _h
  omega

end Worklist

/-- Marks every chunk that reaches a waiting chunk along static imports. -/
def Bundle.propagate (b : Bundle) : Bundle :=
  (Worklist.start b).run

end Awaitless
