import Awaitless.Bundle.Blocking
import Awaitless.Distinct

/-!
# What is known about one chunk

* `Record` — a chunk's imports, its importers, and whether it has to wait or be transformed.
* `Record.setBlocking`, `Record.mark` — the only ways in which its flags change: they turn on.
-/

namespace Awaitless

/-- What is known about one chunk of a bundle. -/
structure Record where
  name : String
  /-- The chunks it imports statically, in order of first occurrence; some may be missing. -/
  imports : List String
  /-- The positions of the chunks that import it statically. -/
  importers : List Nat
  /-- The most severe blocking construct that it contains itself. -/
  blocking : Option Blocking
  needsTransform : Bool
  /-- Whether evaluating it waits, because of itself or of a chunk that it imports. -/
  awaits : Bool
deriving Repr, DecidableEq, Inhabited

namespace Record

/-- The record of a chunk about which nothing is known yet. -/
def empty (name : String) : Record :=
  ⟨name, [], [], none, false, false⟩

/-- Notes what the chunk itself contains. -/
def setBlocking (r : Record) (blocking : Option Blocking) : Record :=
  { r with
    blocking
    needsTransform := r.needsTransform || blocking.isSome
    awaits := r.awaits || blocking == some .topLevelAwait }

/-- Notes that evaluating the chunk waits. -/
def mark (r : Record) : Record :=
  { r with needsTransform := r.needsTransform || !r.awaits, awaits := true }

def addImport (r : Record) (target : String) : Record :=
  { r with imports := insertLast r.imports target }

def addImporter (r : Record) (position : Nat) : Record :=
  { r with importers := insertLast r.importers position }

@[simp] theorem name_setBlocking (r : Record) (b : Option Blocking) :
    (r.setBlocking b).name = r.name := rfl

@[simp] theorem name_mark (r : Record) : r.mark.name = r.name := rfl

@[simp] theorem awaits_mark (r : Record) : r.mark.awaits = true := rfl

@[simp] theorem name_addImporter (r : Record) (i : Nat) : (r.addImporter i).name = r.name := rfl

/-- Marking twice is marking once. -/
theorem mark_mark (r : Record) : r.mark.mark = r.mark := by
  simp [mark]

/-- A record that waits is marked already. -/
theorem mark_of_awaits {r : Record} (h : r.awaits = true) : r.mark = r := by
  obtain ⟨name, imports, importers, blocking, needsTransform, awaits⟩ := r
  subst h
  simp [mark]

end Record

end Awaitless
