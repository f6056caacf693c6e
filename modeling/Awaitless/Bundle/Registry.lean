import Awaitless.Bundle.Propagation

/-!
# Records that are found in a table

A bundle finds the record with a name by reading its records from the start. A registry keeps a
table of positions beside them, and each of its records knows its own position.

* `Entry`, `Registry` — records with their positions, and the table.
* `Registry.bundle` — the records alone.
* `Registry.insert`, `Registry.addEdge`, `Registry.setBlocking`, `Registry.mark`,
  `Registry.propagate` — the operations on a bundle, by way of the table.
-/

namespace Awaitless

/-- A record that knows its position. -/
structure Entry where
  index : Nat
  record : Record
deriving Repr, DecidableEq, Inhabited

/-- The records of a build in input order, and the position of each name. -/
structure Registry where
  entries : List Entry
  positions : List (String × Nat)
deriving Repr, DecidableEq, Inhabited

namespace Registry

def empty : Registry := ⟨[], []⟩

/-- The records alone. -/
def bundle (r : Registry) : Bundle :=
  ⟨r.entries.map (·.record)⟩

/-- The position of a name, from the table. -/
def indexOf? (r : Registry) (name : String) : Option Nat :=
  r.positions.lookup name

/-- The record at the position of a name. -/
def get? (r : Registry) (name : String) : Option Record :=
  (r.indexOf? name).bind fun i => r.entries[i]?.map (·.record)

def contains (r : Registry) (name : String) : Bool :=
  (r.indexOf? name).isSome

/-- Changes the record at one position, which it keeps. -/
def modify (r : Registry) (position : Nat) (f : Record → Record) : Registry :=
  { r with entries := r.entries.modify position fun e => { e with record := f e.record } }

/-- Adds an empty record at the end, and its position to the table, unless the name is known; also
gives the position. -/
def insert (r : Registry) (name : String) : Nat × Registry :=
  match r.indexOf? name with
  | some i => (i, r)
  | none =>
    let i := r.entries.length
    (i, ⟨r.entries ++ [⟨i, Record.empty name⟩], (name, i) :: r.positions⟩)

/-- One empty record per distinct name. -/
def ofNames (names : List String) : Registry :=
  names.foldl (fun r name => (r.insert name).2) empty

/-- Notes that the chunk at `importer` imports `target`: with the importer always, with the target
if the table has it. -/
def addEdge (r : Registry) (importer : Nat) (target : String) : Registry :=
  let r := r.modify importer (·.addImport target)
  match r.indexOf? target with
  | some i => r.modify i (·.addImporter importer)
  | none => r

def setBlocking (r : Registry) (position : Nat) (blocking : Option Blocking) : Registry :=
  r.modify position (·.setBlocking blocking)

def mark (r : Registry) (position : Nat) : Registry :=
  r.modify position Record.mark

/-- The positions of all chunks that wait, as they know them. -/
def waiting (r : Registry) : List Nat :=
  (r.entries.filter (·.record.awaits)).map (·.index)

/-- Marks every chunk that reaches a waiting chunk along static imports. -/
def propagate (r : Registry) : Registry :=
  let marked := Worklist.run ⟨r.bundle, r.waiting⟩
  { r with entries := r.entries.zipWith (fun e record => { e with record }) marked.records }

end Registry

end Awaitless
