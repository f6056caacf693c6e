import Awaitless.Bundle.Record

/-!
# The chunks of one build

* `Bundle` — the records of all chunks, in input order, found by position or by name.
* `Bundle.insert`, `Bundle.addEdge`, `Bundle.setBlocking`, `Bundle.mark` — its operations.
-/

namespace Awaitless

/-- The records of all chunks of one build, in input order. -/
structure Bundle where
  records : List Record
deriving Repr, DecidableEq, Inhabited

namespace Bundle

def empty : Bundle := ⟨[]⟩

/-- The position of the record with the given name. -/
def indexOf? (b : Bundle) (name : String) : Option Nat :=
  b.records.findIdx? fun r => r.name == name

/-- The record with the given name. -/
def get? (b : Bundle) (name : String) : Option Record :=
  b.records.find? fun r => r.name == name

/-- Changes the record at one position. -/
def modify (b : Bundle) (position : Nat) (f : Record → Record) : Bundle :=
  ⟨b.records.modify position f⟩

/-- Adds an empty record at the end, unless the name is known; also gives its position. -/
def insert (b : Bundle) (name : String) : Nat × Bundle :=
  match b.indexOf? name with
  | some i => (i, b)
  | none => (b.records.length, ⟨b.records ++ [Record.empty name]⟩)

/-- One empty record per distinct name. -/
def ofNames (names : List String) : Bundle :=
  names.foldl (fun b name => (b.insert name).2) empty

/-- Notes that the chunk at `importer` imports `target`: with the importer always, with the target
if it is part of the bundle. -/
def addEdge (b : Bundle) (importer : Nat) (target : String) : Bundle :=
  let b := b.modify importer (·.addImport target)
  match b.indexOf? target with
  | some i => b.modify i (·.addImporter importer)
  | none => b

def setBlocking (b : Bundle) (position : Nat) (blocking : Option Blocking) : Bundle :=
  b.modify position (·.setBlocking blocking)

def mark (b : Bundle) (position : Nat) : Bundle :=
  b.modify position Record.mark

/-- The names of the chunks that import `r` statically. -/
def importerNames (b : Bundle) (r : Record) : List String :=
  r.importers.filterMap fun i => (b.records[i]?).map (·.name)

/-- The names of the chunks that have to be transformed. -/
def needed (b : Bundle) : List String :=
  (b.records.filter (·.needsTransform)).map (·.name)

/-- Whether the chunk with the given name is part of the bundle and gets transformed. -/
def isTransformed (b : Bundle) (name : String) : Bool :=
  (b.get? name).any (·.needsTransform)

end Bundle

end Awaitless
