/-!
# Names of chunks as paths

A chunk is named by its place in the output: segments separated by slashes. A relative specifier
is read from the directory of the chunk that holds it.

* `Path` — a row of segments, from the root or not.
* `Path.normalize` — resolves `..` segments against the segments before them.
* `resolve?` — the chunk that a specifier refers to, if it can refer to one at all.
-/

namespace Awaitless

/-- A row of segments; none of them is empty or a single dot. -/
structure Path where
  absolute : Bool
  segments : List String
deriving Repr, DecidableEq, Inhabited

namespace Path

/-- The parts of a text between slashes. -/
def splitSlashes : List Char → List (List Char)
  | [] => [[]]
  | '/' :: rest => [] :: splitSlashes rest
  | c :: rest =>
    match splitSlashes rest with
    | first :: others => (c :: first) :: others
    | [] => [[c]]

/-- Reads a path; empty segments and single dots say nothing. -/
def ofString (text : String) : Path :=
  let chars := text.toList
  ⟨chars.head? == some '/',
   ((splitSlashes chars).map String.ofList).filter fun s => s ≠ "" && s ≠ "."⟩

/-- The directory that holds the path; the root and a single name lie in the empty directory. -/
def directory (p : Path) : Path :=
  match p.segments with
  | [] => ⟨false, []⟩
  | _ :: _ => ⟨p.absolute, p.segments.dropLast⟩

/-- The second path read from the first; one that starts at the root stands alone. -/
def append (dir p : Path) : Path :=
  if p.absolute then p else ⟨dir.absolute, dir.segments ++ p.segments⟩

/-- One segment onto a reversed row: `..` removes the segment before it, is kept where there is
none, and is dropped at the root. -/
def push (absolute : Bool) (reversed : List String) (segment : String) : List String :=
  if segment = ".." then
    match reversed with
    | [] => if absolute then [] else [".."]
    | last :: rest => if last = ".." then ".." :: reversed else rest
  else segment :: reversed

/-- Resolves the `..` segments. -/
def normalize (p : Path) : Path :=
  ⟨p.absolute, (p.segments.foldl (push p.absolute) []).reverse⟩

/-- The written form; the empty relative path is a dot. -/
def toString (p : Path) : String :=
  let body := String.intercalate "/" p.segments
  if p.absolute then "/" ++ body else if p.segments.isEmpty then "." else body

/-- `relative` read from the directory of `path`. -/
def joinFromDirectory (path relative : String) : String :=
  ((ofString path).directory.append (ofString relative)).normalize.toString

end Path

/-- Only specifiers that start with `./` or `../` point into the bundle. -/
def isRelative (specifier : String) : Bool :=
  match specifier.toList with
  | '.' :: '/' :: _ => true
  | '.' :: '.' :: '/' :: _ => true
  | _ => false

/-- The name of the chunk that `specifier`, written in the chunk `importer`, refers to. -/
def resolve? (importer specifier : String) : Option String :=
  if isRelative specifier then some (Path.joinFromDirectory importer specifier) else none

theorem resolve?_eq_none_iff {importer specifier : String} :
    resolve? importer specifier = none ↔ isRelative specifier = false := by
  simp [resolve?]

end Awaitless
