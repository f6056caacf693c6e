import Awaitless.Bundle.Report
import Awaitless.CommandLine.Arguments
import Awaitless.CommandLine.Summary
import Awaitless.FileTree.Access
import Awaitless.Transform

/-!
# Running the command on a tree of files

A run reads all chunks, builds them, writes the result and tells what it did. Everything is read
and built before anything is written.

Files and links are found by going through the folders, but they are read by their paths, so that a
link stands for what it leads to, also when it is written. The name of a chunk is its path from the
folder. It has to be a text, as other chunks refer to it; a run that comes upon another name breaks
off at once.

* `chunkPlacesBelow`, `chunksIn` — where chunks stand, folder by folder, and the chunks.
* `Invocation.store` — writes what was built.
* `Outcome` — how a run ends, and the files that are left.
* `Invocation.run`, `runAt` — the outcome of a run, and of the command with any arguments.
-/

namespace Awaitless.CommandLine

/-- Why files could not be read or written. -/
inductive FileProblem where
  | reading (path : RawText) (obstacle : Obstacle)
  | creating (obstacle : Obstacle)
  | writing (path : RawText) (obstacle : Obstacle)
deriving Repr, DecidableEq, Inhabited

def FileProblem.message : FileProblem → String
  | .reading path o => "Failed to read " ++ path.shown ++ ": " ++ o.message
  | .creating o => o.message
  | .writing path o => "Failed to write " ++ path.shown ++ ": " ++ o.message

/-- Why reading ends before all chunks are there. -/
inductive Stop where
  | problem (p : FileProblem)
  /-- The path of a chunk from the folder is no text. -/
  | unnamed (path : RawText)
deriving Repr, DecidableEq, Inhabited

/-! ## Reading -/

/-- What stands before an extension. -/
def point : UInt8 := 0x2E

/-- What follows the last point of a name, unless the name only starts with it. -/
def extension? (name : RawText) : Option RawText :=
  let reversed := name.reverse
  let last := reversed.takeWhile (· ≠ point)
  match reversed.drop last.length with
  | _ :: _ :: _ => some last.reverse
  | _ => none

/-- Whether a file of this name holds a chunk. -/
def isChunkName (name : RawText) : Bool :=
  extension? name = some (.ofString "js") || extension? name = some (.ofString "mjs")

/-- A folder that is still to be read: its place, and its entries. -/
abbrev PendingFolder := FileTree.Place × List (RawText × FileTree)

/-- Where chunks stand in a folder: all of its entries that are named so and are no folders. -/
def chunkEntries (folder : PendingFolder) : List FileTree.Place :=
  folder.2.filterMap fun (name, t) =>
    match t with
    | .folder _ => none
    | _ => if isChunkName name then some (folder.1 ++ [name]) else none

/-- The folders of a folder. -/
def folderEntries (folder : PendingFolder) : List PendingFolder :=
  folder.2.filterMap fun (name, t) =>
    match t with
    | .folder entries => some (folder.1 ++ [name], entries)
    | _ => none

/-- How many folders are still to be read, with all folders below. -/
def pendingCount : List PendingFolder → Nat
  | [] => 0
  | folder :: pending => FileTree.entryFolderCount folder.2 + 1 + pendingCount pending

theorem pendingCount_append (found pending : List PendingFolder) :
    pendingCount (found ++ pending) = pendingCount found + pendingCount pending := by
  induction found with
  | nil => exact (Nat.zero_add _).symm
  | cons folder found ih =>
    rw [List.cons_append, pendingCount, pendingCount, ih]
    omega

theorem pendingCount_reverse (pending : List PendingFolder) :
    pendingCount pending.reverse = pendingCount pending := by
  induction pending with
  | nil => rfl
  | cons folder pending ih =>
    rw [List.reverse_cons, pendingCount_append, ih, pendingCount, pendingCount, pendingCount]
    omega

theorem pendingCount_folderEntries (folder : PendingFolder) :
    pendingCount (folderEntries folder) = FileTree.entryFolderCount folder.2 := by
  obtain ⟨place, entries⟩ := folder
  unfold folderEntries
  dsimp only
  induction entries with
  | nil => rfl
  | cons entry entries ih =>
    obtain ⟨name, content | inner | path⟩ := entry
    · rw [List.filterMap_cons, ih, FileTree.entryFolderCount, FileTree.folderCount, Nat.zero_add]
    · rw [List.filterMap_cons, FileTree.entryFolderCount, FileTree.folderCount]
      dsimp only
      rw [pendingCount, ih]
    · rw [List.filterMap_cons, ih, FileTree.entryFolderCount, FileTree.folderCount, Nat.zero_add]

/-- Where chunks stand, in folders that are still to be read and in all folders below. The folder
that was found last is read first. -/
def chunkPlacesBelow : List PendingFolder → List FileTree.Place
  | [] => []
  | folder :: pending =>
    chunkEntries folder ++ chunkPlacesBelow ((folderEntries folder).reverse ++ pending)
termination_by pending => pendingCount pending
decreasing_by
  rw [pendingCount_append, pendingCount_reverse, pendingCount_folderEntries, pendingCount]
  omega

/-- Where chunks stand in a folder and in all folders below, name by name. -/
def chunkPlaces (entries : List (RawText × FileTree)) : List FileTree.Place :=
  (chunkPlacesBelow [([], entries)]).mergeSort fun a b => !decide (FileTree.PlaceBefore b a)

/-- A path inside of a folder. -/
def inside (folder name : RawText) : RawText :=
  if folder.getLast? = some RawText.slash then folder ++ name
  else folder ++ RawText.slash :: name

/-- The chunk at a place below a folder; its name is its path from the folder. -/
def chunkAt (t : FileTree) (here : FileTree.Place) (folder : RawText) (place : FileTree.Place) :
    Except Stop Chunk :=
  let name := FileTree.pathTo place
  let path := inside folder name
  match t.readText here path, name.text? with
  | .error o, _ => .error (.problem (.reading path o))
  | .ok _, none => .error (.unnamed name)
  | .ok text, some name => .ok ⟨name, text⟩

/-- The chunks in a folder of a tree. -/
def chunksIn (t : FileTree) (here : FileTree.Place) (folder : RawText) :
    Except Stop (List Chunk) := do
  let entries ← (t.folderAt here folder).mapError fun o => .problem (.reading folder o)
  (chunkPlaces entries).mapM (chunkAt t here folder)

/-! ## Writing -/

/-- An action on a tree of files; what was done before a problem stays done. -/
abbrev OnTree := EStateM FileProblem FileTree

/-- Replaces the tree, if nothing stands in the way. -/
def change (problem : Obstacle → FileProblem) (f : FileTree → Except Obstacle FileTree) :
    OnTree Unit := do
  match f (← get) with
  | .ok t => set t
  | .error o => throw (problem o)

/-- Writes a chunk into a folder. -/
def storeChunk (here : FileTree.Place) (folder : RawText) (c : OutputChunk) : OnTree Unit := do
  let path := inside folder (.ofString c.name)
  change .creating fun t => t.makeFolders here path
  change (.writing path) fun t => t.write here path c.text.toUTF8

namespace Invocation

/-- The chunks that are written: all of them into another folder, and only the transformed ones
where they came from. -/
def written (i : Invocation) (o : Output) : List OutputChunk :=
  o.chunks.filter fun c => c.transformed || i.target.isSome

/-- Writes what was built. -/
def store (i : Invocation) (here : FileTree.Place) (o : Output) : OnTree Unit := do
  (i.written o).forM (storeChunk here (i.target.getD i.folder))
  match i.report with
  | none => pure ()
  | some path => change (.writing path) fun t => t.write here path (Report.text o.bundle).toUTF8

end Invocation

/-! ## Runs -/

/-- How a run ends: broken off, with errors, or with what is told before the time it took. -/
inductive Ending where
  | brokenOff (complaint : String)
  | failed (errors : List String)
  | finished (told : List String)
deriving Repr, DecidableEq, Inhabited

/-- What a run leaves. -/
structure Outcome where
  ending : Ending
  tree : FileTree
deriving Inhabited

namespace Invocation

/-- The lines about a build, unless they are not wanted. -/
def tell (i : Invocation) (o : Output) : List String :=
  if i.silent then []
  else o.warnings.map (fun w => warningLine w.message) ++ chunkLines o.chunks

/-- Runs a build at a place of a tree of files. -/
def run (i : Invocation) (here : FileTree.Place) (t : FileTree) : Outcome :=
  match chunksIn t here i.folder with
  | .error (.problem p) => ⟨.failed [p.message], t⟩
  | .error (.unnamed path) =>
    ⟨.brokenOff ("Failed to convert " ++ path.quoted ++ " to slash str"), t⟩
  | .ok chunks =>
    match transform i.settings chunks with
    | .error problems => ⟨.failed (problems.map Problem.chain), t⟩
    | .ok output =>
      match (i.store here output).run t with
      | .error p t => ⟨.failed [p.message], t⟩
      | .ok _ t => ⟨.finished (i.tell output), t⟩

end Invocation

/-- What the command answers: a text to show, a refusal, or the end of a run. -/
inductive Answer where
  | text (shown : String)
  | refused (reason : Refusal)
  | ended (ending : Ending)
deriving Repr, DecidableEq, Inhabited

namespace Answer

def exitCode : Answer → Nat
  | .text _ => 0
  | .refused _ => 2
  | .ended (.brokenOff _) => 101
  | .ended (.failed _) => 1
  | .ended (.finished _) => 0

/-- The text that is told, given the time that the run took in milliseconds. -/
def output (elapsed : String) : Answer → String
  | .text shown => shown
  | .refused _ => ""
  | .ended (.brokenOff _) => ""
  | .ended (.failed errors) => String.join (errors.map errorLine)
  | .ended (.finished told) => String.join told ++ finishLine elapsed

/-- What is told beside the output: why there was no regular end. -/
def complaint? : Answer → Option String
  | .refused reason => some reason.message
  | .ended (.brokenOff complaint) => some complaint
  | _ => none

end Answer

/-- Runs the command at a place of a tree of files: what it answers, and the tree that is left. -/
def runAt (here : FileTree.Place) (arguments : List RawText) (t : FileTree) : Answer × FileTree :=
  match Command.ofArguments arguments with
  | .error reason => (.refused reason, t)
  | .ok .showHelp => (.text helpText, t)
  | .ok .showVersion => (.text versionText, t)
  | .ok (.run i) =>
    let outcome := i.run here t
    (.ended outcome.ending, outcome.tree)

/-- Runs the command at the root of a tree of files, with texts as arguments. -/
def run (arguments : List String) (t : FileTree) : Answer × FileTree :=
  runAt [] (arguments.map .ofString) t

end Awaitless.CommandLine
