import Awaitless.FileTree.Basic

/-!
# Reading and writing by path

A path is read step by step: from the root of a tree if it starts with a slash, and from the place
where the command runs if not. Two dots lead back; at the root, they lead nowhere. Where a step
comes upon a link, the path of the link is read from the folder of the link, and the remaining steps
are taken from where it leads. Links may lead in circles, so only some of them are followed.

* `Obstacle` — what stands in the way.
* `FileTree.walk`, `FileTree.locate` — the place that steps lead to.
* `FileTree.folderAt`, `FileTree.read` — the folder or the file that a path leads to.
* `FileTree.makeFolders`, `FileTree.write` — the tree after creating folders or writing a file.
* `FileTree.ofFiles`, `FileTree.listing` — a tree from its files, and its files in order.
-/

namespace Awaitless

/-- What stands in the way of using a file or a folder. -/
inductive Obstacle where
  | notFound
  | alreadyThere
  | notAFolder
  | isAFolder
  | tooManyLinks
  | notText
deriving Repr, DecidableEq, Inhabited

def Obstacle.message : Obstacle → String
  | .notFound => "No such file or directory (os error 2)"
  | .alreadyThere => "File exists (os error 17)"
  | .notAFolder => "Not a directory (os error 20)"
  | .isAFolder => "Is a directory (os error 21)"
  | .tooManyLinks => "Too many levels of symbolic links (os error 40)"
  | .notText => "stream did not contain valid UTF-8"

namespace RawText

def slash : UInt8 := 0x2F

/-- The step that stays: one dot. -/
def stay : RawText := [0x2E]

/-- The step that goes back: two dots. -/
def back : RawText := [0x2E, 0x2E]

/-- The steps of a path: names, `stay` and `back`. -/
def steps (path : RawText) : List RawText :=
  (path.splitOn slash).filter (· ≠ [])

/-- The steps of a path that may have to lead to a folder; one that ends in a slash stays there. -/
def allSteps (path : RawText) : List RawText :=
  if path.getLast? = some slash then path.steps ++ [stay] else path.steps

/-- Whether a path can only lead to a folder. -/
def namesFolder (path : RawText) : Bool :=
  path.getLast? == some slash ||
    match path.steps.getLast? with
    | none => true
    | some last => last == stay || last == back

end RawText

open RawText (stay back slash)

namespace FileTree

/-! ## Where paths lead -/

/-- The place that a path is read from. -/
def start (here : Place) (path : RawText) : Place :=
  if path.head? = some slash then [] else here

/-- The place that steps lead to from a place, given how to go on from a place where a link is
read. Whatever a step starts from must be a folder; what the last step leads to may be missing. -/
def walk (t : FileTree) (follow : Place → List RawText → Except Obstacle Place) (place : Place) :
    List RawText → Except Obstacle Place
  | [] => .ok place
  | step :: rest =>
    match t.get? place with
    | none => .error .notFound
    | some (.file _) => .error .notAFolder
    | some (.link _) => .error .notAFolder
    | some (.folder _) =>
      if step = stay then walk t follow place rest
      else if step = back then walk t follow place.dropLast rest
      else
        match t.get? (place ++ [step]) with
        | some (.link path) => follow (start place path) (path.allSteps ++ rest)
        | _ => walk t follow (place ++ [step]) rest

/-- The place that steps lead to, following so many links. -/
def locateWithin (t : FileTree) : Nat → Place → List RawText → Except Obstacle Place
  | 0, place, row => t.walk (fun _ _ => .error .tooManyLinks) place row
  | links + 1, place, row => t.walk (t.locateWithin links) place row

/-- How many links are followed on the way along one path. -/
def linkLimit : Nat := 40

/-- The place that steps lead to. -/
def locate (t : FileTree) (place : Place) (row : List RawText) : Except Obstacle Place :=
  t.locateWithin linkLimit place row

/-- What a path leads to. -/
def find (t : FileTree) (here : Place) (path : RawText) : Except Obstacle FileTree := do
  match t.get? (← t.locate (start here path) path.steps) with
  | none => throw .notFound
  | some u => return u

/-- The entries of the folder that a path leads to. -/
def folderAt (t : FileTree) (here : Place) (path : RawText) :
    Except Obstacle (List (RawText × FileTree)) := do
  match ← t.find here path with
  | .folder entries => return entries
  | _ => throw .notAFolder

/-- The content of the file that a path leads to. -/
def read (t : FileTree) (here : Place) (path : RawText) : Except Obstacle ByteArray := do
  match ← t.find here path with
  | .file content => return content
  | .folder _ => throw .isAFolder
  | .link _ => throw .tooManyLinks

/-- The text in the file that a path leads to. -/
def readText (t : FileTree) (here : Place) (path : RawText) : Except Obstacle String := do
  match String.fromUTF8? (← t.read here path) with
  | some text => return text
  | none => throw .notText

/-! ## Changes -/

/-- The tree with a new folder; the way to it must be there, and nothing where it is to stand. -/
def makeFolder (t : FileTree) (place : Place) (way : List RawText) (last : RawText) :
    Except Obstacle FileTree := do
  let parent ← t.locate place way
  match t.get? parent with
  | none => throw .notFound
  | some (.folder _) =>
    if last = stay ∨ last = back ∨ (t.get? (parent ++ [last])).isSome then throw .alreadyThere
    else return t.put (parent ++ [last]) (.folder [])
  | some _ => throw .notAFolder

/-- Whether steps lead to a folder. -/
def leadsToFolder (t : FileTree) (place : Place) (row : List RawText) : Bool :=
  match t.locate place row with
  | .error _ => false
  | .ok target =>
    match t.get? target with
    | some (.folder _) => true
    | _ => false

/-- The tree with a folder where steps lead, an old or a new one. -/
def needFolder (t : FileTree) (place : Place) (way : List RawText) (last : RawText) :
    Except Obstacle FileTree :=
  if t.leadsToFolder place (way ++ [last]) then .ok t else t.makeFolder place way last

/-- The tree with a folder where steps, given from the last to the first, lead, and with folders on
the way if they are missing. -/
def makeFoldersBack (t : FileTree) (place : Place) : List RawText → Except Obstacle FileTree
  | [] => .ok t
  | last :: before =>
    match t.needFolder place before.reverse last with
    | .error .notFound => do
      let t ← makeFoldersBack t place before
      t.needFolder place before.reverse last
    | result => result

/-- The tree with all folders on the way to the last step of a path. -/
def makeFolders (t : FileTree) (here : Place) (path : RawText) : Except Obstacle FileTree :=
  t.makeFoldersBack (start here path) path.steps.dropLast.reverse

/-- The tree with a file written at the end of a path. -/
def write (t : FileTree) (here : Place) (path : RawText) (content : ByteArray) :
    Except Obstacle FileTree := do
  let place ← t.locate (start here path) path.steps
  if path.namesFolder then throw .isAFolder
  match t.get? place with
  | some (.folder _) => throw .isAFolder
  | some (.link _) => throw .tooManyLinks
  | _ => return t.put place (.file content)

/-! ## Order and paths -/

/-- Bytes come before others by the first one in which they differ, or if the others go on where
they end. -/
def NameBefore (name other : RawText) : Prop :=
  List.Lex (fun b b' : UInt8 => b.toNat < b'.toNat) name other

instance (name other : RawText) : Decidable (NameBefore name other) :=
  @List.decidableLex UInt8 _ (fun b b' => b.toNat < b'.toNat)
    (fun b b' => Nat.decLt b.toNat b'.toNat) name other

/-- A place comes before another by the first name in which they differ, or if the other goes on
where it ends. -/
def PlaceBefore (place other : Place) : Prop :=
  List.Lex NameBefore place other

instance (place other : Place) : Decidable (PlaceBefore place other) :=
  List.decidableLex NameBefore place other

/-- A place as a path. -/
def pathTo (place : Place) : RawText :=
  [slash].intercalate place

/-- A tree of files with the given paths; later files replace earlier ones. -/
def ofFiles (files : List (String × ByteArray)) : FileTree :=
  let add (t : FileTree) (file : String × ByteArray) : FileTree :=
    t.put ((RawText.ofString file.1).steps.filter (· ≠ stay)) (.file file.2)
  files.foldl add (.folder [])

/-- The paths and contents of all files, in the order of the bytes of the paths. -/
def listing (t : FileTree) : List (String × ByteArray) :=
  let files := (t.files.map fun (place, content) => (pathTo place, content)).mergeSort fun a b =>
    !decide (NameBefore b.1 a.1)
  files.map fun (path, content) => (path.shown, content)

end FileTree

end Awaitless
