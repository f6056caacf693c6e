import Awaitless.Text.Raw

/-!
# Trees of files

A tree is what the command sees of the files: folders with their entries in the order in which they
are listed, which is any order. A link stands in a folder like a file does. It says where else to
look, and nothing below it belongs to the tree; where it leads is a matter of reading paths.

* `FileTree` — a file, a folder with named entries, or a link.
* `FileTree.get?`, `FileTree.put` — what stands at a place, and a tree with something put there.
* `FileTree.files` — all files with their places.
* `FileTree.folderCount` — the number of its folders.
-/

namespace Awaitless

/-- A file, a folder with named entries, or a link to what a path leads to. -/
inductive FileTree where
  | file (content : ByteArray)
  | folder (entries : List (RawText × FileTree))
  | link (path : RawText)
deriving Inhabited

namespace FileTree

/-- The names from the root of a tree to one of its entries. -/
abbrev Place := List RawText

/-- The entries with the named one replaced, or added at the end. -/
def setEntry (name : RawText) (t : FileTree) :
    List (RawText × FileTree) → List (RawText × FileTree)
  | [] => [(name, t)]
  | (n, u) :: rest => if n = name then (n, t) :: rest else (n, u) :: setEntry name t rest

/-- What stands at a place. -/
def get? : FileTree → Place → Option FileTree
  | t, [] => some t
  | .folder entries, name :: rest =>
    match entries.lookup name with
    | some t => get? t rest
    | none => none
  | .file _, _ :: _ => none
  | .link _, _ :: _ => none

/-- The tree with something put at a place; folders that lead there are created, and what is no
folder and stands in the way stays. -/
def put : FileTree → Place → FileTree → FileTree
  | _, [], new => new
  | .folder entries, name :: rest, new =>
    .folder (setEntry name (put ((entries.lookup name).getD (.folder [])) rest new) entries)
  | .file content, _ :: _, _ => .file content
  | .link path, _ :: _, _ => .link path

/-! ## Files -/

mutual

/-- All files with their places, in the order of the listing. -/
def files : FileTree → List (Place × ByteArray)
  | .file content => [([], content)]
  | .folder entries => entryFiles entries
  | .link _ => []

/-- The files of all entries. -/
def entryFiles : List (RawText × FileTree) → List (Place × ByteArray)
  | [] => []
  | (name, t) :: rest =>
    (files t).map (fun (place, content) => (name :: place, content)) ++ entryFiles rest

end

/-! ## Folders -/

mutual

/-- The number of folders in a tree, with the tree itself. -/
def folderCount : FileTree → Nat
  | .folder entries => entryFolderCount entries + 1
  | .file _ => 0
  | .link _ => 0

/-- The number of folders in all entries. -/
def entryFolderCount : List (RawText × FileTree) → Nat
  | [] => 0
  | (_, t) :: rest => folderCount t + entryFolderCount rest

end

end FileTree

end Awaitless
