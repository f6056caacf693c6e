import Awaitless.CommandLine.Run
import Awaitless.Proofs.Failure
import Awaitless.Proofs.FileTree.Access

/-!
# The chunks of a folder

Reading finds the places of all chunks first, by a walk over the folders that are still to be read,
and then reads them, one after the other, by their paths. The walk finds the leaves below a folder
in an order of its own (`chunkPlacesBelow_perm`); as they are distinct, sorting leaves only one
order (`chunkPlaces_congr`). What reading results in can therefore be said without the walk: by
which chunks there are, and that they are in order (`AreChunksOf`).

* `IsChunkFile` — places of files that hold chunks, by the ends of their names.
* `chunkPlacesBelow_perm` — the walk over pending folders finds what stands below them.
* `AreChunksOf` — the chunks of a folder, described by what stands at which place.
* `chunksIn_eq_ok_iff` — reading results in these chunks, if it succeeds.
* `chunksIn_eq_unnamed_iff` — reading breaks off exactly at the first name that is no text.
* `chunksIn_congr` — the order of listings does not matter.
-/

namespace Awaitless.CommandLine

open FileTree

/-! ## Names of chunks -/

/-- A file holds a chunk if its name ends in `.js` or `.mjs`, and not only consists of that. -/
def IsChunkFile (place : FileTree.Place) : Prop :=
  ∃ folder stem, stem ≠ [] ∧
    (place = folder ++ [stem ++ RawText.ofString ".js"] ∨
      place = folder ++ [stem ++ RawText.ofString ".mjs"])

/-- What is read as an extension stands behind the last point, and something stands before it. -/
theorem exists_stem_of_extension? {name extension : RawText}
    (h : extension? name = some extension) :
    point ∉ extension ∧ ∃ stem, stem ≠ [] ∧ name = stem ++ point :: extension := by
  unfold extension? at h
  dsimp only at h
  -- the name from its end: the extension, what stops it, and the stem
  have hsplit := List.takeWhile_append_dropWhile (p := (· ≠ point)) (l := name.reverse)
  have hstop := List.head?_dropWhile_not (· ≠ point) name.reverse
  have hlast : point ∉ name.reverse.takeWhile (· ≠ point) := fun hmem => by
    simpa using List.all_eq_true.mp List.all_takeWhile _ hmem
  generalize name.reverse.takeWhile (· ≠ point) = last at h hsplit hlast
  generalize name.reverse.dropWhile (· ≠ point) = rest at hsplit hstop
  rw [← hsplit, List.drop_left] at h
  split at h
  · rename_i c d more
    cases h
    obtain rfl : c = point := by simpa using hstop
    have hname : name = (d :: more).reverse ++ point :: last.reverse := by
      rw [← List.reverse_reverse name, ← hsplit]
      simp
    exact ⟨by simpa using hlast, (d :: more).reverse, by simp, hname⟩
  · cases h

/-- The last point ends the stem, wherever others stand. -/
theorem extension?_append {stem extension : RawText} (hstem : stem ≠ [])
    (hpoint : point ∉ extension) : extension? (stem ++ point :: extension) = some extension := by
  have hreverse : (stem ++ point :: extension).reverse =
      extension.reverse ++ point :: stem.reverse := by simp
  have hlast : (extension.reverse ++ point :: stem.reverse).takeWhile (· ≠ point) =
      extension.reverse := by
    have hpass : ∀ c ∈ extension.reverse, decide (c ≠ point) = true := fun c hc =>
      decide_eq_true fun heq => hpoint (heq ▸ List.mem_reverse.mp hc)
    rw [List.takeWhile_append_of_pos hpass, List.takeWhile_cons_of_neg (by simp), List.append_nil]
  obtain ⟨c, rest, hrest⟩ := List.exists_cons_of_ne_nil
    (show stem.reverse ≠ [] by simpa using hstem)
  unfold extension?
  dsimp only
  rw [hreverse, hlast, List.drop_left, hrest, List.reverse_reverse]

/-- An extension is what follows the last point, unless nothing stands before this point. -/
theorem extension?_eq_some_iff {name extension : RawText} :
    extension? name = some extension ↔
      point ∉ extension ∧ ∃ stem, stem ≠ [] ∧ name = stem ++ point :: extension := by
  refine ⟨exists_stem_of_extension?, ?_⟩
  rintro ⟨hpoint, stem, hstem, rfl⟩
  exact extension?_append hstem hpoint

/-- Chunks are named by one of two endings, behind something else. -/
theorem isChunkName_iff {name : RawText} :
    isChunkName name = true ↔
      ∃ stem, stem ≠ [] ∧
        (name = stem ++ RawText.ofString ".js" ∨ name = stem ++ RawText.ofString ".mjs") := by
  rw [isChunkName, Bool.or_eq_true, decide_eq_true_iff, decide_eq_true_iff,
    extension?_eq_some_iff, extension?_eq_some_iff, and_iff_right (by decide),
    and_iff_right (by decide), ← exists_or]
  exact exists_congr fun stem => and_or_left.symm

/-- Whether a file at a place holds a chunk. -/
def isChunkPlace (place : FileTree.Place) : Bool :=
  place.getLast?.any isChunkName

/-- The last segment of a place decides. -/
theorem isChunkPlace_iff {place : FileTree.Place} :
    isChunkPlace place = true ↔ IsChunkFile place := by
  rw [isChunkPlace, Option.any_eq_true]
  constructor
  · rintro ⟨name, hlast, hname⟩
    obtain ⟨folder, rfl⟩ := List.getLast?_eq_some_iff.mp hlast
    obtain ⟨stem, hstem, rfl | rfl⟩ := isChunkName_iff.mp hname
    · exact ⟨folder, stem, hstem, .inl rfl⟩
    · exact ⟨folder, stem, hstem, .inr rfl⟩
  · rintro ⟨folder, stem, hstem, rfl | rfl⟩
    · exact ⟨_, List.getLast?_concat, isChunkName_iff.mpr ⟨stem, hstem, .inl rfl⟩⟩
    · exact ⟨_, List.getLast?_concat, isChunkName_iff.mpr ⟨stem, hstem, .inr rfl⟩⟩

theorem isChunkPlace_concat (folder : FileTree.Place) (name : RawText) :
    isChunkPlace (folder ++ [name]) = isChunkName name := by
  rw [isChunkPlace, List.getLast?_concat]
  rfl

theorem IsChunkFile.ne_nil {place : FileTree.Place} (h : IsChunkFile place) : place ≠ [] := by
  obtain ⟨folder, stem, -, rfl | rfl⟩ := h <;> simp

/-! ## The walk -/

/-- Where chunks stand below a folder, in the order of the listings. -/
def leavesBelow (folder : PendingFolder) : List FileTree.Place :=
  ((entryLeaves folder.2).map (folder.1 ++ ·)).filter isChunkPlace

/-- The leaves below entries are those of the first entry and of the others. -/
theorem leavesBelow_cons (place : FileTree.Place) (name : RawText) (t : FileTree)
    (entries : List (RawText × FileTree)) :
    leavesBelow (place, (name, t) :: entries) =
      ((t.leaves.map fun rest => place ++ name :: rest).filter isChunkPlace) ++
        leavesBelow (place, entries) := by
  rw [leavesBelow, entryLeaves, List.map_append, List.map_map, List.filter_append]
  rfl

/-- What stands below a folder stands in it, or below one of its folders. -/
theorem leavesBelow_perm (folder : PendingFolder) :
    (leavesBelow folder).Perm
      (chunkEntries folder ++ (folderEntries folder).flatMap leavesBelow) := by
  obtain ⟨place, entries⟩ := folder
  unfold chunkEntries folderEntries
  dsimp only
  induction entries with
  | nil => exact .nil
  | cons e entries ih =>
    obtain ⟨name, t⟩ := e
    -- an entry that is no folder is its only leaf
    have hleaf : [place ++ [name]].filter isChunkPlace =
        if isChunkName name then [place ++ [name]] else [] := by
      rw [List.filter_singleton, isChunkPlace_concat]
      cases isChunkName name <;> rfl
    rw [leavesBelow_cons, List.filterMap_cons, List.filterMap_cons]
    cases t with
    | file content =>
      dsimp only
      rw [leaves, List.map_singleton, hleaf]
      split
      · exact ih.cons _
      · exact ih
    | link path =>
      dsimp only
      rw [leaves, List.map_singleton, hleaf]
      split
      · exact ih.cons _
      · exact ih
    | folder inner =>
      dsimp only
      have hinner : ((folder inner).leaves.map fun rest => place ++ name :: rest) =
          (entryLeaves inner).map (place ++ [name] ++ ·) := by
        simp [leaves]
      rw [hinner, List.flatMap_cons]
      -- the leaves of this folder move behind those of the others
      refine (ih.append_left _).trans ?_
      exact List.perm_append_comm_assoc _ _ _

/-- The walk finds what stands below the pending folders, each place once. -/
theorem chunkPlacesBelow_perm (pending : List PendingFolder) :
    (chunkPlacesBelow pending).Perm (pending.flatMap leavesBelow) := by
  fun_induction chunkPlacesBelow pending with
  | case1 => exact .nil
  | case2 folder pending ih =>
    rw [List.flatMap_append] at ih
    have hreverse : ((folderEntries folder).reverse.flatMap leavesBelow).Perm
        ((folderEntries folder).flatMap leavesBelow) :=
      (List.reverse_perm _).flatMap_right _
    have hfirst := (leavesBelow_perm folder).symm.append_right (pending.flatMap leavesBelow)
    rw [List.append_assoc] at hfirst
    exact ((ih.trans (hreverse.append_right _)).append_left _).trans hfirst

/-! ## The places of chunks -/

section folders

variable {entries : List (RawText × FileTree)}

/-- The walk from a folder finds its files that hold chunks. -/
theorem chunkPlaces_perm (entries : List (RawText × FileTree)) :
    (chunkPlaces entries).Perm ((folder entries).leaves.filter isChunkPlace) := by
  refine (List.mergeSort_perm _ _).trans ((chunkPlacesBelow_perm _).trans ?_)
  have hroot : leavesBelow ([], entries) = (folder entries).leaves.filter isChunkPlace := by
    simp [leavesBelow, leaves]
  rw [List.flatMap_cons, List.flatMap_nil, List.append_nil, hroot]

/-- The walk finds all leaves that are named as chunks, and nothing else. -/
theorem mem_chunkPlaces_iff (h : WellFormedEntries entries) {place : FileTree.Place} :
    place ∈ chunkPlaces entries ↔ (folder entries).HasLeaf place ∧ IsChunkFile place := by
  rw [(chunkPlaces_perm entries).mem_iff, List.mem_filter, isChunkPlace_iff]
  exact and_congr_left fun _ => mem_leaves_iff (t := folder entries) h

/-- No place is found twice. -/
theorem nodup_chunkPlaces (h : WellFormedEntries entries) : (chunkPlaces entries).Nodup := by
  rw [(chunkPlaces_perm entries).nodup_iff]
  exact (nodup_leaves (folder entries) h).sublist List.filter_sublist

/-- Sorting leaves the places in their order. -/
theorem pairwise_chunkPlaces (h : WellFormedEntries entries) :
    (chunkPlaces entries).Pairwise PlaceBefore := by
  refine pairwise_sort ?_
  rw [← (List.mergeSort_perm _ fun a b => !decide (PlaceBefore b a)).nodup_iff]
  exact nodup_chunkPlaces h

/-- What stands in front of a place in the row comes before it, and nothing else does. -/
theorem mem_front_iff (h : WellFormedEntries entries) {front back : List FileTree.Place}
    {place place' : FileTree.Place} (hsplit : chunkPlaces entries = front ++ place :: back) :
    place' ∈ front ↔ place' ∈ chunkPlaces entries ∧ PlaceBefore place' place := by
  have hordered := pairwise_chunkPlaces h
  rw [hsplit, List.pairwise_append, List.pairwise_cons] at hordered
  obtain ⟨-, ⟨hback, -⟩, hfront⟩ := hordered
  constructor
  · intro hmem
    exact ⟨hsplit ▸ List.mem_append_left _ hmem, hfront place' hmem place (List.mem_cons_self ..)⟩
  · rintro ⟨hmem, hbefore⟩
    rw [hsplit] at hmem
    rcases List.mem_append.mp hmem with hmem | hmem
    · exact hmem
    · rcases List.mem_cons.mp hmem with rfl | hmem
      · exact absurd hbefore hbefore.asymm
      · exact absurd hbefore (hback place' hmem).asymm

end folders

/-- Rows in the order of places are the same if they have the same members. -/
theorem eq_of_pairwise_placeBefore {α : Type} (place : α → FileTree.Place) {xs ys : List α}
    (hxs : xs.Pairwise fun a b => PlaceBefore (place a) (place b))
    (hys : ys.Pairwise fun a b => PlaceBefore (place a) (place b)) (h : ∀ a, a ∈ xs ↔ a ∈ ys) :
    xs = ys := by
  have hne : ∀ {a b : α}, PlaceBefore (place a) (place b) → a ≠ b := by
    rintro a _ hab rfl
    exact hab.asymm hab
  have hperm : xs.Perm ys := (List.perm_ext_iff_of_nodup (hxs.imp hne) (hys.imp hne)).mpr h
  exact hperm.eq_of_pairwise (fun a b _ _ hab hba => absurd hba hab.asymm) hxs hys

/-- Folders in which the same files stand at the same places hold the same chunks. -/
theorem chunkPlaces_congr {entries entries' : List (RawText × FileTree)}
    (h : WellFormedEntries entries) (h' : WellFormedEntries entries')
    (hagree : (folder entries).Agrees (folder entries')) :
    chunkPlaces entries = chunkPlaces entries' := by
  refine eq_of_pairwise_placeBefore id (pairwise_chunkPlaces h) (pairwise_chunkPlaces h')
    fun place => ?_
  rw [mem_chunkPlaces_iff h, mem_chunkPlaces_iff h']
  exact and_congr_left fun _ => ⟨hagree.hasLeaf, hagree.symm.hasLeaf⟩

section below

variable {t : FileTree} (ht : t.WellFormed) {place : FileTree.Place}
  {entries : List (RawText × FileTree)} (hplace : t.get? place = some (.folder entries))
include ht hplace

/-- The chunks of a folder stand below its place in the tree. -/
theorem mem_chunkPlaces_iff_hasLeaf {rest : FileTree.Place} :
    rest ∈ chunkPlaces entries ↔ t.HasLeaf (place ++ rest) ∧ IsChunkFile rest := by
  rw [mem_chunkPlaces_iff (ht.of_get? hplace).2, HasLeaf, HasLeaf, get?_append, hplace]
  rfl

end below

/-- The path to a chunk below a folder is taken apart into its place. -/
theorem steps_pathTo_of_hasLeaf {t : FileTree} (ht : t.WellFormed) {place rest : FileTree.Place}
    (hleaf : t.HasLeaf (place ++ rest)) (hchunk : IsChunkFile rest) :
    (∀ s ∈ rest, IsEntryName s) ∧ (pathTo rest).steps = rest := by
  have hnames : ∀ s ∈ rest, IsEntryName s := by
    rcases hleaf with ⟨_, hget⟩ | ⟨_, hget⟩ <;>
      exact fun s hs => (ht.of_get? hget).1 s (List.mem_append_right _ hs)
  exact ⟨hnames, steps_pathTo hchunk.ne_nil hnames⟩

/-! ## Chunks -/

/-- The chunks of the folder at a place, whose path is `path`: one for each file and each link that
holds a chunk, in the order of their places. -/
structure AreChunksOf (t : FileTree) (here : FileTree.Place) (path : RawText)
    (place : FileTree.Place) (chunks : List Chunk) : Prop where
  /-- A chunk has its path from the folder as its name, and the text that this path leads to. -/
  mem_iff : ∀ c, c ∈ chunks ↔ ∃ rest, t.HasLeaf (place ++ rest) ∧ IsChunkFile rest ∧
    .ofString c.name = pathTo rest ∧ t.HoldsText here (inside path (pathTo rest)) c.text
  /-- No chunk is left out: all of them have such a name, and lead to a text. -/
  exists_mem : ∀ rest, t.HasLeaf (place ++ rest) → IsChunkFile rest →
    ∃ c ∈ chunks, .ofString c.name = pathTo rest
  ordered : chunks.Pairwise fun c c' =>
    PlaceBefore (RawText.ofString c.name).steps (RawText.ofString c'.name).steps

/-- A folder determines its chunks, and their order. -/
theorem AreChunksOf.unique {t : FileTree} {here place : FileTree.Place} {path : RawText}
    {chunks chunks' : List Chunk} (h : AreChunksOf t here path place chunks)
    (h' : AreChunksOf t here path place chunks') : chunks = chunks' :=
  eq_of_pairwise_placeBefore (fun c => (RawText.ofString c.name).steps) h.ordered h'.ordered
    fun c => (h.mem_iff c).trans (h'.mem_iff c).symm

/-- No two chunks stand at one place: a place does not come before itself. -/
theorem AreChunksOf.nodup_steps {t : FileTree} {here place : FileTree.Place} {path : RawText}
    {chunks : List Chunk} (h : AreChunksOf t here path place chunks) :
    (chunks.map fun c => (RawText.ofString c.name).steps).Nodup := by
  refine List.pairwise_map.mpr (h.ordered.imp fun {c c'} hbefore heq => ?_)
  rw [heq] at hbefore
  exact hbefore.asymm hbefore

/-- A chunk is read if its place can be named by a text, and holds a text. -/
theorem chunkAt_eq_ok_iff {t : FileTree} {here place : FileTree.Place} {folder : RawText}
    {c : Chunk} :
    chunkAt t here folder place = .ok c ↔ .ofString c.name = pathTo place ∧
      t.HoldsText here (inside folder (pathTo place)) c.text := by
  obtain ⟨name, text⟩ := c
  rw [← readText_eq_ok_iff, eq_comm (a := RawText.ofString _), ← RawText.text?_eq_some_iff]
  unfold chunkAt
  dsimp only
  rcases t.readText here (inside folder (pathTo place)) with o | text' <;>
    rcases (pathTo place).text? with _ | name' <;> simp

/-- A chunk is not given over for want of a name if it can be read and has none. -/
theorem chunkAt_eq_unnamed_iff {t : FileTree} {here place : FileTree.Place}
    {folder name : RawText} :
    chunkAt t here folder place = .error (.unnamed name) ↔ name = pathTo place ∧
      name.text? = none ∧ ∃ text, t.HoldsText here (inside folder name) text := by
  simp only [← readText_eq_ok_iff]
  unfold chunkAt
  dsimp only
  constructor
  · intro h
    split at h
    · cases h
    · rename_i htext hname
      cases h
      exact ⟨rfl, hname, _, htext⟩
    · cases h
  · rintro ⟨rfl, hname, text, htext⟩
    rw [htext, hname]

/-- The chunk below a folder at which reading breaks off: it can be read, but its path from the
folder is no text. All chunks before it are given over. -/
structure BreaksOff (t : FileTree) (here : FileTree.Place) (path : RawText)
    (place rest : FileTree.Place) : Prop where
  leaf : t.HasLeaf (place ++ rest)
  chunk : IsChunkFile rest
  unnamed : (pathTo rest).text? = none
  holdsText : ∃ text, t.HoldsText here (inside path (pathTo rest)) text
  before : ∀ rest', t.HasLeaf (place ++ rest') → IsChunkFile rest' → PlaceBefore rest' rest →
    ∃ c : Chunk, .ofString c.name = pathTo rest' ∧
      t.HoldsText here (inside path (pathTo rest')) c.text

/-- What is read from the leaves of a folder are its chunks. -/
theorem areChunksOf_of_mapM {t : FileTree} (ht : t.WellFormed) {here place : FileTree.Place}
    {entries : List (RawText × FileTree)} (hplace : t.get? place = some (.folder entries))
    {path : RawText} {chunks : List Chunk}
    (hchunks : (chunkPlaces entries).mapM (chunkAt t here path) = .ok chunks) :
    AreChunksOf t here path place chunks := by
  have hread := mapM_eq_ok_iff.mp hchunks
  refine ⟨fun c => ⟨fun hc => ?_, ?_⟩, fun rest hleaf hchunk => ?_, ?_⟩
  · -- every chunk that was read stands at one of the places
    obtain ⟨rest, hmem, hvalue⟩ := exists_of_mem_values hread hc
    obtain ⟨hleaf, hchunk⟩ := (mem_chunkPlaces_iff_hasLeaf ht hplace).mp hmem
    exact ⟨rest, hleaf, hchunk, chunkAt_eq_ok_iff.mp hvalue⟩
  · rintro ⟨rest, hleaf, hchunk, hc⟩
    have hmem := (mem_chunkPlaces_iff_hasLeaf ht hplace).mpr ⟨hleaf, hchunk⟩
    obtain ⟨c', hc', hvalue⟩ := exists_value_of_mem hread hmem
    rwa [Except.ok.inj ((chunkAt_eq_ok_iff.mpr hc).symm.trans hvalue)]
  · -- every place has been read
    have hmem := (mem_chunkPlaces_iff_hasLeaf ht hplace).mpr ⟨hleaf, hchunk⟩
    obtain ⟨c, hc, hvalue⟩ := exists_value_of_mem hread hmem
    exact ⟨c, hc, (chunkAt_eq_ok_iff.mp hvalue).1⟩
  · -- the chunks have their names from the places, one by one
    have hsteps : chunks.map (fun c => (RawText.ofString c.name).steps) = chunkPlaces entries := by
      rw [← List.map_id (chunkPlaces entries), List.map_eq_flatMap, List.map_eq_flatMap]
      refine flatMap_eq_of_mapM_eq_ok hchunks fun rest hmem c hvalue => ?_
      obtain ⟨hleaf, hchunk⟩ := (mem_chunkPlaces_iff_hasLeaf ht hplace).mp hmem
      rw [(chunkAt_eq_ok_iff.mp hvalue).1, (steps_pathTo_of_hasLeaf ht hleaf hchunk).2]
      rfl
    have hordered := pairwise_chunkPlaces (ht.of_get? hplace).2
    rw [← hsteps] at hordered
    exact List.pairwise_map.mp hordered

section reading

variable {t : FileTree} (ht : t.WellFormed) {here : FileTree.Place} {path : RawText}
include ht

/-- Reading results in the chunks of the folder that the path leads to, if it succeeds; it succeeds
if there is such a folder, and all of its chunks have names and lead to texts. -/
theorem chunksIn_eq_ok_iff {chunks : List Chunk} :
    chunksIn t here path = .ok chunks ↔
      ∃ place entries, t.LeadsTo here path place ∧ t.get? place = some (.folder entries) ∧
        AreChunksOf t here path place chunks := by
  unfold chunksIn
  constructor
  · intro h
    obtain ⟨entries, hfolder, hchunks⟩ := exists_of_bind_eq_ok h
    obtain ⟨place, hleads, hplace⟩ := folderAt_eq_ok_iff.mp (mapError_eq_ok_iff.mp hfolder)
    exact ⟨place, entries, hleads, hplace, areChunksOf_of_mapM ht hplace hchunks⟩
  · rintro ⟨place, entries, hleads, hplace, hchunks⟩
    -- every place has a chunk of the row, so all are read
    have hread : failure? ((chunkPlaces entries).mapM (chunkAt t here path)) = none := by
      rw [failure?_mapM, List.findSome?_eq_none_iff]
      intro rest hmem
      obtain ⟨hleaf, hchunk⟩ := (mem_chunkPlaces_iff_hasLeaf ht hplace).mp hmem
      obtain ⟨c, hc, hname⟩ := hchunks.exists_mem rest hleaf hchunk
      obtain ⟨rest', -, -, hname', htext⟩ := (hchunks.mem_iff c).mp hc
      rw [chunkAt_eq_ok_iff.mpr ⟨hname, hname.symm.trans hname' ▸ htext⟩]
      rfl
    obtain ⟨chunks', hchunks'⟩ := exists_of_failure?_eq_none hread
    rw [mapError_eq_ok_iff.mpr (folderAt_eq_ok_iff.mpr ⟨place, hleads, hplace⟩),
      hchunks.unique (areChunksOf_of_mapM ht hplace hchunks')]
    exact hchunks'

/-- Reading breaks off at the first chunk that has no name, if all before it can be read. -/
theorem chunksIn_eq_unnamed_iff {name : RawText} :
    chunksIn t here path = .error (.unnamed name) ↔
      ∃ place rest, t.LeadsTo here path place ∧ BreaksOff t here path place rest ∧
        name = pathTo rest := by
  unfold chunksIn
  constructor
  · intro h
    cases hfolder : t.folderAt here path with
    | error o =>
      rw [hfolder] at h
      cases h
    | ok entries =>
      rw [hfolder] at h
      obtain ⟨place, hleads, hplace⟩ := folderAt_eq_ok_iff.mp hfolder
      obtain ⟨front, rest, back, hsplit, hstop, hfront⟩ := mapM_eq_error_iff.mp h
      have hmem : rest ∈ chunkPlaces entries := hsplit ▸ List.mem_append_cons_self
      obtain ⟨hleaf, hchunk⟩ := (mem_chunkPlaces_iff_hasLeaf ht hplace).mp hmem
      obtain ⟨rfl, hname, htext⟩ := chunkAt_eq_unnamed_iff.mp hstop
      refine ⟨place, rest, hleads, ⟨hleaf, hchunk, hname, htext, ?_⟩, rfl⟩
      -- what comes before this place was read before it
      intro rest' hleaf' hchunk' hbefore
      have hmem' := (mem_chunkPlaces_iff_hasLeaf ht hplace).mpr ⟨hleaf', hchunk'⟩
      obtain ⟨c, hc⟩ :=
        hfront rest' ((mem_front_iff (ht.of_get? hplace).2 hsplit).mpr ⟨hmem', hbefore⟩)
      exact ⟨c, chunkAt_eq_ok_iff.mp hc⟩
  · rintro ⟨place, rest, hleads, h, rfl⟩
    obtain ⟨entries, hplace⟩ := exists_folder_of_hasLeaf h.leaf h.chunk.ne_nil
    have hmem := (mem_chunkPlaces_iff_hasLeaf ht hplace).mpr ⟨h.leaf, h.chunk⟩
    -- the row stops at this place, since all places before it can be read
    obtain ⟨front, back, hsplit⟩ := List.append_of_mem hmem
    rw [folderAt_eq_ok_iff.mpr ⟨place, hleads, hplace⟩]
    refine mapM_eq_error_iff.mpr ⟨front, rest, back, hsplit,
      chunkAt_eq_unnamed_iff.mpr ⟨rfl, h.unnamed, h.holdsText⟩, fun rest' hrest' => ?_⟩
    obtain ⟨hmem', hbefore⟩ := (mem_front_iff (ht.of_get? hplace).2 hsplit).mp hrest'
    obtain ⟨hleaf', hchunk'⟩ := (mem_chunkPlaces_iff_hasLeaf ht hplace).mp hmem'
    obtain ⟨c, hc⟩ := h.before rest' hleaf' hchunk' hbefore
    exact ⟨c, chunkAt_eq_ok_iff.mpr hc⟩

/-- The order of listings does not matter, also where reading fails. -/
theorem chunksIn_congr {t' : FileTree} (ht' : t'.WellFormed) (h : t.Agrees t') :
    chunksIn t here path = chunksIn t' here path := by
  have hplaces := h.map_folderAt here path (f := chunkPlaces) fun _ _ _ hget hget' =>
    chunkPlaces_congr (ht.of_get? hget).2 (ht'.of_get? hget').2 (h.of_get? hget hget')
  have hread : chunkAt t here path = chunkAt t' here path := by
    funext place
    rw [chunkAt, chunkAt, h.readText_eq]
  have hchunks : ∀ t : FileTree, chunksIn t here path =
      ((t.folderAt here path).map chunkPlaces).mapError (fun o => .problem (.reading path o)) >>=
        fun places => places.mapM (chunkAt t here path) := by
    intro t
    unfold chunksIn
    cases t.folderAt here path <;> rfl
  rw [hchunks, hchunks, hplaces, hread]

end reading

end Awaitless.CommandLine
