import Awaitless.FileTree.Access
import Mathlib.Data.List.Nodup

/-!
# What stands in a tree of files

A tree is a row of entries inside of a row of entries, and everything here is proved along these two
rows. The order of entries is the order of a listing, and means nothing: what counts is what
`FileTree.get?` finds at which place. Trees with the same answers to that are interchangeable
(`FileTree.Agrees`), and an overwritten file is a change of one answer (`FileTree.put_eq_mapFiles`).

* `FileTree.IsEntryName` — bytes that can name an entry.
* `FileTree.WellFormed` — every folder names each of its entries once.
* `FileTree.get?_append` — places are looked up step by step.
* `FileTree.mem_leaves_iff`, `FileTree.nodup_leaves` — all files and links, each of them once.
* `FileTree.mapFiles` — the same files with other contents.
* `FileTree.put_eq_mapFiles` — writing to a file changes its content and nothing else.
* `FileTree.Agrees` — trees that differ in the order of their listings at most.
-/

namespace Awaitless.FileTree

open RawText (stay back slash)

/-! ## Well-formed trees -/

/-- Bytes that can be the name of an entry: a step of a path that leads down. -/
structure IsEntryName (name : RawText) : Prop where
  ne_empty : name ≠ []
  ne_stay : name ≠ stay
  ne_back : name ≠ back
  slash_not_mem : slash ∉ name

instance (name : RawText) : Decidable (IsEntryName name) :=
  decidable_of_iff (name ≠ [] ∧ name ≠ stay ∧ name ≠ back ∧ slash ∉ name)
    ⟨fun ⟨h, h', h'', h'''⟩ => ⟨h, h', h'', h'''⟩, fun ⟨h, h', h'', h'''⟩ => ⟨h, h', h'', h'''⟩⟩

mutual

/-- Every folder of the tree names each of its entries once. -/
def WellFormed : FileTree → Prop
  | .file _ => True
  | .folder entries => WellFormedEntries entries
  | .link _ => True

/-- Each of the entries has a name of its own, and is well-formed. -/
def WellFormedEntries : List (RawText × FileTree) → Prop
  | [] => True
  | (name, t) :: rest =>
    IsEntryName name ∧ name ∉ rest.map (·.1) ∧ t.WellFormed ∧ WellFormedEntries rest

end

mutual

def decidableWellFormed : (t : FileTree) → Decidable t.WellFormed
  | .file _ => .isTrue trivial
  | .folder entries => decidableWellFormedEntries entries
  | .link _ => .isTrue trivial

def decidableWellFormedEntries :
    (entries : List (RawText × FileTree)) → Decidable (WellFormedEntries entries)
  | [] => .isTrue trivial
  | (name, t) :: rest =>
    have := decidableWellFormed t
    have := decidableWellFormedEntries rest
    inferInstanceAs
      (Decidable
        (IsEntryName name ∧ name ∉ rest.map (·.1) ∧ t.WellFormed ∧ WellFormedEntries rest))

end

instance (t : FileTree) : Decidable t.WellFormed :=
  decidableWellFormed t

/-- What a folder holds under a name, it has as an entry. -/
theorem mem_iff_lookup {entries : List (RawText × FileTree)} (h : WellFormedEntries entries)
    {name : RawText} {t : FileTree} : (name, t) ∈ entries ↔ entries.lookup name = some t := by
  induction entries with
  | nil => simp
  | cons e rest ih =>
    obtain ⟨n, u⟩ := e
    obtain ⟨-, hfresh, -, hrest⟩ := h
    by_cases hn : name = n
    · subst hn
      have habsent : (name, t) ∉ rest := fun hmem => hfresh (List.mem_map_of_mem hmem)
      simp [habsent, eq_comm]
    · simp [hn, List.lookup_cons, beq_eq_false_iff_ne.mpr hn, ih hrest]

/-- Names and trees of well-formed entries are well-formed themselves. -/
theorem WellFormedEntries.of_mem {entries : List (RawText × FileTree)}
    (h : WellFormedEntries entries) {name : RawText} {t : FileTree} (hmem : (name, t) ∈ entries) :
    IsEntryName name ∧ t.WellFormed := by
  induction entries with
  | nil => cases hmem
  | cons e rest ih =>
    obtain ⟨hname, -, ht, hrest⟩ := h
    rcases List.mem_cons.mp hmem with rfl | hmem
    · exact ⟨hname, ht⟩
    · exact ih hrest hmem

/-! ## Places -/

theorem get?_nil (t : FileTree) : t.get? [] = some t := by
  cases t <;> rfl

/-- In a folder, the first name is looked up and the rest goes on from there. -/
theorem get?_folder_cons (entries : List (RawText × FileTree)) (name : RawText) (rest : Place) :
    (folder entries).get? (name :: rest) = (entries.lookup name).bind (·.get? rest) := by
  rw [get?]
  cases entries.lookup name <;> rfl

/-- Places are looked up step by step. -/
theorem get?_append (t : FileTree) (place rest : Place) :
    t.get? (place ++ rest) = (t.get? place).bind (·.get? rest) := by
  induction place generalizing t with
  | nil => rw [get?_nil]; rfl
  | cons name place ih =>
    cases t with
    | file content => rfl
    | link path => rfl
    | folder entries =>
      rw [List.cons_append, get?_folder_cons, get?_folder_cons]
      cases entries.lookup name with
      | none => rfl
      | some t => exact ih t

/-- What something stands below is a folder. -/
theorem exists_folder_of_get? {t u : FileTree} {place : Place} {name : RawText} {rest : Place}
    (h : t.get? (place ++ name :: rest) = some u) :
    ∃ entries, t.get? place = some (.folder entries) := by
  rw [get?_append] at h
  obtain ⟨v, hv, hu⟩ := Option.bind_eq_some_iff.mp h
  cases v with
  | file content => cases hu
  | link path => cases hu
  | folder entries => exact ⟨entries, hv⟩

/-- In a well-formed tree, all is well-formed, and has a row of names as its place. -/
theorem WellFormed.of_get? {t u : FileTree} {place : Place} (h : t.WellFormed)
    (hget : t.get? place = some u) : (∀ s ∈ place, IsEntryName s) ∧ u.WellFormed := by
  induction place generalizing t with
  | nil =>
    rw [get?_nil] at hget
    cases hget
    exact ⟨nofun, h⟩
  | cons name rest ih =>
    cases t with
    | file content => cases hget
    | link path => cases hget
    | folder entries =>
      rw [get?_folder_cons] at hget
      -- one name is an entry of the folder, the others are looked up in it
      obtain ⟨v, hv, hu⟩ := Option.bind_eq_some_iff.mp hget
      obtain ⟨hname, hwf⟩ := WellFormedEntries.of_mem h ((mem_iff_lookup h).mpr hv)
      obtain ⟨hrest, hu⟩ := ih hwf hu
      exact ⟨List.forall_mem_cons.mpr ⟨hname, hrest⟩, hu⟩

/-! ## Leaves -/

/-- A file or a link stands at a place. -/
def HasLeaf (t : FileTree) (place : Place) : Prop :=
  (∃ content, t.get? place = some (.file content)) ∨ ∃ path, t.get? place = some (.link path)

/-- What a file or a link stands in is a folder. -/
theorem exists_folder_of_hasLeaf {t : FileTree} {place rest : Place}
    (h : t.HasLeaf (place ++ rest)) (hne : rest ≠ []) :
    ∃ entries, t.get? place = some (.folder entries) := by
  obtain ⟨name, more, rfl⟩ := List.exists_cons_of_ne_nil hne
  rcases h with ⟨_, hget⟩ | ⟨_, hget⟩ <;> exact exists_folder_of_get? hget

mutual

/-- The places of all files and links, in the order of the listing. -/
def leaves : FileTree → List Place
  | .file _ => [[]]
  | .folder entries => entryLeaves entries
  | .link _ => [[]]

/-- The places of the files and links of all entries. -/
def entryLeaves : List (RawText × FileTree) → List Place
  | [] => []
  | (name, t) :: rest => (leaves t).map (name :: ·) ++ entryLeaves rest

end

/-- The leaves of entries stand below their names. -/
theorem mem_entryLeaves {entries : List (RawText × FileTree)} {place : Place} :
    place ∈ entryLeaves entries ↔
      ∃ name t rest, (name, t) ∈ entries ∧ place = name :: rest ∧ rest ∈ t.leaves := by
  induction entries with
  | nil => simp [entryLeaves]
  | cons e entries ih =>
    obtain ⟨n, u⟩ := e
    rw [entryLeaves, List.mem_append, ih, List.mem_map]
    constructor
    · rintro (⟨rest, hmem, rfl⟩ | ⟨name, t, rest, hentry, hplace, hmem⟩)
      · exact ⟨n, u, rest, List.mem_cons_self .., rfl, hmem⟩
      · exact ⟨name, t, rest, List.mem_cons_of_mem _ hentry, hplace, hmem⟩
    · rintro ⟨name, t, rest, hentry, rfl, hmem⟩
      rcases List.mem_cons.mp hentry with heq | hentry
      · cases heq
        exact .inl ⟨rest, hmem, rfl⟩
      · exact .inr ⟨name, t, rest, hentry, rfl, hmem⟩

/-- A leaf below a folder is a leaf of one of its entries. -/
theorem hasLeaf_folder_cons {entries : List (RawText × FileTree)} {name : RawText} {rest : Place} :
    (folder entries).HasLeaf (name :: rest) ↔
      ∃ t, entries.lookup name = some t ∧ t.HasLeaf rest := by
  simp only [HasLeaf, get?_folder_cons, Option.bind_eq_some_iff]
  grind

/-- Exactly the files and links that stand somewhere are listed. -/
theorem mem_leaves_iff {t : FileTree} (h : t.WellFormed) {place : Place} :
    place ∈ t.leaves ↔ t.HasLeaf place := by
  induction place generalizing t with
  | nil =>
    cases t with
    | file c => simp [leaves, HasLeaf, get?]
    | folder entries => simp [leaves, mem_entryLeaves, HasLeaf, get?]
    | link path => simp [leaves, HasLeaf, get?]
  | cons name rest ih =>
    cases t with
    | file c => simp [leaves, HasLeaf, get?]
    | link path => simp [leaves, HasLeaf, get?]
    | folder entries =>
      -- the first name decides which entry the rest of the place lies in
      rw [leaves, mem_entryLeaves, hasLeaf_folder_cons]
      constructor
      · rintro ⟨name', t, rest', hentry, heq, hmem⟩
        cases heq
        have ht := (WellFormedEntries.of_mem h hentry).2
        exact ⟨t, (mem_iff_lookup h).mp hentry, (ih ht).mp hmem⟩
      · rintro ⟨t, hlookup, hleaf⟩
        have hentry := (mem_iff_lookup h).mpr hlookup
        have ht := (WellFormedEntries.of_mem h hentry).2
        exact ⟨name, t, rest, hentry, rfl, (ih ht).mpr hleaf⟩

mutual

/-- Every file and every link is listed once. -/
theorem nodup_leaves : (t : FileTree) → t.WellFormed → t.leaves.Nodup
  | .file _, _ => List.nodup_singleton _
  | .folder entries, h => nodup_entryLeaves entries h
  | .link _, _ => List.nodup_singleton _

/-- Entries have distinct names, so their leaves stand at distinct places. -/
theorem nodup_entryLeaves : (entries : List (RawText × FileTree)) → WellFormedEntries entries →
    (entryLeaves entries).Nodup
  | [], _ => List.nodup_nil
  | (name, t) :: rest, ⟨_, hfresh, ht, hrest⟩ => by
    rw [entryLeaves]
    refine List.Nodup.append ?_ (nodup_entryLeaves rest hrest) ?_
    · exact (nodup_leaves t ht).map (List.cons_injective (a := name))
    · -- leaves of other entries have other first names
      intro place hplace hother
      obtain ⟨place', -, rfl⟩ := List.mem_map.mp hplace
      obtain ⟨name', t', rest', hentry, heq, -⟩ := mem_entryLeaves.mp hother
      cases heq
      exact hfresh (List.mem_map_of_mem hentry)

end

/-! ## Other contents -/

mutual

/-- The same folders, files and links; what a file holds depends on its place and on what it held.
-/
def mapFiles (f : Place → ByteArray → ByteArray) : FileTree → FileTree
  | .file content => .file (f [] content)
  | .folder entries => .folder (mapEntries f entries)
  | .link path => .link path

def mapEntries (f : Place → ByteArray → ByteArray) :
    List (RawText × FileTree) → List (RawText × FileTree)
  | [] => []
  | (name, t) :: rest => (name, mapFiles (fun place => f (name :: place)) t) :: mapEntries f rest

end

mutual

/-- Files that keep their contents make up the same tree. -/
theorem mapFiles_eq_self {f : Place → ByteArray → ByteArray} : (t : FileTree) →
    (∀ place content, f place content = content) → t.mapFiles f = t
  | .file content, h => congrArg file (h [] content)
  | .folder entries, h => congrArg folder (mapEntries_eq_self entries fun _ _ _ => h _)
  | .link _, _ => rfl

theorem mapEntries_eq_self {f : Place → ByteArray → ByteArray} :
    (entries : List (RawText × FileTree)) →
      (∀ name ∈ entries.map (·.1), ∀ place content, f (name :: place) content = content) →
      mapEntries f entries = entries
  | [], _ => rfl
  | (_, t) :: rest, h => by
    obtain ⟨ht, hrest⟩ := List.forall_mem_cons.mp h
    rw [mapEntries, mapFiles_eq_self t ht, mapEntries_eq_self rest hrest]

end

mutual

/-- Two changes of contents are one. -/
theorem mapFiles_mapFiles (f g : Place → ByteArray → ByteArray) : (t : FileTree) →
    (t.mapFiles f).mapFiles g = t.mapFiles fun place content => g place (f place content)
  | .file _ => rfl
  | .folder entries => congrArg folder (mapEntries_mapEntries f g entries)
  | .link _ => rfl

theorem mapEntries_mapEntries (f g : Place → ByteArray → ByteArray) :
    (entries : List (RawText × FileTree)) → mapEntries g (mapEntries f entries) =
      mapEntries (fun place content => g place (f place content)) entries
  | [] => rfl
  | (name, t) :: rest => by
    rw [mapEntries, mapEntries, mapEntries, mapFiles_mapFiles _ _ t,
      mapEntries_mapEntries f g rest]

end

/-- A change of contents renames nothing. -/
theorem map_fst_mapEntries (f : Place → ByteArray → ByteArray)
    (entries : List (RawText × FileTree)) :
    (mapEntries f entries).map (·.1) = entries.map (·.1) := by
  induction entries with
  | nil => rfl
  | cons e rest ih => rw [mapEntries, List.map_cons, List.map_cons, ih]

mutual

/-- A change of contents leaves a tree well-formed. -/
theorem WellFormed.mapFiles (f : Place → ByteArray → ByteArray) : {t : FileTree} → t.WellFormed →
    (t.mapFiles f).WellFormed
  | .file _, _ => trivial
  | .folder _, h => WellFormedEntries.mapEntries f h
  | .link _, _ => trivial

theorem WellFormedEntries.mapEntries (f : Place → ByteArray → ByteArray) :
    {entries : List (RawText × FileTree)} → WellFormedEntries entries →
      WellFormedEntries (mapEntries f entries)
  | [], _ => trivial
  | (_, _) :: rest, ⟨hname, hfresh, ht, hrest⟩ =>
    ⟨hname, (map_fst_mapEntries f rest).symm ▸ hfresh, ht.mapFiles _, hrest.mapEntries f⟩

end

/-- What is found under a name has changed below this name. -/
theorem lookup_mapEntries (f : Place → ByteArray → ByteArray) (name : RawText)
    (entries : List (RawText × FileTree)) :
    (mapEntries f entries).lookup name =
      (entries.lookup name).map (mapFiles fun place => f (name :: place)) := by
  induction entries with
  | nil => rfl
  | cons e rest ih =>
    obtain ⟨n, t⟩ := e
    by_cases hn : name = n
    · simp [mapEntries, hn]
    · simp [mapEntries, List.lookup_cons, beq_eq_false_iff_ne.mpr hn, ih]

/-- The same places are taken. -/
theorem get?_mapFiles (f : Place → ByteArray → ByteArray) (t : FileTree) (place : Place) :
    (t.mapFiles f).get? place = (t.get? place).map (mapFiles fun rest => f (place ++ rest)) := by
  induction place generalizing t f with
  | nil => rw [get?_nil, get?_nil]; rfl
  | cons name rest ih =>
    cases t with
    | file content => rfl
    | link path => rfl
    | folder entries =>
      rw [mapFiles, get?_folder_cons, get?_folder_cons, lookup_mapEntries]
      cases entries.lookup name with
      | none => rfl
      | some t => exact ih _ t

/-- An entry that is replaced is the only one that changes. -/
theorem setEntry_eq_mapEntries {entries : List (RawText × FileTree)} {name : RawText} {t : FileTree}
    {f g : Place → ByteArray → ByteArray} (h : WellFormedEntries entries)
    (hlookup : entries.lookup name = some t) (hname : ∀ place, f (name :: place) = g place)
    (hother : ∀ n, n ≠ name → ∀ place content, f (n :: place) content = content) :
    setEntry name (t.mapFiles g) entries = mapEntries f entries := by
  induction entries with
  | nil => cases hlookup
  | cons e rest ih =>
    obtain ⟨n, u⟩ := e
    obtain ⟨-, hfresh, -, hwf⟩ := h
    by_cases hn : n = name
    · subst hn
      obtain rfl : u = t := by simpa using hlookup
      -- no other entry has this name, so the others stay as they are
      have hrest : mapEntries f rest = rest :=
        mapEntries_eq_self rest fun m hm => hother m fun heq => hfresh (heq ▸ hm)
      rw [setEntry, if_pos rfl, mapEntries, hrest, funext hname]
    · have hlookup : rest.lookup name = some t := by
        simpa [List.lookup_cons, beq_eq_false_iff_ne.mpr (Ne.symm hn)] using hlookup
      rw [setEntry, if_neg hn, mapEntries, mapFiles_eq_self u (hother n hn), ih hwf hlookup]

/-- Writing to a file changes its content and nothing else. -/
theorem put_eq_mapFiles {t : FileTree} (h : t.WellFormed) {place : Place} {old : ByteArray}
    (hfile : t.get? place = some (.file old)) (new : ByteArray) :
    t.put place (.file new) = t.mapFiles fun p content => if p = place then new else content := by
  induction place generalizing t with
  | nil =>
    rw [get?_nil] at hfile
    cases hfile
    rfl
  | cons name rest ih =>
    cases t with
    | file content => cases hfile
    | link path => cases hfile
    | folder entries =>
      rw [get?_folder_cons] at hfile
      obtain ⟨t, hlookup, hfile⟩ := Option.bind_eq_some_iff.mp hfile
      have ht := (WellFormedEntries.of_mem h ((mem_iff_lookup h).mpr hlookup)).2
      rw [put, hlookup, Option.getD_some, ih ht hfile, mapFiles]
      -- below the first name by induction, and nothing else below other names
      refine congrArg folder (setEntry_eq_mapEntries h hlookup (fun place => ?_) fun n hn => ?_)
      · funext content
        simp
      · simp [hn]

/-! ## Agreement -/

/-- What something is, whatever stands below it. -/
inductive Kind where
  | file (content : ByteArray)
  | folder
  | link (path : RawText)

def kind : FileTree → Kind
  | .file content => .file content
  | .folder _ => .folder
  | .link path => .link path

/-- The same files, folders and links stand at the same places; they may be listed in another
order. -/
def Agrees (t t' : FileTree) : Prop :=
  ∀ place, (t.get? place).map kind = (t'.get? place).map kind

theorem Agrees.symm {t t' : FileTree} (h : t.Agrees t') : t'.Agrees t :=
  fun place => (h place).symm

/-- What stands at the same place in both trees agrees, too. -/
theorem Agrees.of_get? {t t' u u' : FileTree} (h : t.Agrees t') {place : Place}
    (hu : t.get? place = some u) (hu' : t'.get? place = some u') : u.Agrees u' := by
  intro rest
  have hrest := h (place ++ rest)
  rwa [get?_append, get?_append, hu, hu'] at hrest

/-- What stands somewhere in a tree has a counterpart of the same kind. -/
theorem Agrees.exists_get? {t t' u : FileTree} (h : t.Agrees t') {place : Place}
    (hget : t.get? place = some u) : ∃ u', t'.get? place = some u' ∧ u'.kind = u.kind := by
  have hplace := h place
  rw [hget] at hplace
  exact Option.map_eq_some_iff.mp hplace.symm

section counterparts

variable {t t' : FileTree} (h : t.Agrees t') {place : Place}
include h

/-- Trees that agree have the same files at the same places. -/
theorem Agrees.get?_file {content : ByteArray} (hfile : t.get? place = some (.file content)) :
    t'.get? place = some (.file content) := by
  obtain ⟨u, hu, hkind⟩ := h.exists_get? hfile
  cases u with
  | file c =>
    cases hkind
    exact hu
  | folder entries => cases hkind
  | link path => cases hkind

/-- Links at the same places lead along the same paths. -/
theorem Agrees.get?_link {path : RawText} (hlink : t.get? place = some (.link path)) :
    t'.get? place = some (.link path) := by
  obtain ⟨u, hu, hkind⟩ := h.exists_get? hlink
  cases u with
  | file c => cases hkind
  | folder entries => cases hkind
  | link p =>
    cases hkind
    exact hu

/-- A folder stands where a folder stands, though its listing may differ. -/
theorem Agrees.get?_folder {entries : List (RawText × FileTree)}
    (hfolder : t.get? place = some (.folder entries)) :
    ∃ entries', t'.get? place = some (.folder entries') := by
  obtain ⟨u, hu, hkind⟩ := h.exists_get? hfolder
  cases u with
  | file c => cases hkind
  | folder entries' => exact ⟨entries', hu⟩
  | link path => cases hkind

theorem Agrees.hasLeaf (hleaf : t.HasLeaf place) : t'.HasLeaf place := by
  rcases hleaf with ⟨content, hfile⟩ | ⟨path, hlink⟩
  · exact .inl ⟨content, h.get?_file hfile⟩
  · exact .inr ⟨path, h.get?_link hlink⟩

theorem Agrees.get?_none (hnone : t.get? place = none) : t'.get? place = none := by
  have hplace := h place
  rw [hnone] at hplace
  exact Option.map_eq_none_iff.mp hplace.symm

end counterparts

end Awaitless.FileTree
