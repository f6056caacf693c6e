import Awaitless.Proofs.FileTree.Contents
import Mathlib.Data.List.Lex

/-!
# Reading and writing by path

A walk along steps ends at a place or breaks off, and where it comes upon a link it starts anew,
with one link less to follow. Facts about paths are therefore proved twice over: along the steps,
for whatever is done at links (`FileTree.walk`), and then along the number of links
(`FileTree.locateWithin`).

A walk sees of a tree only which places are taken by folders, files and links, so that neither the
order of listings nor the contents of files matter to it.

* `FileTree.LeadsTo`, `FileTree.HoldsText` — where a path leads, and which text it leads to.
* `FileTree.locate_append`, `FileTree.walk_of_get?` — steps go on where those before them end, and
  names lead down.
* `FileTree.locate_congr` — a walk does not see more than waypoints.
* `FileTree.makeFolders_eq_self` — where all folders are there, none is created.
* `FileTree.write_eq_mapFiles` — writing to a file changes its content and nothing else.
* `FileTree.Agrees.map_folderAt` — the order of listings does not matter to paths.
* `FileTree.pairwise_sort` — sorting brings places into their order.
-/

namespace Awaitless

open RawText (stay back slash)

/-! ## Paths as steps -/

namespace RawText

/-- A slash separates the steps before it from those behind. -/
theorem steps_append (before after : RawText) :
    steps (before ++ slash :: after) = steps before ++ steps after := by
  rw [steps, List.splitOn_append_cons_self, List.filter_append, ← steps, ← steps]

end RawText

namespace FileTree

/-- The steps of a path that was made of names are these names. -/
theorem steps_pathTo {place : Place} (hne : place ≠ []) (h : ∀ s ∈ place, IsEntryName s) :
    (pathTo place).steps = place := by
  have hsplit : (pathTo place).splitOn slash = place :=
    List.splitOn_intercalate slash (fun s hs => (h s hs).slash_not_mem) hne
  rw [RawText.steps, hsplit, List.filter_eq_self]
  exact fun s hs => decide_eq_true (h s hs).ne_empty

/-- A path that was made of names does not end in a slash. -/
theorem getLast?_pathTo_ne {place : Place} (h : ∀ s ∈ place, IsEntryName s) :
    (pathTo place).getLast? ≠ some slash := by
  intro hlast
  obtain ⟨front, hfront⟩ := List.getLast?_eq_some_iff.mp hlast
  have hne : place ≠ [] := by
    rintro rfl
    cases hlast
  -- taken apart at this slash, the path would end in an empty name
  have hsplit : (pathTo place).splitOn slash = place :=
    List.splitOn_intercalate slash (fun s hs => (h s hs).slash_not_mem) hne
  rw [hfront, List.splitOn_append_cons_self, List.splitOn_nil] at hsplit
  have hmem : [] ∈ place := by
    rw [← hsplit]
    exact List.mem_append_right _ (List.mem_singleton_self _)
  exact (h _ hmem).ne_empty rfl

/-- A path that goes on starts where it started. -/
theorem start_append {path : RawText} (h : path ≠ []) (here : Place) (more : RawText) :
    start here (path ++ more) = start here path := by
  rw [start, start, List.head?_append_of_ne_nil _ h]

/-- The path leads to the place, where something may be missing. -/
def LeadsTo (t : FileTree) (here : Place) (path : RawText) (place : Place) : Prop :=
  t.locate (start here path) path.steps = .ok place

/-- The path leads to a file that holds the bytes of a text. -/
def HoldsText (t : FileTree) (here : Place) (path : RawText) (text : String) : Prop :=
  ∃ place content, t.LeadsTo here path place ∧ t.get? place = some (.file content) ∧
    String.fromUTF8? content = some text

/-! ## Walks -/

/-- What matters to a walk of what it comes upon. -/
inductive Waypoint where
  | deadEnd
  | folder
  | link (path : RawText)

def waypoint : FileTree → Waypoint
  | .file _ => .deadEnd
  | .folder _ => .folder
  | .link path => .link path

section walks

variable {t t' : FileTree} {follow follow' : Place → List RawText → Except Obstacle Place}

/-- One step of a walk, in terms of waypoints. -/
theorem walk_cons (t : FileTree) (follow : Place → List RawText → Except Obstacle Place)
    (place : Place) (step : RawText) (rest : List RawText) :
    t.walk follow place (step :: rest) =
      match (t.get? place).map waypoint with
      | none => .error .notFound
      | some .folder =>
        if step = stay then t.walk follow place rest
        else if step = back then t.walk follow place.dropLast rest
        else
          match (t.get? (place ++ [step])).map waypoint with
          | some (.link path) => follow (start place path) (path.allSteps ++ rest)
          | _ => t.walk follow (place ++ [step]) rest
      | some _ => .error .notAFolder := by
  rw [walk]
  rcases t.get? place with _ | _ | _ | _
  · rfl
  · rfl
  · dsimp only [Option.map_some, waypoint]
    rcases t.get? (place ++ [step]) with _ | _ | _ | _ <;> rfl
  · rfl

/-- Names lead down to what stands there, unless it is a link; no link is followed on the way. -/
theorem walk_of_get? (follow : Place → List RawText → Except Obstacle Place) {u : FileTree}
    {place : Place} {row : List RawText} (hrow : ∀ s ∈ row, IsEntryName s)
    (h : t.get? (place ++ row) = some u) (hlink : ∀ path, u ≠ .link path) :
    t.walk follow place row = .ok (place ++ row) := by
  induction row generalizing place with
  | nil => rw [List.append_nil]; rfl
  | cons name row ih =>
    obtain ⟨hname, hrow⟩ := List.forall_mem_cons.mp hrow
    obtain ⟨entries, hfolder⟩ := exists_folder_of_get? h
    rw [List.append_cons] at h
    -- what stands at the name is what was looked for, or a folder on the way
    have hnext : ∀ path, t.get? (place ++ [name]) ≠ some (.link path) := by
      intro path hpath
      cases row with
      | nil =>
        rw [List.append_nil, hpath] at h
        exact hlink path (Option.some.inj h).symm
      | cons name' row =>
        obtain ⟨entries', hfolder'⟩ := exists_folder_of_get? h
        rw [hpath] at hfolder'
        cases hfolder'
    rw [walk, hfolder, List.append_cons place name row]
    dsimp only
    rw [if_neg hname.ne_stay, if_neg hname.ne_back]
    split
    · rename_i path hpath
      exact absurd hpath (hnext path)
    · exact ih hrow h

/-- Steps go on from where those before them end. -/
theorem walk_append {place target target' : Place} {row row' : List RawText}
    (h : t.walk follow place row = .ok target)
    (hfollow : ∀ p r, follow p r = .ok target → follow' p (r ++ row') = .ok target')
    (hrest : t.walk follow' target row' = .ok target') :
    t.walk follow' place (row ++ row') = .ok target' := by
  induction row generalizing place with
  | nil =>
    cases h
    exact hrest
  | cons step row ih =>
    rw [walk_cons] at h
    rw [List.cons_append, walk_cons]
    -- a step stays, goes up, or goes on to an entry; only a link leaves the induction, for `follow`
    split at h
    · cases h
    · split at h
      · rename_i hstay
        rw [if_pos hstay]
        exact ih h
      · rename_i hstay
        rw [if_neg hstay]
        split at h
        · rename_i hback
          rw [if_pos hback]
          exact ih h
        · rename_i hback
          rw [if_neg hback]
          split at h
          · rw [← List.append_assoc]
            exact hfollow _ _ h
          · exact ih h
    · cases h

/-- A walk sees waypoints only. -/
theorem walk_congr (h : ∀ place, (t.get? place).map waypoint = (t'.get? place).map waypoint)
    (hfollow : ∀ p r, follow p r = follow' p r) (place : Place) (row : List RawText) :
    t.walk follow place row = t'.walk follow' place row := by
  induction row generalizing place with
  | nil => rfl
  | cons step row ih => simp only [walk_cons, h, hfollow, ih]

end walks

/-! ## Places -/

section places

variable {t t' : FileTree}

/-- Names go on from where the steps before them end. -/
theorem locate_append {u : FileTree} {place target : Place} {row row' : List RawText}
    (h : t.locate place row = .ok target) (hrow' : ∀ s ∈ row', IsEntryName s)
    (hget : t.get? (target ++ row') = some u) (hlink : ∀ path, u ≠ .link path) :
    t.locate place (row ++ row') = .ok (target ++ row') := by
  unfold locate at *
  generalize linkLimit = links at *
  induction links generalizing place row with
  | zero => exact walk_append h nofun (walk_of_get? _ hrow' hget hlink)
  | succ links ih =>
    exact walk_append h (fun _ _ hfollow => ih hfollow) (walk_of_get? _ hrow' hget hlink)

/-- A walk does not see more of a tree than which places are taken by what. -/
theorem locate_congr (h : ∀ place, (t.get? place).map waypoint = (t'.get? place).map waypoint)
    (place : Place) (row : List RawText) : t.locate place row = t'.locate place row := by
  unfold locate
  generalize linkLimit = links
  induction links generalizing place row with
  | zero => exact walk_congr h (fun _ _ => rfl) place row
  | succ links ih => exact walk_congr h ih place row

/-- Other contents do not lead to other places. -/
theorem locate_mapFiles (f : Place → ByteArray → ByteArray) (t : FileTree) (place : Place)
    (row : List RawText) : (t.mapFiles f).locate place row = t.locate place row := by
  refine locate_congr (fun place => ?_) place row
  rw [get?_mapFiles]
  rcases t.get? place with _ | _ | _ | _ <;> rfl

/-- The order of listings is no waypoint. -/
theorem Agrees.locate_eq (h : t.Agrees t') (place : Place) (row : List RawText) :
    t.locate place row = t'.locate place row := by
  refine locate_congr (fun place => ?_) place row
  cases hget : t.get? place with
  | none => rw [h.get?_none hget]
  | some u =>
    cases u with
    | file content => rw [h.get?_file hget]
    | link path => rw [h.get?_link hget]
    | folder entries =>
      obtain ⟨entries', hget'⟩ := h.get?_folder hget
      rw [hget']
      rfl

end places

/-! ## Paths -/

section paths

variable {t : FileTree} {here : Place} {path : RawText}

/-- A path leads to one place at most. -/
theorem LeadsTo.unique {place place' : Place} (h : t.LeadsTo here path place)
    (h' : t.LeadsTo here path place') : place = place' :=
  Except.ok.inj (h.symm.trans h')

/-- Contents do not matter to where a path leads. -/
theorem leadsTo_mapFiles {f : Place → ByteArray → ByteArray} {place : Place} :
    (t.mapFiles f).LeadsTo here path place ↔ t.LeadsTo here path place := by
  rw [LeadsTo, LeadsTo, locate_mapFiles]

/-- A path finds what stands at the place that it leads to. -/
theorem find_of_leadsTo {place : Place} (h : t.LeadsTo here path place) :
    t.find here path =
      match t.get? place with
      | none => .error .notFound
      | some u => .ok u := by
  unfold find
  rw [h]
  rfl

/-- What is found along a path stands at the place to which it leads. -/
theorem find_eq_ok_iff {u : FileTree} :
    t.find here path = .ok u ↔ ∃ place, t.LeadsTo here path place ∧ t.get? place = some u := by
  constructor
  · intro h
    cases hlocate : t.locate (start here path) path.steps with
    | error o =>
      unfold find at h
      rw [hlocate] at h
      cases h
    | ok place =>
      refine ⟨place, hlocate, ?_⟩
      -- a walk may end at a place where nothing stands yet
      rw [find_of_leadsTo hlocate] at h
      split at h
      · cases h
      · rename_i hplace
        cases h
        exact hplace
  · rintro ⟨place, hleads, hplace⟩
    rw [find_of_leadsTo hleads, hplace]

/-- Only a folder can be listed. -/
theorem folderAt_eq_ok_iff {entries : List (RawText × FileTree)} :
    t.folderAt here path = .ok entries ↔
      ∃ place, t.LeadsTo here path place ∧ t.get? place = some (.folder entries) := by
  rw [← find_eq_ok_iff]
  unfold folderAt
  rcases t.find here path with o | _ | _ | _
  · exact iff_of_false nofun nofun
  · exact iff_of_false nofun nofun
  · exact ⟨fun h => congrArg _ (congrArg folder (Except.ok.inj h)), fun h => by cases h; rfl⟩
  · exact iff_of_false nofun nofun

/-- Only a file can be read. -/
theorem read_eq_ok_iff {content : ByteArray} :
    t.read here path = .ok content ↔
      ∃ place, t.LeadsTo here path place ∧ t.get? place = some (.file content) := by
  rw [← find_eq_ok_iff]
  unfold read
  rcases t.find here path with o | _ | _ | _
  · exact iff_of_false nofun nofun
  · exact ⟨fun h => congrArg _ (congrArg file (Except.ok.inj h)), fun h => by cases h; rfl⟩
  · exact iff_of_false nofun nofun
  · exact iff_of_false nofun nofun

/-- A text is read from a file that holds its bytes. -/
theorem readText_eq_ok_iff {text : String} :
    t.readText here path = .ok text ↔ t.HoldsText here path text := by
  constructor
  · intro h
    cases hread : t.read here path with
    | error o =>
      unfold readText at h
      rw [hread] at h
      cases h
    | ok content =>
      obtain ⟨place, hleads, hplace⟩ := read_eq_ok_iff.mp hread
      refine ⟨place, content, hleads, hplace, ?_⟩
      unfold readText at h
      rw [hread] at h
      dsimp only [bind, Except.bind] at h
      split at h
      · rename_i text' htext
        cases h
        exact htext
      · cases h
  · rintro ⟨place, content, hleads, hplace, htext⟩
    unfold readText
    rw [read_eq_ok_iff.mpr ⟨place, hleads, hplace⟩]
    dsimp only [bind, Except.bind]
    rw [htext]
    rfl

/-! ## Changes -/

/-- Where the way leads to a folder, all folders are there already. -/
theorem makeFolders_eq_self {place : Place} {entries : List (RawText × FileTree)}
    (h : t.locate (start here path) path.steps.dropLast = .ok place)
    (hplace : t.get? place = some (.folder entries)) : t.makeFolders here path = .ok t := by
  unfold makeFolders
  rw [← List.reverse_reverse path.steps.dropLast] at h
  cases hway : path.steps.dropLast.reverse with
  | nil => rfl
  | cons last before =>
    rw [hway, List.reverse_cons] at h
    have hfolder : t.leadsToFolder (start here path) (before.reverse ++ [last]) = true := by
      unfold leadsToFolder
      rw [h]
      dsimp only
      rw [hplace]
    rw [makeFoldersBack, needFolder, if_pos hfolder]

/-- Writing to a file changes its content and nothing else. -/
theorem write_eq_mapFiles (hwf : t.WellFormed) {place : Place} (hleads : t.LeadsTo here path place)
    (hname : path.namesFolder = false) {old : ByteArray}
    (hfile : t.get? place = some (.file old)) (new : ByteArray) :
    t.write here path new =
      .ok (t.mapFiles fun p content => if p = place then new else content) := by
  rw [← put_eq_mapFiles hwf hfile]
  unfold write
  rw [hleads, hname]
  simp only [bind, Except.bind, hfile]
  rfl

end paths

/-! ## Agreement -/

section agreement

variable {t t' : FileTree} (h : t.Agrees t') (here : Place) (path : RawText)
include h

/-- The same path finds things of the same kind in both trees, or nothing for the same reason. -/
theorem Agrees.find_eq : (t.find here path).map kind = (t'.find here path).map kind := by
  have hlocate := h.locate_eq (start here path) path.steps
  cases hplace : t.locate (start here path) path.steps with
  | error o =>
    rw [find, find, ← hlocate, hplace]
    rfl
  | ok place =>
    rw [find_of_leadsTo hplace, find_of_leadsTo (hlocate.symm.trans hplace)]
    have hkind := h place
    generalize t.get? place = found, t'.get? place = found' at hkind
    rcases found with _ | u <;> rcases found' with _ | u'
    · rfl
    · cases hkind
    · cases hkind
    · exact congrArg Except.ok (Option.some.inj hkind)

/-- Reading along a path finds the same text in trees that agree. -/
theorem Agrees.readText_eq : t.readText here path = t'.readText here path := by
  have hread : t.read here path = t'.read here path := by
    have hfind := h.find_eq here path
    unfold read
    generalize t.find here path = found, t'.find here path = found' at hfind
    rcases found with _ | _ | _ | _ <;> rcases found' with _ | _ | _ | _ <;> cases hfind <;> rfl
  rw [readText, readText, hread]

/-- What is made of the entries of a folder is the same in both trees, if it does not depend on
their order. -/
theorem Agrees.map_folderAt {α : Type} {f : List (RawText × FileTree) → α}
    (hf : ∀ place entries entries', t.get? place = some (.folder entries) →
      t'.get? place = some (.folder entries') → f entries = f entries') :
    (t.folderAt here path).map f = (t'.folderAt here path).map f := by
  have hfind := h.find_eq here path
  have hlocate := h.locate_eq (start here path) path.steps
  cases hu : t.find here path with
  | error o =>
    rw [hu] at hfind
    cases hu' : t'.find here path with
    | error o' =>
      rw [hu'] at hfind
      cases hfind
      rw [folderAt, folderAt, hu, hu']
    | ok u' =>
      rw [hu'] at hfind
      cases hfind
  | ok u =>
    -- both trees have something of the same kind at this place
    obtain ⟨place, hleads, hplace⟩ := find_eq_ok_iff.mp hu
    obtain ⟨u', hplace', hkind⟩ := h.exists_get? hplace
    have hu' : t'.find here path = .ok u' :=
      find_eq_ok_iff.mpr ⟨place, hlocate.symm.trans hleads, hplace'⟩
    rw [folderAt, folderAt, hu, hu']
    cases u <;> cases u' <;> cases hkind
    · rfl
    · exact congrArg Except.ok (hf place _ _ hplace hplace')
    · rfl

end agreement

/-! ## Order -/

instance : Std.Asymm fun b b' : UInt8 => b.toNat < b'.toNat where
  asymm _ _ h h' := Nat.lt_asymm h h'

instance : Std.Trichotomous fun b b' : UInt8 => b.toNat < b'.toNat where
  trichotomous _ _ h h' := UInt8.toNat_inj.mp (by omega)

instance : IsOrderConnected UInt8 fun b b' => b.toNat < b'.toNat where
  conn _ _ _ h := by omega

instance : Std.Asymm NameBefore where
  asymm name name' := (List.Lex.asymm _).asymm name name'

instance : Std.Trichotomous NameBefore where
  trichotomous name name' := (List.Lex.trichotomous _).trichotomous name name'

instance : IsOrderConnected RawText NameBefore where
  conn name name' name'' := (List.Lex.isOrderConnected _).conn name name' name''

theorem PlaceBefore.asymm {place other : Place} (h : PlaceBefore place other) :
    ¬ PlaceBefore other place :=
  (List.Lex.asymm NameBefore).asymm _ _ h

theorem eq_of_not_placeBefore {place other : Place} (h : ¬ PlaceBefore place other)
    (h' : ¬ PlaceBefore other place) : place = other :=
  (List.Lex.trichotomous NameBefore).trichotomous _ _ h h'

/-- Whatever is put between two places comes after the first or before the second. -/
theorem PlaceBefore.or {place other : Place} (h : PlaceBefore place other) (between : Place) :
    PlaceBefore place between ∨ PlaceBefore between other :=
  (List.Lex.isOrderConnected NameBefore).conn _ between _ h

/-- Distinct places are brought into their order by sorting. -/
theorem pairwise_sort {places : List Place} (h : places.Nodup) :
    (places.mergeSort fun a b => !decide (PlaceBefore b a)).Pairwise PlaceBefore := by
  have hsorted : (places.mergeSort fun a b => !decide (PlaceBefore b a)).Pairwise fun a b =>
      (!decide (PlaceBefore b a)) = true := by
    refine List.pairwise_mergeSort (fun a b c hab hbc => ?_) (fun a b => ?_) places
    · simp only [Bool.not_eq_true', decide_eq_false_iff_not] at hab hbc ⊢
      exact fun hac => (hac.or b).elim hbc hab
    · simp only [Bool.or_eq_true, Bool.not_eq_true', decide_eq_false_iff_not]
      by_cases hba : PlaceBefore b a
      · exact .inr hba.asymm
      · exact .inl hba
  have hdistinct :=
    (List.mergeSort_perm places fun a b => !decide (PlaceBefore b a)).nodup_iff.mpr h
  -- sorted places are not in the wrong order, and no two of them are the same
  refine (hsorted.and hdistinct).imp fun {a b} ⟨hle, hne⟩ => ?_
  simp only [Bool.not_eq_true', decide_eq_false_iff_not] at hle
  by_contra hlt
  exact hne (eq_of_not_placeBefore hlt hle)

end FileTree

end Awaitless
