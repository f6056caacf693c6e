import Awaitless.Proofs.Segments
import Mathlib.Data.List.Basic
import Mathlib.Data.List.Induction

/-!
# Where specifiers lead

A relative specifier is read segment by segment, from the directory of the chunk that holds it. A
segment is a step: a name leads down, two points lead up by one name or, where no name is left,
above the start, and a point or nothing leads nowhere. A row of segments is a walk of such steps,
and what a specifier refers to is where its walk ends.

The program does not walk. It puts the directory and the specifier together, drops what leads
nowhere, and cancels names against what leads up on a stack. Reading the stack from its bottom gives
the place of the walk (`push_reverse`), and this one fact turns everything that is said about
specifiers into facts about walks, where a segment more or less is one step.

* `Path.step`, `Path.walk` — where a segment, and a row of segments, leads.
* `Path.IsReduced` — rows that go up first and down by names then; `Path.IsReduced.walk` — steps
  lead to no others.
* `Path.joinFromDirectory_eq` — resolving `..` segments on a stack leads where the segments lead.
* `addressFrom` — the specifier by which a chunk refers to another.
* `resolve?_walks` — what specifiers refer to, in every chunk with a canonical name.
-/

namespace Awaitless

namespace Path

/-! ## Steps -/

/-- Where a segment leads: an empty one and a single dot lead nowhere, two dots leave the last name,
or are kept where there is none, and anything else is appended. -/
def step (place : List String) (segment : String) : List String :=
  if segment = "" ∨ segment = "." then place
  else if segment = ".." then
    if place.getLast?.all (· = "..") then place ++ [".."] else place.dropLast
  else place ++ [segment]

/-- Where a row of segments leads, one after the other. -/
def walk (place row : List String) : List String :=
  row.foldl step place

@[simp] theorem step_here (place : List String) : step place "." = place := by
  simp [step]

/-- A name leads down. -/
theorem step_name {s : String} (h : IsName s) (place : List String) :
    step place s = place ++ [s] := by
  simp [step, h.ne_empty, h.ne_here, h.ne_above]

/-- Two dots undo a name. -/
theorem step_append_above {s : String} (h : IsName s) (place : List String) :
    step (place ++ [s]) ".." = place := by
  simp [step, h.ne_above]

/-- Two dots are kept where there are only two dots before. -/
theorem step_replicate_above (n : Nat) :
    step (List.replicate n "..") ".." = List.replicate (n + 1) ".." := by
  have hlast : (List.replicate n "..").getLast?.all (· = "..") = true := by
    cases n <;> simp [List.getLast?_replicate]
  rw [step, if_neg (by decide), if_pos rfl, if_pos hlast, List.replicate_succ']

/-- A walk goes on where the one before it has ended. -/
theorem walk_append (place row row' : List String) :
    walk place (row ++ row') = walk (walk place row) row' :=
  List.foldl_append

theorem walk_cons (place : List String) (s : String) (row : List String) :
    walk place (s :: row) = walk (step place s) row :=
  rfl

/-- Names are appended. -/
theorem walk_names {row : List String} (h : ∀ s ∈ row, IsName s) (place : List String) :
    walk place row = place ++ row := by
  induction row generalizing place with
  | nil => exact (List.append_nil _).symm
  | cons s row ih =>
    obtain ⟨hs, hrow⟩ := List.forall_mem_cons.mp h
    rw [walk_cons, step_name hs, ih hrow, List.append_assoc, List.singleton_append]

/-- From names, as many steps up lead back to the start. -/
theorem walk_replicate_above {names : List String} (h : ∀ s ∈ names, IsName s) :
    walk names (List.replicate names.length "..") = [] := by
  induction names using List.reverseRecOn with
  | nil => rfl
  | append_singleton names s ih =>
    obtain ⟨hnames, hs⟩ := List.forall_mem_append.mp h
    rw [List.length_append, List.length_singleton, List.replicate_succ, walk_cons,
      step_append_above (hs s (List.mem_singleton_self s)), ih hnames]

/-- Segments that say nothing can be left out. -/
theorem walk_filter (place row : List String) :
    walk place (row.filter fun s => s ≠ "" && s ≠ ".") = walk place row := by
  induction row generalizing place with
  | nil => rfl
  | cons s row ih =>
    by_cases hs : s = "" ∨ s = "."
    · rw [List.filter_cons_of_neg (by grind), ih, walk_cons, step, if_pos hs]
    · rw [List.filter_cons_of_pos (by grind), walk_cons, walk_cons, ih]

/-! ## Reduced rows -/

/-- A row that goes up first, and then down by names. -/
def IsReduced (place : List String) : Prop :=
  ∃ n names, place = List.replicate n ".." ++ names ∧ ∀ s ∈ names, IsName s

/-- A row of names goes nowhere up. -/
theorem isReduced_names {names : List String} (h : ∀ s ∈ names, IsName s) : IsReduced names :=
  ⟨0, names, rfl, h⟩

/-- A step takes the last name away, adds a name, or goes up once more before all names. -/
theorem IsReduced.step {place : List String} (h : IsReduced place) {s : String}
    (hs : '/' ∉ s.toList) : IsReduced (step place s) := by
  obtain ⟨n, names, rfl, hnames⟩ := h
  -- the step stays, goes up, or goes down
  by_cases hskip : s = "" ∨ s = "."
  · rw [Path.step, if_pos hskip]
    exact ⟨n, names, rfl, hnames⟩
  by_cases habove : s = ".."
  · subst habove
    -- whether a name is left decides
    rcases List.eq_nil_or_concat' names with rfl | ⟨names, last, rfl⟩
    · rw [List.append_nil, step_replicate_above]
      exact ⟨n + 1, [], (List.append_nil _).symm, nofun⟩
    · obtain ⟨hnames, hlast⟩ := List.forall_mem_append.mp hnames
      rw [← List.append_assoc, step_append_above (hlast last (List.mem_singleton_self last))]
      exact ⟨n, names, rfl, hnames⟩
  · have hname : IsName s := ⟨fun h => hskip (.inl h), fun h => hskip (.inr h), habove, hs⟩
    rw [step_name hname, List.append_assoc]
    refine ⟨n, names ++ [s], rfl, List.forall_mem_append.mpr ⟨hnames, ?_⟩⟩
    exact List.forall_mem_singleton.mpr hname

/-- By induction on the row, one step after the other. -/
theorem IsReduced.walk {place : List String} (h : IsReduced place) {row : List String}
    (hrow : ∀ s ∈ row, '/' ∉ s.toList) : IsReduced (walk place row) := by
  induction row generalizing place with
  | nil => exact h
  | cons s row ih =>
    obtain ⟨hs, hrow⟩ := List.forall_mem_cons.mp hrow
    exact ih (h.step hs) hrow

/-- Neither names nor steps up hold a slash, so that such a row can be written as a path. -/
theorem IsReduced.slash_not_mem {place : List String} (h : IsReduced place) {s : String}
    (hs : s ∈ place) : '/' ∉ s.toList := by
  obtain ⟨n, names, rfl, hnames⟩ := h
  rcases List.mem_append.mp hs with hs | hs
  · rw [List.eq_of_mem_replicate hs]
    decide
  · exact (hnames s hs).slash_not_mem

/-! ## The stack -/

/-- On a relative path, the stack holds the row that has been read, from its end. -/
theorem push_reverse (place : List String) {s : String} (h : (s ≠ "" && s ≠ ".") = true) :
    push false place.reverse s = (step place s).reverse := by
  have hskip : ¬ (s = "" ∨ s = ".") := by grind
  by_cases habove : s = ".."
  · subst habove
    rcases List.eq_nil_or_concat' place with rfl | ⟨place, last, rfl⟩
    · rfl
    · rw [push.eq_def, if_pos rfl, step, if_neg hskip, if_pos rfl]
      by_cases hlast : last = ".." <;> simp [hlast]
  · rw [push.eq_def, if_neg habove, step, if_neg hskip, if_neg habove, List.reverse_append]
    rfl

/-- The stack of a row, from its bottom, is the walk of this row. -/
theorem foldl_push (place : List String) {row : List String}
    (h : ∀ s ∈ row, (s ≠ "" && s ≠ ".") = true) :
    row.foldl (push false) place.reverse = (walk place row).reverse := by
  induction row generalizing place with
  | nil => rfl
  | cons s row ih =>
    obtain ⟨hs, hrow⟩ := List.forall_mem_cons.mp h
    rw [List.foldl_cons, push_reverse place hs, ih _ hrow, walk_cons]

/-- The segments of a relative path lead to its normal form. -/
theorem normalize_eq {row : List String} (h : ∀ s ∈ row, (s ≠ "" && s ≠ ".") = true) :
    normalize ⟨false, row⟩ = ⟨false, walk [] row⟩ := by
  have hfold : row.foldl (push false) [] = (walk [] row).reverse := foldl_push [] h
  rw [normalize, hfold, List.reverse_reverse]

end Path

/-! ## Canonical names -/

section canonical

variable {name : String} (h : IsCanonical name)
include h

/-- A canonical name is read as a relative path, and nothing of it is dropped. -/
theorem IsCanonical.ofString : Path.ofString name = ⟨false, segmentsOf name⟩ := by
  have hsegments : (Path.ofString name).segments = segmentsOf name := by
    rw [Path.segments_ofString, List.filter_eq_self]
    intro s hs
    simp [(h s hs).ne_empty, (h s hs).ne_here]
  have habsolute : (Path.ofString name).absolute = false := beq_eq_false_iff_ne.mpr h.head?_ne
  rw [← hsegments, ← habsolute]

/-- Its directory is what stands before its last segment. -/
theorem IsCanonical.directory :
    (Path.ofString name).directory = ⟨false, (segmentsOf name).dropLast⟩ := by
  rw [h.ofString, Path.directory]
  split
  · exact absurd ‹_› (segmentsOf_ne_nil name)
  · rfl

theorem IsCanonical.isName_of_mem_dropLast : ∀ s ∈ (segmentsOf name).dropLast, IsName s :=
  fun s hs => h s (List.dropLast_subset _ hs)

end canonical

/-! ## Specifiers -/

/-- A specifier is relative by its first characters alone. -/
theorem isRelative_iff {specifier : String} :
    isRelative specifier = true ↔
      "./".toList <+: specifier.toList ∨ "../".toList <+: specifier.toList := by
  unfold isRelative
  split
  · rename_i rest hchars
    rw [hchars]
    exact iff_of_true rfl (.inl ⟨rest, rfl⟩)
  · rename_i rest hchars
    rw [hchars]
    exact iff_of_true rfl (.inr ⟨rest, rfl⟩)
  · rename_i hhere habove
    refine iff_of_false Bool.false_ne_true ?_
    rintro (⟨rest, hrest⟩ | ⟨rest, hrest⟩)
    · exact hhere rest hrest.symm
    · exact habove rest hrest.symm

/-- Relative specifiers have several segments, and the first is one dot or two. -/
theorem isRelative_iff_segmentsOf {specifier : String} :
    isRelative specifier = true ↔
      ∃ first second rest, segmentsOf specifier = first :: second :: rest ∧
        (first = "." ∨ first = "..") := by
  constructor
  · intro hrelative
    obtain ⟨first, after, hspecifier, hfirst⟩ :
        ∃ first after, specifier = first ++ "/" ++ after ∧ (first = "." ∨ first = "..") := by
      rcases isRelative_iff.mp hrelative with ⟨rest, hrest⟩ | ⟨rest, hrest⟩
      · exact ⟨".", String.ofList rest, String.toList_injective (by simp [← hrest]), .inl rfl⟩
      · exact ⟨"..", String.ofList rest, String.toList_injective (by simp [← hrest]), .inr rfl⟩
    -- there is a segment after the slash, if only an empty one
    obtain ⟨second, rest, hafter⟩ := List.exists_cons_of_ne_nil (segmentsOf_ne_nil after)
    have hone : segmentsOf first = [first] := by
      rcases hfirst with rfl | rfl <;> exact segmentsOf_of_slash_not_mem (by decide)
    refine ⟨first, second, rest, ?_, hfirst⟩
    rw [hspecifier, segmentsOf_append, hone, hafter, List.singleton_append]
  · rintro ⟨first, second, rest, hsegments, hfirst⟩
    have hchars : specifier.toList =
        first.toList ++ '/' :: (String.intercalate "/" (second :: rest)).toList := by
      rw [← intercalate_segmentsOf specifier, hsegments]
      simp [String.toList_intercalate]
    rw [isRelative_iff, hchars]
    rcases hfirst with rfl | rfl
    · exact .inl ⟨_, rfl⟩
    · exact .inr ⟨_, rfl⟩

/-- Only what stands before the first slash decides. -/
theorem isRelative_append (before after after' : String) :
    isRelative (before ++ "/" ++ after) = isRelative (before ++ "/" ++ after') := by
  have hiff : ∀ after : String, isRelative (before ++ "/" ++ after) = true ↔
      (segmentsOf before).head? = some "." ∨ (segmentsOf before).head? = some ".." := by
    intro after
    obtain ⟨first, before', hbefore⟩ := List.exists_cons_of_ne_nil (segmentsOf_ne_nil before)
    have hrest : before' ++ segmentsOf after ≠ [] := by simp [segmentsOf_ne_nil]
    obtain ⟨second, rest, hrest⟩ := List.exists_cons_of_ne_nil hrest
    rw [isRelative_iff_segmentsOf, segmentsOf_append, hbefore, List.cons_append, hrest]
    simp
  rw [Bool.eq_iff_iff, hiff, hiff]

/-- What a relative specifier leads to is read from the directory. -/
theorem Path.joinFromDirectory_eq {importer specifier : String} (h : IsCanonical importer)
    (hrelative : isRelative specifier = true) :
    joinFromDirectory importer specifier =
      toString ⟨false, walk (segmentsOf importer).dropLast (segmentsOf specifier)⟩ := by
  have habsolute : (ofString specifier).absolute = false := by
    refine beq_eq_false_iff_ne.mpr fun hhead => ?_
    rcases isRelative_iff.mp hrelative with ⟨rest, hrest⟩ | ⟨rest, hrest⟩ <;>
      simp [← hrest] at hhead
  -- neither the directory nor what is read of the specifier has a segment that stays
  have hspoken : ∀ s ∈ (segmentsOf importer).dropLast ++ (ofString specifier).segments,
      (s ≠ "" && s ≠ ".") = true := by
    rw [List.forall_mem_append, segments_ofString]
    refine ⟨fun s hs => ?_, fun s hs => (List.mem_filter.mp hs).2⟩
    have hname := h.isName_of_mem_dropLast s hs
    simp [hname.ne_empty, hname.ne_here]
  rw [joinFromDirectory, h.directory, append, habsolute, if_neg Bool.false_ne_true,
    normalize_eq hspoken, walk_append, walk_names h.isName_of_mem_dropLast, List.nil_append,
    segments_ofString, walk_filter]

/-- A relative specifier refers to where it walks to. -/
theorem resolve?_eq {importer specifier : String} (h : IsCanonical importer)
    (hrelative : isRelative specifier = true) :
    resolve? importer specifier =
      some (Path.toString
        ⟨false, Path.walk (segmentsOf importer).dropLast (segmentsOf specifier)⟩) := by
  rw [resolve?, if_pos hrelative, Path.joinFromDirectory_eq h hrelative]

/-- Where something is left of the way, it is what the specifier refers to. -/
theorem resolve?_eq_intercalate {importer specifier : String} (h : IsCanonical importer)
    (hrelative : isRelative specifier = true)
    (hplace : Path.walk (segmentsOf importer).dropLast (segmentsOf specifier) ≠ []) :
    resolve? importer specifier = some (String.intercalate "/"
      (Path.walk (segmentsOf importer).dropLast (segmentsOf specifier))) := by
  rw [resolve?_eq h hrelative, Path.toString]
  simp [hplace]

/-- What a specifier walks to is reduced, because it starts at names. -/
theorem isReduced_walk {importer : String} (h : IsCanonical importer) (specifier : String) :
    Path.IsReduced (Path.walk (segmentsOf importer).dropLast (segmentsOf specifier)) :=
  (Path.isReduced_names h.isName_of_mem_dropLast).walk fun _ => slash_not_mem_of_mem_segmentsOf

/-- Segments that lead to the same place from everywhere can be put for each other. -/
theorem resolve?_congr {importer : String} (h : IsCanonical importer) {before after after' : String}
    (hwalk : ∀ place, Path.walk place (segmentsOf after) = Path.walk place (segmentsOf after')) :
    resolve? importer (before ++ "/" ++ after) = resolve? importer (before ++ "/" ++ after') := by
  have hrelative := isRelative_append before after after'
  cases hafter : isRelative (before ++ "/" ++ after) with
  | false =>
    rw [resolve?_eq_none_iff.mpr hafter, resolve?_eq_none_iff.mpr (hrelative.symm.trans hafter)]
  | true =>
    rw [resolve?_eq h hafter, resolve?_eq h (hrelative.symm.trans hafter), segmentsOf_append,
      segmentsOf_append, Path.walk_append, Path.walk_append, hwalk]

/-! ## Addresses -/

/-- The specifier by which a chunk refers to another: out of its own folders, and then by the name
of the other. -/
def addressFrom (importer target : String) : String :=
  match (segmentsOf importer).dropLast with
  | [] => "./" ++ target
  | folders => String.join (folders.map fun _ => "../") ++ target

theorem segmentsOf_here (target : String) :
    segmentsOf ("./" ++ target) = "." :: segmentsOf target := by
  have hsplit : "./" ++ target = "." ++ "/" ++ target := rfl
  rw [hsplit, segmentsOf_append, segmentsOf_of_slash_not_mem (by decide), List.singleton_append]

theorem segmentsOf_above (target : String) :
    segmentsOf ("../" ++ target) = ".." :: segmentsOf target := by
  have hsplit : "../" ++ target = ".." ++ "/" ++ target := rfl
  rw [hsplit, segmentsOf_append, segmentsOf_of_slash_not_mem (by decide), List.singleton_append]

/-- A text that goes up by some folders starts with as many steps up. -/
theorem segmentsOf_join_above (folders : List String) (target : String) :
    segmentsOf (String.join (folders.map fun _ => "../") ++ target) =
      List.replicate folders.length ".." ++ segmentsOf target := by
  induction folders with
  | nil => simp
  | cons folder folders ih =>
    rw [List.map_cons, String.join_cons, String.append_assoc, segmentsOf_above, ih,
      List.length_cons, List.replicate_succ, List.cons_append]

/-- The address leads out of the own folders, and then nowhere but to the target. -/
theorem walk_addressFrom {importer : String} (h : IsCanonical importer) (target : String) :
    Path.walk (segmentsOf importer).dropLast (segmentsOf (addressFrom importer target)) =
      Path.walk [] (segmentsOf target) := by
  have hup := Path.walk_replicate_above h.isName_of_mem_dropLast
  unfold addressFrom
  split
  · rename_i hnone
    rw [hnone, segmentsOf_here, Path.walk_cons, Path.step_here]
  · rw [segmentsOf_join_above, Path.walk_append, hup]

/-- An address starts with a point or with two. -/
theorem isRelative_addressFrom (importer target : String) :
    isRelative (addressFrom importer target) = true := by
  rw [isRelative_iff]
  unfold addressFrom
  split
  · exact .inl (by simp)
  · rename_i hfolders
    obtain ⟨folder, folders, hcons⟩ := List.exists_cons_of_ne_nil hfolders
    exact .inr (by simp [hcons, String.join_cons])

/-- Addresses are resolved to what they are addresses of. -/
theorem resolve?_addressFrom {importer target : String} (h : IsCanonical importer)
    (htarget : IsCanonical target) :
    resolve? importer (addressFrom importer target) = some target := by
  have hplace := walk_addressFrom h target
  rw [Path.walk_names htarget, List.nil_append] at hplace
  rw [resolve?_eq_intercalate h (isRelative_addressFrom importer target), hplace,
    intercalate_segmentsOf]
  rw [hplace]
  exact segmentsOf_ne_nil target

/-! ## Resolution -/

/-- In a chunk with a canonical name, the specifiers that start with `./` or `../` and no others
refer to something. Where some of the way is left, it is what they refer to: it goes up first, and
then down by names. Segments that lead nowhere can be inserted, and every canonical name has an
address. -/
theorem resolve?_walks {importer : String} (h : IsCanonical importer) :
    (∀ specifier, resolve? importer specifier = none ↔
      ¬ "./".toList <+: specifier.toList ∧ ¬ "../".toList <+: specifier.toList) ∧
    (∀ specifier, "./".toList <+: specifier.toList ∨ "../".toList <+: specifier.toList →
      let place := Path.walk (segmentsOf importer).dropLast (segmentsOf specifier)
      (place = [] → resolve? importer specifier = some ".") ∧
      (place ≠ [] → resolve? importer specifier = some (String.intercalate "/" place) ∧
        segmentsOf (String.intercalate "/" place) = place ∧ Path.IsReduced place)) ∧
    (∀ before after, resolve? importer (before ++ "/" ++ ("./" ++ after)) =
      resolve? importer (before ++ "/" ++ after)) ∧
    (∀ before after name, IsName name →
      resolve? importer (before ++ "/" ++ (name ++ "/../" ++ after)) =
        resolve? importer (before ++ "/" ++ after)) ∧
    (∀ target, IsCanonical target →
      resolve? importer (addressFrom importer target) = some target) := by
  refine ⟨fun specifier => ?_, fun specifier hrelative => ?_, fun before after => ?_,
    fun before after name hname => ?_, fun target => resolve?_addressFrom h⟩
  · rw [resolve?_eq_none_iff, ← not_or, ← isRelative_iff, Bool.not_eq_true]
  · have hreduced := isReduced_walk h specifier
    rw [← isRelative_iff] at hrelative
    refine ⟨fun hplace => ?_,
      fun hplace => ⟨resolve?_eq_intercalate h hrelative hplace, ?_, hreduced⟩⟩
    · rw [resolve?_eq h hrelative, hplace]
      rfl
    · exact segmentsOf_intercalate hplace fun _ => hreduced.slash_not_mem
  · -- a segment that stays may be left out
    refine resolve?_congr h fun place => ?_
    rw [segmentsOf_here, Path.walk_cons, Path.step_here]
  · -- a name is taken back by the step up behind it
    refine resolve?_congr h fun place => ?_
    have hsplit : name ++ "/../" ++ after = name ++ "/" ++ ("../" ++ after) :=
      String.toList_injective (by simp)
    rw [hsplit, segmentsOf_append, segmentsOf_of_slash_not_mem hname.slash_not_mem,
      segmentsOf_above, List.singleton_append, Path.walk_cons, Path.walk_cons, Path.step_name hname,
      Path.step_append_above hname]

/-- In a chunk two folders deep: a package, a path with points in it, one that leads above the
start, and an address. -/
theorem resolve?_walks_nested :
    IsCanonical "chunks/nested/a.js" ∧
      resolve? "chunks/nested/a.js" "node:fs" = none ∧
      resolve? "chunks/nested/a.js" "./../c/./d.js" = some "chunks/c/d.js" ∧
      resolve? "chunks/nested/a.js" "../../../d.js" = some "../d.js" ∧
      resolve? "chunks/nested/a.js" ("." ++ "/" ++ ("b" ++ "/../" ++ "d.js")) =
        resolve? "chunks/nested/a.js" ("." ++ "/" ++ "d.js") ∧
      addressFrom "chunks/nested/a.js" "lib/b.js" = "../../lib/b.js" ∧
      resolve? "chunks/nested/a.js" (addressFrom "chunks/nested/a.js" "lib/b.js") =
        some "lib/b.js" := by
  have hcanonical : IsCanonical "chunks/nested/a.js" := by decide +kernel
  obtain ⟨hnone, hwalk, -, hinsert, haddress⟩ := resolve?_walks hcanonical
  refine ⟨hcanonical, (hnone _).mpr (by decide +kernel), ?_, ?_,
    hinsert "." "d.js" "b" (by decide +kernel), by decide +kernel, haddress _ (by decide +kernel)⟩
  · exact ((hwalk "./../c/./d.js" (by decide +kernel)).2 (by decide +kernel)).1
  · exact ((hwalk "../../../d.js" (by decide +kernel)).2 (by decide +kernel)).1

end Awaitless
