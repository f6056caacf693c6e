import Awaitless.Path

/-!
# Segments

A text is taken apart at its slashes. Specifiers and the names of chunks are both read in this way.
Since joining the segments gives the text back, a text is nothing else than its row of segments, and
what is proved about rows holds of texts. The library knows this of splitting lists; the lemmas here
carry it over to texts, and say what segments can look like: no slash is left in them.

A chunk has a canonical name if every segment is one that a folder could list: it is not empty, it
is no step of its own, and no slash is in it. Such a name is what a path below a folder is spelled
as, and it cannot start with a slash because its first segment is not empty.

* `segmentsOf` — the parts of a text between slashes.
* `segmentsOf_append`, `intercalate_segmentsOf`, `segmentsOf_intercalate` — texts are joined at a
  slash, and put together again.
* `IsName`, `IsCanonical` — segments that name something, and texts that consist of them; no such
  text starts with a slash.
* `Path.segments_ofString` — what is read of a path.
-/

namespace Awaitless

/-- The parts of a text between slashes. -/
def segmentsOf (text : String) : List String :=
  (text.toList.splitOn '/').map String.ofList

/-- Even the empty text has a segment, which is empty. -/
theorem segmentsOf_ne_nil (text : String) : segmentsOf text ≠ [] :=
  fun h => List.splitOn_ne_nil _ _ (List.map_eq_nil_iff.mp h)

/-- A slash separates the segments before it from those behind. -/
theorem segmentsOf_append (before after : String) :
    segmentsOf (before ++ "/" ++ after) = segmentsOf before ++ segmentsOf after := by
  have hchars : (before ++ "/" ++ after).toList = before.toList ++ '/' :: after.toList := by simp
  rw [segmentsOf, hchars, List.splitOn_append_cons_self, List.map_append]
  rfl

/-- A text without slashes is its only segment. -/
theorem segmentsOf_of_slash_not_mem {text : String} (h : '/' ∉ text.toList) :
    segmentsOf text = [text] := by
  rw [segmentsOf, List.splitOn_eq_singleton h, List.map_singleton, String.ofList_toList]

/-- Character by character, this is the splitting of lists. -/
theorem toList_segmentsOf (text : String) :
    (segmentsOf text).map String.toList = text.toList.splitOn '/' := by
  rw [segmentsOf, List.map_map]
  exact (List.map_congr_left fun _ _ => String.toList_ofList).trans (List.map_id _)

/-- Joined again, the segments of a text are this text. -/
theorem intercalate_segmentsOf (text : String) :
    String.intercalate "/" (segmentsOf text) = text := by
  apply String.toList_injective
  rw [String.toList_intercalate, toList_segmentsOf]
  exact List.intercalate_splitOn '/'

/-- Parts without a slash are the segments of what they are joined to. -/
theorem segmentsOf_intercalate {row : List String} (hne : row ≠ [])
    (h : ∀ s ∈ row, '/' ∉ s.toList) : segmentsOf (String.intercalate "/" row) = row := by
  have hsplit : ((String.intercalate "/" row).toList.splitOn '/') = row.map String.toList := by
    rw [String.toList_intercalate]
    refine List.splitOn_intercalate '/' (fun chars hchars => ?_) (by simpa using hne)
    obtain ⟨s, hs, rfl⟩ := List.mem_map.mp hchars
    exact h s hs
  rw [segmentsOf, hsplit, List.map_map]
  exact (List.map_congr_left fun _ _ => String.ofList_toList).trans (List.map_id _)

/-- No part between slashes holds one. -/
theorem not_mem_of_mem_splitOn {α : Type} [BEq α] [LawfulBEq α] {x : α} {xs part : List α}
    (h : part ∈ xs.splitOn x) : x ∉ part := by
  induction xs generalizing part with
  | nil =>
    rw [List.splitOn_nil, List.mem_singleton] at h
    subst h
    exact List.not_mem_nil
  | cons y xs ih =>
    -- an element ends a part, or is put before the first one
    rw [List.splitOn_cons_eq_if_modifyHead] at h
    split at h
    · rcases List.mem_cons.mp h with rfl | h
      · exact List.not_mem_nil
      · exact ih h
    · rename_i hne
      obtain ⟨first, rest, hsplit⟩ := List.exists_cons_of_ne_nil (List.splitOn_ne_nil x xs)
      rw [hsplit, List.modifyHead_cons] at h
      rw [hsplit] at ih
      rcases List.mem_cons.mp h with rfl | h
      · have hfirst : x ∉ first := ih (List.mem_cons_self ..)
        rw [List.mem_cons, not_or]
        exact ⟨fun heq => hne (by simp [heq]), hfirst⟩
      · exact ih (List.mem_cons_of_mem _ h)

/-- No slash is left in a segment. -/
theorem slash_not_mem_of_mem_segmentsOf {text s : String} (h : s ∈ segmentsOf text) :
    '/' ∉ s.toList := by
  obtain ⟨chars, hchars, rfl⟩ := List.mem_map.mp h
  rw [String.toList_ofList]
  exact not_mem_of_mem_splitOn hchars

/-! ## Names -/

/-- A segment that can be the name of a file or a folder. -/
structure IsName (s : String) : Prop where
  ne_empty : s ≠ ""
  ne_here : s ≠ "."
  ne_above : s ≠ ".."
  slash_not_mem : '/' ∉ s.toList

instance (s : String) : Decidable (IsName s) :=
  decidable_of_iff (s ≠ "" ∧ s ≠ "." ∧ s ≠ ".." ∧ '/' ∉ s.toList)
    ⟨fun ⟨h, h', h'', h'''⟩ => ⟨h, h', h'', h'''⟩, fun ⟨h, h', h'', h'''⟩ => ⟨h, h', h'', h'''⟩⟩

/-- A text that consists of names; there is at least one, as no segment is empty. -/
def IsCanonical (name : String) : Prop :=
  ∀ s ∈ segmentsOf name, IsName s

instance (name : String) : Decidable (IsCanonical name) :=
  inferInstanceAs (Decidable (∀ s ∈ segmentsOf name, IsName s))

/-- Canonical texts can be joined, and taken apart, at any slash. -/
theorem isCanonical_append_iff {before after : String} :
    IsCanonical (before ++ "/" ++ after) ↔ IsCanonical before ∧ IsCanonical after := by
  rw [IsCanonical, segmentsOf_append]
  exact List.forall_mem_append

section canonical

variable {name : String} (h : IsCanonical name)
include h

theorem IsCanonical.ne_empty : name ≠ "" := by
  rintro rfl
  exact (h "" (by decide)).ne_empty rfl

/-- A leading slash would leave an empty segment before it. -/
theorem IsCanonical.head?_ne : name.toList.head? ≠ some '/' := by
  intro hhead
  obtain ⟨chars, hchars⟩ := List.head?_eq_some_iff.mp hhead
  obtain rfl : name = "" ++ "/" ++ String.ofList chars :=
    String.toList_injective (by simp [hchars])
  exact (isCanonical_append_iff.mp h).1.ne_empty rfl

end canonical

/-! ## Paths -/

namespace Path

theorem splitSlashes_eq_splitOn (chars : List Char) : splitSlashes chars = chars.splitOn '/' := by
  fun_induction splitSlashes chars with
  | case1 => rfl
  | case2 rest ih => rw [ih, List.splitOn_cons_eq_if_modifyHead, if_pos (beq_self_eq_true _)]
  | case3 c rest hc first others hsplit ih =>
    rw [List.splitOn_cons_eq_if_modifyHead, if_neg (by simpa using hc), ← ih, hsplit,
      List.modifyHead_cons]
  | case4 c rest hc hsplit ih => exact absurd (ih.symm.trans hsplit) (List.splitOn_ne_nil _ _)

/-- Of a path, all segments are read that neither are empty nor stay where they are. -/
theorem segments_ofString (text : String) :
    (ofString text).segments = (segmentsOf text).filter fun s => s ≠ "" && s ≠ "." := by
  rw [ofString, splitSlashes_eq_splitOn]
  rfl

end Path

end Awaitless
