/-!
# Distinct members of a list

* `insertLast`, `distinct` — each member once, at its first place.
* `repeated` — the other occurrences.
-/

namespace Awaitless

/-- `x` at the end, unless it is already there. -/
def insertLast [DecidableEq α] (xs : List α) (x : α) : List α :=
  if x ∈ xs then xs else xs ++ [x]

/-- Adding a member adds it once, and loses none. -/
theorem mem_insertLast [DecidableEq α] {xs : List α} {x y : α} :
    y ∈ insertLast xs x ↔ y ∈ xs ∨ y = x := by
  unfold insertLast
  split <;> simp_all

/-- A member that is there already is not added. -/
theorem nodup_insertLast [DecidableEq α] {xs : List α} (x : α) (h : xs.Nodup) :
    (insertLast xs x).Nodup := by
  unfold insertLast
  split
  · exact h
  · rename_i hx
    rw [List.nodup_append]
    refine ⟨h, by simp, ?_⟩
    intro a ha b hb hab
    simp only [List.mem_singleton] at hb
    exact hx (hb ▸ hab ▸ ha)

@[simp] theorem insertLast_insertLast [DecidableEq α] (xs : List α) (x : α) :
    insertLast (insertLast xs x) x = insertLast xs x := by
  rw [insertLast, if_pos (mem_insertLast.mpr (.inr rfl))]

/-- The distinct members of a list, each at its first place. -/
def distinct [DecidableEq α] (xs : List α) : List α :=
  xs.foldl insertLast []

theorem mem_foldl_insertLast [DecidableEq α] {seen xs : List α} {y : α} :
    y ∈ xs.foldl insertLast seen ↔ y ∈ seen ∨ y ∈ xs := by
  induction xs generalizing seen with
  | nil => simp
  | cons x rest ih => rw [List.foldl_cons, ih, mem_insertLast, List.mem_cons, or_assoc]

/-- Nothing is lost with the repetitions. -/
theorem mem_distinct [DecidableEq α] {xs : List α} {y : α} : y ∈ distinct xs ↔ y ∈ xs := by
  simp [distinct, mem_foldl_insertLast]

/-- Nothing is repeated. -/
theorem nodup_distinct [DecidableEq α] (xs : List α) : (distinct xs).Nodup := by
  have hfold : ∀ seen : List α, seen.Nodup → (xs.foldl insertLast seen).Nodup := by
    induction xs with
    | nil => exact fun _ h => h
    | cons x rest ih => exact fun seen h => ih _ (nodup_insertLast x h)
  exact hfold [] List.nodup_nil

/-- Members that are distinct already stay as they are. -/
theorem distinct_eq_self [DecidableEq α] {xs : List α} (h : xs.Nodup) : distinct xs = xs := by
  have hfold : ∀ seen : List α, (seen ++ xs).Nodup → xs.foldl insertLast seen = seen ++ xs := by
    clear h
    induction xs with
    | nil => simp
    | cons x rest ih =>
      intro seen hnodup
      have hx : x ∉ seen := fun hx => by
        have := (List.nodup_append.mp hnodup).2.2 x hx x (List.mem_cons_self ..)
        exact this rfl
      rw [List.append_cons] at hnodup ⊢
      rw [List.foldl_cons, insertLast, if_neg hx]
      exact ih _ hnodup
  exact hfold [] h

/-- The members that occur in `seen` or earlier in the list, once for each such occurrence. -/
def repeatedAfter [DecidableEq α] (seen : List α) : List α → List α
  | [] => []
  | x :: rest =>
    if x ∈ seen then x :: repeatedAfter seen rest else repeatedAfter (x :: seen) rest

/-- Every occurrence of a member but its first, in order. -/
def repeated [DecidableEq α] (xs : List α) : List α :=
  repeatedAfter [] xs

/-- No member is repeated exactly if all members are distinct. -/
theorem repeatedAfter_eq_nil [DecidableEq α] {seen xs : List α} :
    repeatedAfter seen xs = [] ↔ xs.Nodup ∧ ∀ x ∈ xs, x ∉ seen := by
  induction xs generalizing seen with
  | nil => simp [repeatedAfter]
  | cons x rest ih =>
    by_cases h : x ∈ seen
    · simp [repeatedAfter, h]
    · simp only [repeatedAfter, h, ↓reduceIte, ih, List.nodup_cons, List.mem_cons, not_or,
        forall_eq_or_imp, not_false_eq_true, true_and]
      constructor
      · rintro ⟨nodup, fresh⟩
        exact ⟨⟨fun hx => (fresh x hx).1 rfl, nodup⟩, fun y hy => (fresh y hy).2⟩
      · rintro ⟨⟨notIn, nodup⟩, fresh⟩
        exact ⟨nodup, fun y hy => ⟨fun e => notIn (e ▸ hy), fresh y hy⟩⟩

end Awaitless
