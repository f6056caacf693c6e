import Awaitless.Transform

/-!
# Computations that may fail

Most of the program are computations that may fail, put together in a few ways: one after the other,
one for each member of a list, along a list with something carried along, or side by side, so that
all failures are found. For each way there is one law about success and one about failure, and the
rest of the theory takes computations apart with these alone.

A row of steps stops at the first failure, while `gather` goes on and collects all of them. So the
cause of a row is one cause, and that of a gathering is a list.

* `exists_of_bind_eq_ok`, `exists_of_map_eq_ok` — where a composed computation succeeds, its steps
  have succeeded.
* `mapM_eq_ok_iff` — a row of steps succeeds exactly if each of them does.
* `exists_of_mem_values`, `exists_value_of_mem` — then the values are the results of the steps.
* `foldlM_eq_ok_induction` — what every successful step of a fold keeps holds in the end.
* `gather_eq_ok_iff` — everything is gathered exactly if nothing fails.
* `causes_of_gather` — otherwise all causes are, in order.
* `failure?_mapM`, `mapM_eq_error_iff`, `failure?_foldlM` — a row of steps fails with the cause of
  the first failure.
-/

namespace Awaitless

variable {ε ε' α β σ : Type}

theorem exists_of_isOk {x : Except ε α} (h : x.isOk = true) : ∃ a, x = .ok a := by
  cases x with
  | error e => cases h
  | ok a => exact ⟨a, rfl⟩

/-- A run that has given a value was successful. -/
theorem eq_ok_of_toOption {x : Except ε α} {a : α} (h : x.toOption = some a) : x = .ok a := by
  cases x with
  | error e => cases h
  | ok b =>
    cases h
    rfl

/-- Where two steps succeed, the first one has, and the second one with its value. -/
theorem exists_of_bind_eq_ok {x : Except ε α} {f : α → Except ε β} {b : β}
    (h : (x >>= f) = .ok b) : ∃ a, x = .ok a ∧ f a = .ok b := by
  cases x with
  | error e => cases h
  | ok a => exact ⟨a, rfl, h⟩

/-- Only what follows a result matters. -/
theorem bind_congr_of_ok {x : Except ε α} {f g : α → Except ε β}
    (h : ∀ a, x = .ok a → f a = g a) : x >>= f = x >>= g := by
  cases x with
  | error e => rfl
  | ok a => exact h a rfl

theorem exists_of_map_eq_ok {x : Except ε α} {f : α → β} {b : β} (h : x.map f = .ok b) :
    ∃ a, x = .ok a ∧ f a = b := by
  cases x with
  | error e => cases h
  | ok a => exact ⟨a, rfl, Except.ok.inj h⟩

/-- Errors that are put in other words leave successes as they are. -/
theorem mapError_eq_ok_iff {f : ε → ε'} {x : Except ε α} {a : α} :
    x.mapError f = .ok a ↔ x = .ok a := by
  cases x with
  | error e => exact iff_of_false nofun nofun
  | ok b => exact ⟨fun h => congrArg _ (Except.ok.inj h), fun h => congrArg _ (Except.ok.inj h)⟩

/-- All steps have their results. -/
theorem mapM_eq_ok_iff {f : α → Except ε β} {xs : List α} {ys : List β} :
    xs.mapM f = .ok ys ↔ xs.map f = ys.map .ok := by
  constructor
  · intro h
    induction xs generalizing ys with
    | nil =>
      cases h
      rfl
    | cons x xs ih =>
      rw [List.mapM_cons] at h
      obtain ⟨y, hy, h⟩ := exists_of_bind_eq_ok h
      obtain ⟨rest, hrest, h⟩ := exists_of_bind_eq_ok h
      cases h
      rw [List.map_cons, List.map_cons, hy, ih hrest]
  · intro h
    induction ys generalizing xs with
    | nil =>
      rw [List.map_eq_nil_iff.mp h]
      rfl
    | cons y ys ih =>
      obtain ⟨x, rest, rfl, hx, hrest⟩ := List.map_eq_cons_iff.mp h
      rw [List.mapM_cons, hx, ih hrest]
      rfl

/-- Steps that all succeed give the list of their values. -/
theorem mapM_eq_ok {f : α → Except ε β} {g : α → β} {xs : List α}
    (h : ∀ x ∈ xs, f x = .ok (g x)) : xs.mapM f = .ok (xs.map g) := by
  rw [mapM_eq_ok_iff, List.map_map]
  exact List.map_congr_left h

section steps

variable {f : α → Except ε β} {xs : List α} {ys : List β} (h : xs.map f = ys.map .ok)
include h

/-- Every value is the result of a step. -/
theorem exists_of_mem_values {y : β} (hy : y ∈ ys) : ∃ x ∈ xs, f x = .ok y := by
  have hmem : .ok y ∈ xs.map f := by
    rw [h]
    exact List.mem_map_of_mem hy
  exact List.mem_map.mp hmem

/-- Every step has a value as its result. -/
theorem exists_value_of_mem {x : α} (hx : x ∈ xs) : ∃ y ∈ ys, f x = .ok y := by
  have hmem := List.mem_map_of_mem (f := f) hx
  rw [h] at hmem
  obtain ⟨y, hy, hfx⟩ := List.mem_map.mp hmem
  exact ⟨y, hy, hfx.symm⟩

end steps

theorem exists_of_mapM_eq_ok {f : α → Except ε β} {xs : List α} {ys : List β}
    (h : xs.mapM f = .ok ys) {y : β} (hy : y ∈ ys) : ∃ x ∈ xs, f x = .ok y :=
  exists_of_mem_values (mapM_eq_ok_iff.mp h) hy

/-- What the results of all steps have in common with their arguments, all results have with all
arguments. -/
theorem flatMap_eq_of_mapM_eq_ok {γ : Type} {f : α → Except ε β} {xs : List α} {ys : List β}
    {g : α → List γ} {g' : β → List γ} (h : xs.mapM f = .ok ys)
    (hg : ∀ x ∈ xs, ∀ y, f x = .ok y → g' y = g x) : ys.flatMap g' = xs.flatMap g := by
  induction xs generalizing ys with
  | nil =>
    cases h
    rfl
  | cons x xs ih =>
    obtain ⟨hx, hxs⟩ := List.forall_mem_cons.mp hg
    rw [List.mapM_cons] at h
    obtain ⟨first, hfirst, h⟩ := exists_of_bind_eq_ok h
    obtain ⟨rest, hrest, h⟩ := exists_of_bind_eq_ok h
    cases h
    rw [List.flatMap_cons, List.flatMap_cons, hx first hfirst, ih hrest hxs]

/-- What every successful step of a fold keeps, for the elements seen so far, holds in the end. -/
theorem foldlM_eq_ok_induction {f : σ → α → Except ε σ} (P : List α → σ → Prop)
    (step : ∀ seen s x s', P seen s → f s x = .ok s' → P (seen ++ [x]) s')
    (seen : List α) {xs : List α} {s s' : σ} (hs : P seen s) (h : xs.foldlM f s = .ok s') :
    P (seen ++ xs) s' := by
  induction xs generalizing seen s with
  | nil =>
    cases h
    rwa [List.append_nil]
  | cons x xs ih =>
    rw [List.foldlM_cons] at h
    obtain ⟨next, hnext, h⟩ := exists_of_bind_eq_ok h
    rw [List.append_cons]
    exact ih _ (step seen s x next hs hnext) h

theorem gather_map_ok (values : List α) : gather (ε := ε) (values.map .ok) = .ok values := by
  induction values with
  | nil => rfl
  | cons value values ih =>
    rw [List.map_cons, gather, ih]
    rfl

/-- Everything is gathered exactly if nothing fails. -/
theorem gather_eq_ok_iff {results : List (Except ε α)} {values : List α} :
    gather results = .ok values ↔ results = values.map .ok := by
  refine ⟨fun h => ?_, fun h => h ▸ gather_map_ok values⟩
  induction results generalizing values with
  | nil =>
    cases h
    rfl
  | cons result rest ih =>
    cases result with
    | error e =>
      unfold gather at h
      split at h <;> cases h
    | ok a =>
      rw [gather] at h
      obtain ⟨as, hrest, rfl⟩ := exists_of_map_eq_ok h
      rw [ih hrest]
      rfl

/-! ## Everything that fails -/

/-- The cause of a failure. -/
def failure? : Except ε α → Option ε
  | .ok _ => none
  | .error e => some e

theorem exists_of_failure?_eq_none {x : Except ε α} (h : failure? x = none) : ∃ a, x = .ok a := by
  cases x with
  | error e => cases h
  | ok a => exact ⟨a, rfl⟩

/-- Where everything is gathered, nothing has failed. -/
theorem values_of_gather {results : List (Except ε α)} {values : List α}
    (h : gather results = .ok values) :
    results.filterMap Except.toOption = values ∧ results.filterMap failure? = [] := by
  obtain rfl := gather_eq_ok_iff.mp h
  constructor
  · rw [List.filterMap_map]
    exact List.filterMap_some
  · rw [List.filterMap_map, List.filterMap_eq_nil_iff]
    exact fun _ _ => rfl

/-- What fails is reported, once for each failure. -/
theorem causes_of_gather {results : List (Except ε α)} {causes : List ε}
    (h : gather results = .error causes) :
    results.filterMap failure? = causes ∧ causes ≠ [] := by
  induction results generalizing causes with
  | nil => cases h
  | cons result rest ih =>
    cases result with
    | ok a =>
      rw [gather] at h
      cases hrest : gather rest with
      | ok values =>
        rw [hrest] at h
        cases h
      | error es =>
        rw [hrest] at h
        cases h
        exact ih hrest
    | error e =>
      rw [gather] at h
      -- this failure comes first, and those of the rest behind it
      cases hrest : gather rest with
      | ok values =>
        rw [hrest] at h
        cases h
        refine ⟨?_, List.cons_ne_nil _ _⟩
        rw [List.filterMap_cons_some (f := failure?) rfl, (values_of_gather hrest).2]
      | error es =>
        rw [hrest] at h
        cases h
        refine ⟨?_, List.cons_ne_nil _ _⟩
        rw [List.filterMap_cons_some (f := failure?) rfl, (ih hrest).1]

/-- What is done with a value does not make it fail. -/
theorem failure?_map (f : α → β) (x : Except ε α) : failure? (x.map f) = failure? x := by
  cases x <;> rfl

/-- What follows a step does not fail where the step has a result. -/
theorem failure?_bind {x : Except ε α} {f : α → Except ε β}
    (h : ∀ a, x = .ok a → failure? (f a) = none) : failure? (x >>= f) = failure? x := by
  cases x with
  | error e => rfl
  | ok a => exact h a rfl

/-- The first step that fails decides. -/
theorem failure?_mapM (f : α → Except ε β) (xs : List α) :
    failure? (xs.mapM f) = xs.findSome? fun x => failure? (f x) := by
  induction xs with
  | nil => rfl
  | cons x xs ih =>
    rw [List.mapM_cons, List.findSome?_cons]
    cases hx : f x with
    | error e => rfl
    | ok y =>
      have hrest : failure? (xs.mapM f >>= fun ys => pure (y :: ys)) = failure? (xs.mapM f) :=
        failure?_bind fun _ _ => rfl
      exact hrest.trans ih

/-- A row of steps fails where one of them fails, and none in front of it. -/
theorem mapM_eq_error_iff {f : α → Except ε β} {xs : List α} {e : ε} :
    xs.mapM f = .error e ↔
      ∃ front x back, xs = front ++ x :: back ∧ f x = .error e ∧ ∀ y ∈ front, ∃ b, f y = .ok b := by
  have herror : ∀ {γ : Type} (x : Except ε γ), x = .error e ↔ failure? x = some e := by
    intro γ x
    cases x <;> simp [failure?]
  have hok : ∀ x : Except ε β, failure? x = none ↔ ∃ b, x = .ok b := by
    intro x
    cases x <;> simp [failure?]
  simp only [herror, ← hok]
  rw [failure?_mapM, List.findSome?_eq_some_iff]

/-- The first step that fails decides, if whether a step fails does not depend on those before. -/
theorem failure?_foldlM {f : σ → α → Except ε σ} {cause : α → Option ε} {xs : List α}
    (h : ∀ x ∈ xs, ∀ s, failure? (f s x) = cause x) (s : σ) :
    failure? (xs.foldlM f s) = xs.findSome? cause := by
  induction xs generalizing s with
  | nil => rfl
  | cons x xs ih =>
    obtain ⟨hx, hxs⟩ := List.forall_mem_cons.mp h
    rw [List.foldlM_cons, List.findSome?_cons, ← hx s]
    cases hnext : f s x with
    | error e => rfl
    | ok next => exact ih hxs next

end Awaitless
