import Awaitless.Script.Parse

/-!
# What a parser gives

A parser always gives a result, also when something is wrong with the text. What the result is like
can be told only if nothing was found wrong in the end, and so nothing on the way.

* `P.Yields` — a parser of one dialect, the plain one unless said otherwise, gives results with a
  property, unless it finds something wrong.
* `P.Yields.bind`, `yields_iterate`, `yields_note` and others — one law for each way to build
  parsers.
* `clean_of_bind`, `kind_of_expect` — what a clean state in the end says about the one before.
-/

namespace Awaitless.Script.Parser

/-- Where types are read or not, as is said, and nothing is found wrong, the result has a property.
-/
def P.Yields (p : P α) (Q : α → Prop) (typed : Bool := false) : Prop :=
  ∀ s : State, s.typed = typed → (p.run s).2.Clean → Q (p.run s).1

namespace P.Yields

variable {p : P α} {f : α → P β} {Q : α → Prop} {R : β → Prop} {typed : Bool}

theorem weaken {Q' : α → Prop} (h : p.Yields Q typed) (hQ : ∀ a, Q a → Q' a) : p.Yields Q' typed :=
  fun s htyped hclean => hQ _ (h s htyped hclean)

theorem pure {a : α} (h : Q a) : (pure a : P α).Yields Q typed := fun _ _ _ => h

/-- What is found wrong at first is still there in the end, so a first result has its property. -/
theorem after {s : State} (htyped : s.typed = typed) (hclean : ((p >>= f).run s).2.Clean)
    (hp : (p.run s).2.Clean → Q (p.run s).1) (hf : ∀ a, Q a → (f a).Yields R typed) :
    R ((p >>= f).run s).1 :=
  have hmiddle : (p.run s).2.Clean := ((f (p.run s).1).precedes _).clean hclean
  hf _ (hp hmiddle) _ ((p.precedes s).typed.trans htyped) hclean

theorem bind (hp : p.Yields Q typed) (hf : ∀ a, Q a → (f a).Yields R typed) :
    (p >>= f).Yields R typed :=
  fun s htyped hclean => after htyped hclean (hp s htyped) hf

/-- What comes first may not matter. -/
theorem next (hf : ∀ a, (f a).Yields R typed) : (p >>= f).Yields R typed :=
  bind (Q := fun _ => True) (fun _ _ _ => trivial) fun a _ => hf a

/-- Two results may belong together. -/
theorem next₂ {q : P β} {f : α → β → P γ} {I : α → β → Prop} {R : γ → Prop}
    (h : ∀ s, I (p.run s).1 (q.run (p.run s).2).1) (hf : ∀ a b, I a b → (f a b).Yields R typed) :
    (p >>= fun a => q >>= f a).Yields R typed :=
  fun s htyped hclean =>
    hf _ _ (h s) _ (((q.precedes _).typed.trans (p.precedes s).typed).trans htyped) hclean

theorem map {g : α → β} (hp : p.Yields Q typed) (hg : ∀ a, Q a → R (g a)) :
    (g <$> p).Yields R typed :=
  bind hp fun a ha => .pure (hg a ha)

theorem ite {c : Prop} [Decidable c] {p q : P α} (hp : c → p.Yields Q typed)
    (hq : ¬c → q.Yields Q typed) : (if c then p else q).Yields Q typed := by
  split
  · rename_i h
    exact hp h
  · rename_i h
    exact hq h

end P.Yields

variable {α β : Type} {typed : Bool}

/-! ## Steps -/

theorem yields_stop [Inhabited α] {Q : α → Prop} (e : GrammarError) :
    (stop e : P α).Yields Q typed :=
  fun s _ hclean => absurd hclean.failure (s.failure_fail_ne_none _)

theorem yields_note {Q : Unit → Prop} (e : GrammarError) : (note e).Yields Q typed :=
  fun _ _ hclean => nomatch hclean.errors

theorem State.failure_refuse_ne_none (s : State) : s.refuse.failure ≠ none := by
  unfold State.refuse
  split
  · exact State.failure_fail_ne_none _ _
  · exact State.failure_fail_ne_none _ _
  · exact State.failure_fail_ne_none _ _

theorem yields_unexpected [Inhabited α] {Q : α → Prop} : (unexpected : P α).Yields Q typed :=
  fun s _ hclean => absurd hclean.failure s.failure_refuse_ne_none

theorem yields_get : get.Yields (fun s => s.typed = typed) typed := fun _ htyped _ => htyped

theorem yields_node (start : Nat) (form : Form Node) :
    (node start form).Yields (fun n => n.form = form) typed :=
  fun _ _ _ => rfl

/-- A property that every step keeps holds when the loop is left. -/
theorem yields_iterate [Inhabited β] {step : α → P (α ⊕ β)} {I : α → Prop} {Q : β → Prop}
    (hstep : ∀ a, I a → (step a).Yields (Sum.elim I Q) typed) (steps : Nat) {a : α} (ha : I a) :
    (iterate step steps a).Yields Q typed := by
  induction steps generalizing a with
  | zero => exact yields_unexpected
  | succ steps ih =>
    refine .bind (hstep a ha) fun r hr => ?_
    cases r with
    | inl a => exact ih hr
    | inr b => exact .pure hr

/-! ## Single runs -/

theorem run_bind (p : P α) (f : α → P β) (s : State) :
    (p >>= f).run s = (f (p.run s).1).run (p.run s).2 :=
  rfl

theorem run_kind (s : State) : kind.run s = (s.token.kind, s) := rfl

theorem run_here (s : State) : here.run s = (s.token.start, s) := rfl

/-- Where a mark was expected and nothing is wrong, it stood there. -/
theorem kind_of_expect {m : Punctuator} {s : State} (hclean : ((expect m).run s).2.Clean) :
    s.token.kind = .mark m := by
  refine Decidable.byContradiction fun hkind => ?_
  have hmissing : (missing m.text).Yields (fun _ => False) s.typed :=
    .next fun _ => .bind (yields_stop (Q := fun _ => False) _) fun _ h => h.elim
  have hat : (atMark m).run s = (false, s) :=
    congrArg (·, s) (beq_eq_false_iff_ne.mpr hkind)
  have hexpect : (expect m).run s = (missing m.text).run s := by
    simp only [expect, eat, run_bind, hat]
    rfl
  rw [hexpect] at hclean
  exact hmissing s rfl hclean

/-- What is clean in the end was clean after the first step. -/
theorem clean_of_bind {p : P α} {f : α → P β} {s : State}
    (h : ((p >>= f).run s).2.Clean) : (p.run s).2.Clean :=
  ((f _).precedes _).clean h

theorem clean_of_within {inner : Context → Context} {p : P α} {s : State}
    (h : ((within inner p).run s).2.Clean) :
    (p.run { s with context := inner s.context }).2.Clean :=
  clean_of_bind (f := fun a => setContext s.context >>= fun _ => pure a) h

/-! ## Lists -/

/-- The items of a list between two marks. -/
theorem yields_between {opening closing : Punctuator} {p : P α} {Q : α → Prop}
    (h : p.Yields Q typed) : (between opening closing p).Yields Q typed :=
  .next fun _ => .bind h fun _ ha => .next fun _ => .pure ha

theorem yields_delimited {close : Punctuator} {item : P α} {Q : α → Prop}
    (h : item.Yields Q typed) :
    (delimited close item).Yields (fun r => ∀ x ∈ r.1, Q x) typed := by
  refine .next fun _ => .ite (fun _ => .pure nofun) fun _ => ?_
  refine .bind h fun first hfirst => .next fun steps => ?_
  refine .bind (Q := fun r => ∀ x ∈ r.1, Q x) ?_ fun r hr =>
    .pure fun x hx => hr x (List.mem_reverse.mp hx)
  refine yields_iterate (I := fun taken => ∀ x ∈ taken, Q x) (fun taken htaken => ?_) steps
    (List.forall_mem_singleton.mpr hfirst)
  refine .next fun _ => .ite (fun _ => .pure htaken) fun _ => .next fun _ => ?_
  have hnext : (do
      if ← atMark close then return .inr (taken, true)
      return .inl ((← item) :: taken) : P (List α ⊕ List α × Bool)).Yields
        (Sum.elim (fun taken => ∀ x ∈ taken, Q x) fun r => ∀ x ∈ r.1, Q x) typed := by
    refine .next fun _ => .ite (fun _ => .pure htaken) fun _ => ?_
    exact .bind h fun x hx => .pure (List.forall_mem_cons.mpr ⟨hx, htaken⟩)
  exact .ite (fun _ => hnext) fun _ => .next fun _ => .pure htaken

/-- The items of a list, one of which may be read in another way. -/
theorem yields_delimitedWithRest {close : Punctuator} {e : GrammarError} {item restItem : P α}
    {Q : α → Prop} (hitem : item.Yields Q typed) (hrest : restItem.Yields Q typed) :
    (delimitedWithRest close e item restItem).Yields
      (fun r => ∀ x ∈ r.1 ++ r.2.toList, Q x) typed := by
  refine .next fun steps => .bind (Q := fun r => ∀ x ∈ r.1 ++ r.2.toList, Q x) ?_ fun r hr =>
    .pure fun x hx => hr x (by simpa using hx)
  refine yields_iterate (I := fun r => ∀ x ∈ r.1 ++ r.2.1.toList, Q x) (fun r hr => ?_) steps nofun
  obtain ⟨taken, rest, first⟩ := r
  have hnext : (do
      if rest.isSome then
        stop e
        return .inr (taken, rest)
      if ← atMark .ellipsis then
        let r ← restItem
        return .inl (taken, some r, false)
      return .inl ((← item) :: taken, rest, false) :
        P ((List α × Option α × Bool) ⊕ (List α × Option α))).Yields
      (Sum.elim (fun r => ∀ x ∈ r.1 ++ r.2.1.toList, Q x)
        fun r => ∀ x ∈ r.1 ++ r.2.toList, Q x) typed := by
    refine .ite (fun _ => .next fun _ => .pure hr) fun _ => .next fun _ => .ite (fun _ => ?_) ?_
    · refine .bind hrest fun x hx => .pure (List.forall_mem_append.mpr ?_)
      exact ⟨(List.forall_mem_append.mp hr).1, List.forall_mem_singleton.mpr hx⟩
    · exact fun _ => .bind hitem fun x hx => .pure (List.forall_mem_cons.mpr ⟨hx, hr⟩)
  refine .next fun _ => .ite (fun _ => .pure hr) fun _ => .ite (fun _ => hnext) fun _ => ?_
  refine .next fun _ => .ite (fun _ => .next fun _ => .ite (fun _ => ?_) fun _ => hnext) fun _ => ?_
  · exact .ite (fun _ => .next fun _ => .pure hr) fun _ => .pure hr
  · exact .next fun _ => .pure hr

end Awaitless.Script.Parser
