import Awaitless.Script.Node

/-!
# Laws of syntax trees

Every function on trees is written by what it does to a form whose parts have been dealt with. The
recursion behind it goes through lists and options of parts, so that Lean sees mutual functions; the
laws here hide them. Once a step of a recursion is stated through `Form.map`, nothing about trees
has to look at the constructors of forms again, and induction on trees has a single case.

* `Form.parts_map`, `Form.map_map`, `Form.map_id`, `Form.map_congr` — mapping a form maps its parts.
* `Node.fold_mk`, `Node.para_mk`, `Node.bottomUp_mk`, `Node.size_mk` — one step of each recursion
  over trees.
* `Node.induction` — what passes from the parts of a tree to the tree holds of all trees.
-/

namespace Awaitless.Script

/-! ## Mapping -/

namespace Form

/-- The parts of the mapped form are the mapped parts. -/
theorem parts_map (f : α → β) (form : Form α) : (form.map f).parts = form.parts.map f := by
  cases form with
  | function | arrow | classLike | classMethod | classField | yieldValue | returns | dynamicImport
  | choice | forLoop | guarded | handler | switchCase | declarator =>
    simp only [map, parts, List.map_append, List.map_cons, List.map_nil, Option.toList_map]
  | _ => rfl

/-- Mapping twice is mapping once. -/
theorem map_map (f : α → β) (g : β → γ) (form : Form α) :
    (form.map f).map g = form.map (g ∘ f) := by
  cases form with
  | template | array | object | body | staticBlock | sequence | objectPattern | arrayPattern
  | block | bindings | function | arrow | classLike | classMethod | classField | yieldValue
  | returns | call | construct | switch | dynamicImport | choice | forLoop | guarded | handler
  | switchCase | declarator =>
    simp only [map, List.map_map, Option.map_map, Function.comp_apply]
  | _ => rfl

/-- Mapping to the same parts changes nothing. -/
theorem map_id (form : Form α) : form.map id = form := by
  cases form with
  | template | array | object | body | staticBlock | sequence | objectPattern | arrayPattern
  | block | bindings | function | arrow | classLike | classMethod | classField | yieldValue
  | returns | call | construct | switch | dynamicImport | choice | forLoop | guarded | handler
  | switchCase | declarator =>
    simp only [map, List.map_id, Option.map_id, id_eq]
  | _ => rfl

/-- Two functions that agree on the parts of a form map it alike. -/
theorem map_congr {f g : α → β} {form : Form α} (h : ∀ x ∈ form.parts, f x = g x) :
    form.map f = form.map g := by
  cases form <;> simp only [map, parts] at h ⊢ <;> congr 1 <;>
    first
    | exact h _ (by simp)
    | exact List.map_congr_left fun x hx => h x (by simp [hx])
    | exact Option.map_congr fun x hx => h x (by simp [hx])

end Form

/-! ## Recursion -/

namespace Node

/-- The recursion through a list of parts is the recursion through each of them. -/
theorem foldList_eq_map (alg : Span → Form β → β) (xs : List Node) :
    foldList alg xs = xs.map (fold alg) := by
  induction xs with
  | nil => rfl
  | cons x xs ih => simp [foldList, ih]

/-- The same for a part that may be missing. -/
theorem foldOption_eq_map (alg : Span → Form β → β) (x : Option Node) :
    foldOption alg x = x.map (fold alg) := by
  cases x <;> rfl

/-- The recursion through the parts of a form is a map of the form. This is the only place where the
constructors have to be gone through for it. -/
theorem foldForm_eq_map (alg : Span → Form β → β) (form : Form Node) :
    foldForm alg form = form.map (fold alg) := by
  have hlist := foldList_eq_map alg
  have hoption := foldOption_eq_map alg
  -- forms with one list or option are congruences; where there are several, each is rewritten in
  -- turn; forms whose parts are single hold by definition
  cases form with
  | template texts xs => exact congrArg (Form.template texts) (hlist xs)
  | array xs => exact congrArg Form.array (hlist xs)
  | object xs => exact congrArg Form.object (hlist xs)
  | function traits n ps b =>
    show Form.function traits (foldOption alg n) (foldList alg ps) (foldOption alg b) = _
    rw [hoption, hlist, hoption]
    rfl
  | arrow traits ps b => exact congrArg (Form.arrow traits · (fold alg b)) (hlist ps)
  | body directives xs => exact congrArg (Form.body directives) (hlist xs)
  | classLike traits ds n h ms =>
    show Form.classLike traits (foldList alg ds) (foldOption alg n) (foldOption alg h)
      (foldList alg ms) = _
    rw [hlist, hoption, hoption, hlist]
    rfl
  | classMethod kind traits ds k v c =>
    exact congrArg (Form.classMethod kind traits · (fold alg k) (fold alg v) c) (hlist ds)
  | classField traits ds k v c =>
    show Form.classField traits (foldList alg ds) (fold alg k) (foldOption alg v) c = _
    rw [hlist, hoption]
    rfl
  | staticBlock xs => exact congrArg Form.staticBlock (hlist xs)
  | sequence xs => exact congrArg Form.sequence (hlist xs)
  | yieldValue delegates x => exact congrArg (Form.yieldValue delegates) (hoption x)
  | call c xs q p => exact congrArg (Form.call (fold alg c) · q p) (hlist xs)
  | construct c xs p => exact congrArg (Form.construct (fold alg c) · p) (hlist xs)
  | dynamicImport phase s o => exact congrArg (Form.dynamicImport phase (fold alg s)) (hoption o)
  | objectPattern role xs => exact congrArg (Form.objectPattern role) (hlist xs)
  | arrayPattern role xs => exact congrArg (Form.arrayPattern role) (hlist xs)
  | block xs => exact congrArg Form.block (hlist xs)
  | choice a b c => exact congrArg (Form.choice (fold alg a) (fold alg b)) (hoption c)
  | forLoop a b c d =>
    show Form.forLoop (foldOption alg a) (foldOption alg b) (foldOption alg c) (fold alg d) = _
    rw [hoption, hoption, hoption]
    rfl
  | returns x => exact congrArg Form.returns (hoption x)
  | guarded b h c =>
    show Form.guarded (fold alg b) (foldOption alg h) (foldOption alg c) = _
    rw [hoption, hoption]
    rfl
  | handler p b => exact congrArg (Form.handler · (fold alg b)) (hoption p)
  | switch s cs => exact congrArg (Form.switch (fold alg s)) (hlist cs)
  | switchCase t xs =>
    show Form.switchCase (foldOption alg t) (foldList alg xs) = _
    rw [hoption, hlist]
    rfl
  | bindings kind xs => exact congrArg (Form.bindings kind) (hlist xs)
  | declarator t v => exact congrArg (Form.declarator (fold alg t)) (hoption v)
  | _ => rfl

/-- The value of a tree depends on the values of its parts only. -/
theorem fold_mk (alg : Span → Form β → β) (span : Span) (form : Form Node) :
    fold alg (mk span form) = alg span (form.map (fold alg)) := by
  rw [fold, foldForm_eq_map]

/-- A rewriting is applied to a node whose parts have been rewritten. -/
theorem bottomUp_mk (f : Node → Node) (span : Span) (form : Form Node) :
    bottomUp f (mk span form) = f (mk span (form.map (bottomUp f))) := by
  rw [bottomUp, fold_mk]

/-- A tree has a node more than its parts have. -/
theorem size_mk (span : Span) (form : Form Node) :
    (mk span form).size = total (form.parts.map size) + 1 := by
  rw [size, fold_mk, Form.parts_map]

theorem le_total_of_mem {n : Nat} {ns : List Nat} (h : n ∈ ns) : n ≤ total ns := by
  induction ns with
  | nil => cases h
  | cons m ns ih =>
    rw [total]
    rcases List.mem_cons.mp h with rfl | h
    · omega
    · have := ih h
      omega

/-- Parts are smaller, which is what recursion on trees needs. -/
theorem size_lt_of_mem_parts (span : Span) {form : Form Node} {x : Node} (h : x ∈ form.parts) :
    x.size < (mk span form).size := by
  have := le_total_of_mem (List.mem_map_of_mem h : x.size ∈ form.parts.map size)
  rw [size_mk]
  omega

/-- Beside the values, the recursion rebuilds the tree. -/
theorem fold_para_fst (alg : Span → Form (Node × β) → β) (n : Node) :
    (fold (fun span form => (mk span (form.map (·.1)), alg span form)) n).1 = n := by
  match n with
  | mk span form =>
    rw [fold_mk, Form.map_map]
    refine congrArg (mk span) (Eq.trans (Form.map_congr fun x h => ?_) (Form.map_id form))
    have := size_lt_of_mem_parts span h
    exact fold_para_fst alg x
termination_by n.size

/-- A step of the recursion that sees the parts as they were. -/
theorem para_mk (alg : Span → Form (Node × β) → β) (span : Span) (form : Form Node) :
    para alg (mk span form) = alg span (form.map fun x => (x, para alg x)) := by
  rw [para, fold_mk]
  show alg span _ = _
  congr 1
  refine Form.map_congr fun x _ => ?_
  exact Prod.ext (fold_para_fst alg x) rfl

/-- What holds of a tree whenever it holds of its parts holds of every tree. -/
theorem induction {P : Node → Prop}
    (step : ∀ span form, (∀ x ∈ form.parts, P x) → P (mk span form)) (n : Node) : P n := by
  match n with
  | mk span form =>
    exact step span form fun x h =>
      have := size_lt_of_mem_parts span h
      induction step x
termination_by n.size

end Node

end Awaitless.Script
