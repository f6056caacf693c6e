import Awaitless.Proofs.Script.Items
import Awaitless.Script.NodeLaws
import Awaitless.Script.Pattern

/-!
# The names of scopes

A scope declares some names once and others over and over: a name that is declared by `let` excludes
every other declaration of the same name, while `var` may repeat itself. So what a scope declares is
two lists, and that its names are in no conflict is a matter of counting: a name of the first list
occurs once in both lists together (`ScopeNames.consistent_iff`). Counting is what moving statements
around leaves alone, and it is how consistency is carried through the transformation.

The names of a pattern are found twice. The parser reports repeated names with `boundNames`; the
transformation collects with `patternNames` what an assignment has to export. Both agree on the
patterns of the grammar, and may differ on other trees.

* `ScopeNames`, `ScopeNames.Consistent` — what a scope declares, and whether names meet.
* `Node.patternNames`, `Node.varNames` — the names that a pattern binds, and those that a statement
  declares by `var`, however deep.
* `bodyScope`, `moduleScope` — the scopes of a function and of a module.
-/

namespace Awaitless.Script

/-! ## Scopes -/

/-- What a scope declares. -/
structure ScopeNames where
  /-- The names that nothing else in the scope may have. -/
  single : List String := []
  /-- The names that may be declared again in the same way. -/
  shared : List String := []
deriving Repr, DecidableEq

namespace ScopeNames

/-- All declared names, as often as they are declared. -/
def all (s : ScopeNames) : List String := s.single ++ s.shared

/-- No name is declared twice in conflict. -/
def Consistent (s : ScopeNames) : Prop := s.single.Nodup ∧ ∀ x ∈ s.single, x ∉ s.shared

instance (s : ScopeNames) : Decidable s.Consistent :=
  inferInstanceAs (Decidable (_ ∧ _))

/-- What some pieces of a scope declare together. -/
def collect (f : α → ScopeNames) (xs : List α) : ScopeNames :=
  ⟨xs.flatMap fun x => (f x).single, xs.flatMap fun x => (f x).shared⟩

/-- A scope is consistent if each name that excludes others is declared once, however it may be
declared. -/
theorem consistent_iff {s : ScopeNames} :
    s.Consistent ↔ ∀ x ∈ s.single, s.all.count x = 1 := by
  have hcount : ∀ x, s.all.count x = s.single.count x + s.shared.count x :=
    fun x => List.count_append
  constructor
  · rintro ⟨hnodup, hshared⟩ x hx
    have hsingle : s.single.count x ≤ 1 := List.nodup_iff_count.mp hnodup x
    have hpos : 0 < s.single.count x := List.count_pos_iff.mpr hx
    have hzero : s.shared.count x = 0 := List.count_eq_zero.mpr (hshared x hx)
    have := hcount x
    omega
  · intro h
    refine ⟨List.nodup_iff_count.mpr fun x => ?_, fun x hx hshared => ?_⟩
    · -- a name that excludes others is counted once in both lists, so it cannot be repeated in its
      -- own
      by_cases hx : x ∈ s.single
      · have := h x hx
        have := hcount x
        omega
      · rw [List.count_eq_zero.mpr hx]
        exact Nat.zero_le 1
    · have := h x hx
      have := hcount x
      have hpos : 0 < s.single.count x := List.count_pos_iff.mpr hx
      have hpos' : 0 < s.shared.count x := List.count_pos_iff.mpr hshared
      omega

variable {f : α → ScopeNames} {x : α} {xs ys : List α} {name : String}

theorem single_collect_append (f : α → ScopeNames) (xs ys : List α) :
    (collect f (xs ++ ys)).single = (collect f xs).single ++ (collect f ys).single :=
  List.flatMap_append

theorem shared_collect_append (f : α → ScopeNames) (xs ys : List α) :
    (collect f (xs ++ ys)).shared = (collect f xs).shared ++ (collect f ys).shared :=
  List.flatMap_append

theorem collect_singleton : collect f [x] = f x := by
  simp [collect]

/-- Declarations of two rows add up. -/
theorem count_all_collect_append :
    (collect f (xs ++ ys)).all.count name =
      (collect f xs).all.count name + (collect f ys).all.count name := by
  simp only [all, List.count_append, single_collect_append, shared_collect_append]
  omega

/-- Statements without declarations declare nothing together. -/
theorem collect_eq_empty (h : ∀ x ∈ xs, f x = {}) : collect f xs = {} := by
  have hsingle : (xs.flatMap fun x => (f x).single) = [] :=
    List.flatMap_eq_nil_iff.mpr fun x hx => by rw [h x hx]
  have hshared : (xs.flatMap fun x => (f x).shared) = [] :=
    List.flatMap_eq_nil_iff.mpr fun x hx => by rw [h x hx]
  rw [collect, hsingle, hshared]

/-- Pieces that declare nothing change nothing. -/
theorem collect_append_of_empty (h : ∀ x ∈ ys, f x = {}) :
    collect f (xs ++ ys) = collect f xs := by
  have hsingle := single_collect_append f xs ys
  have hshared := shared_collect_append f xs ys
  rw [collect_eq_empty h, List.append_nil] at hsingle hshared
  show (⟨(collect f (xs ++ ys)).single, (collect f (xs ++ ys)).shared⟩ : ScopeNames) = _
  rw [hsingle, hshared]

theorem collect_map {g : β → α} {zs : List β} : collect f (zs.map g) = collect (f ∘ g) zs := by
  simp [collect, List.flatMap_map]

theorem collect_congr {g : α → ScopeNames} (h : ∀ x ∈ xs, f x = g x) :
    collect f xs = collect g xs := by
  simp only [collect, List.flatMap_def]
  rw [List.map_congr_left fun x hx => congrArg single (h x hx),
    List.map_congr_left fun x hx => congrArg shared (h x hx)]

end ScopeNames

/-! ## Declarations -/

namespace Form

/-- The parts of a statement that are statements of the same function. -/
def nestedStatements : Form α → List α
  | block xs | switchCase _ xs | switch _ xs => xs
  | choice _ yes no => yes :: no.toList
  | forLoop start _ _ s => start.toList ++ [s]
  | forIn head _ s | forOf _ head _ s => [head, s]
  | whileLoop _ s | doLoop s _ | handler _ s | labeled _ s | within _ s => [s]
  | guarded tried caught cleanup => tried :: (caught.toList ++ cleanup.toList)
  | exportDeclaration d => [d]
  | _ => []

theorem nestedStatements_map (f : α → β) (form : Form α) :
    (form.map f).nestedStatements = form.nestedStatements.map f := by
  cases form <;> simp [nestedStatements, map, Option.toList_map]

/-- Nested statements are parts, so that `var` can be looked for by recursion. -/
theorem mem_parts_of_mem_nestedStatements {form : Form α} {x : α} (h : x ∈ form.nestedStatements) :
    x ∈ form.parts := by
  cases form with
  | block _ | labeled _ _ | guarded _ _ _ | exportDeclaration _ => exact h
  | choice _ _ _ | whileLoop _ _ | within _ _ | switch _ _ => exact List.mem_cons_of_mem _ h
  | handler _ _ | switchCase _ _ => exact List.mem_append_right _ h
  | doLoop s condition => exact List.mem_cons.mpr (.inl (List.mem_singleton.mp h))
  | forIn head subject s | forOf _ head subject s =>
    exact ((List.sublist_cons_self subject [s]).cons_cons head).subset h
  | forLoop start test step s =>
    rcases List.mem_append.mp h with hstart | hs
    · exact List.mem_append_left _ (List.mem_append_left _ (List.mem_append_left _ hstart))
    · exact List.mem_append_right _ hs
  | _ => cases h

end Form

namespace Node

variable {n : Node}

/-- The names that a pattern binds. Whatever is no pattern binds none. -/
def patternNames : Node → List String :=
  fold fun _ form =>
    match form with
    | .identifier name => [name]
    | .objectPattern _ xs | .arrayPattern _ xs => xs.flatten
    | .patternProperty _ value _ _ => value
    | .defaulted target _ | .rest target => target
    | _ => []

/-- One step of the recursion that collects the names of a pattern. -/
theorem patternNames_eq (n : Node) :
    n.patternNames =
      match n.form with
      | .identifier name => [name]
      | .objectPattern _ xs | .arrayPattern _ xs => xs.flatMap patternNames
      | .patternProperty _ value _ _ => value.patternNames
      | .defaulted target _ | .rest target => target.patternNames
      | _ => [] := by
  obtain ⟨span, form⟩ := n
  rw [patternNames, fold_mk, ← patternNames]
  cases form <;> rfl

/-- One step of the recursion with which the parser finds the same names. -/
theorem boundNames_eq (n : Node) :
    n.boundNames =
      match n.form with
      | .identifier name => [name]
      | .patternProperty _ value _ _ => value.boundNames
      | .defaulted target _ => target.boundNames
      | other => other.parts.flatMap boundNames := by
  obtain ⟨span, form⟩ := n
  rw [boundNames, fold_mk, ← boundNames]
  cases form with
  | identifier _ | patternProperty _ _ _ _ | defaulted _ _ => rfl
  | _ =>
    show (Form.map _ _).parts.flatten = _
    rw [Form.parts_map]
    rfl

/-- A pattern of a declaration binds whatever names it holds outside of keys and defaults. -/
theorem IsPattern.boundNames_eq_patternNames (h : n.IsPattern) : n.boundNames = n.patternNames := by
  have hall : ∀ {xs : List Node}, (∀ x ∈ xs, x.boundNames = x.patternNames) →
      xs.flatMap boundNames = xs.flatMap patternNames := by
    intro xs h
    rw [List.flatMap_def, List.flatMap_def, List.map_congr_left h]
  -- by the shape of patterns; only a shorthand looks two levels deep, at a name or at its default
  induction h with
  | name hform => rw [boundNames_eq, patternNames_eq, hform]
  | hole hform =>
    rw [boundNames_eq, patternNames_eq, hform]
    rfl
  | object hform _ _ ih =>
    rw [boundNames_eq, patternNames_eq, hform]
    exact hall ih
  | array hform _ ih =>
    rw [boundNames_eq, patternNames_eq, hform]
    exact hall ih
  | property hform _ ih =>
    rw [boundNames_eq, patternNames_eq, hform]
    exact ih
  | @shorthand n key value text hform hkey hvalue =>
    have hname : key.boundNames = key.patternNames := by
      rw [boundNames_eq, patternNames_eq, hkey]
    rw [boundNames_eq, patternNames_eq, hform]
    rcases hvalue with rfl | ⟨default, hdefault⟩
    · exact hname
    · show value.boundNames = value.patternNames
      rw [boundNames_eq, patternNames_eq, hdefault]
      exact hname
  | defaulted hform _ _ ih =>
    rw [boundNames_eq, patternNames_eq, hform]
    exact ih
  | @rest n target hform _ _ ih =>
    rw [boundNames_eq, patternNames_eq, hform]
    exact (List.flatMap_singleton boundNames target).trans ih

/-- A name is read through parentheses. -/
theorem name?_eq (n : Node) :
    n.name? =
      match n.form with
      | .parenthesized x => x.name?
      | .identifier name => some name
      | _ => none := by
  obtain ⟨span, form⟩ := n
  cases form <;> rfl

/-- An expression that is a name binds this name. -/
theorem boundNames_of_name? {name : String} (h : n.name? = some name) : n.boundNames = [name] := by
  induction n using Node.induction with
  | step span form ih =>
    rw [name?_eq] at h
    rw [boundNames_eq]
    cases form with
    | parenthesized x =>
      have hx := ih x (List.mem_singleton_self x) h
      simp [Form.parts, hx]
    | identifier text =>
      cases h
      rfl
    | _ => cases h

/-- The names that a declarator declares. -/
def declaratorNames (d : Node) : List String :=
  match d.form with
  | .declarator target _ => target.patternNames
  | _ => []

/-- The names that a statement declares by `var`, however deep in other statements. -/
def varNames : Node → List String :=
  para fun _ form =>
    match form with
    | .bindings .var ds => ds.flatMap fun d => d.1.declaratorNames
    | other => other.nestedStatements.flatMap (·.2)

/-- A `var` belongs to the function around it, so it is looked for in nested statements as well. -/
theorem varNames_eq (n : Node) :
    n.varNames =
      match n.form with
      | .bindings .var ds => ds.flatMap declaratorNames
      | other => other.nestedStatements.flatMap varNames := by
  obtain ⟨span, form⟩ := n
  rw [varNames, para_mk, ← varNames]
  have hnested : (form.map fun x => (x, varNames x)).nestedStatements.flatMap (·.2) =
      form.nestedStatements.flatMap varNames := by
    rw [Form.nestedStatements_map, List.flatMap_map]
  cases form with
  | bindings kind ds =>
    cases kind with
    | var => exact List.flatMap_map ..
    | _ => rfl
  | _ => exact hnested

/-- The name of a function or class. -/
def ownName (name : Option Node) : List String := (name.bind name?).toList

/-- What a statement declares in the function whose statement it is. -/
def bodyNames (n : Node) : ScopeNames :=
  match n.form with
  | .bindings .var ds => { shared := ds.flatMap declaratorNames }
  | .bindings _ ds => { single := ds.flatMap declaratorNames }
  | .function _ name _ _ => { shared := ownName name }
  | .classLike _ _ name _ _ => { single := ownName name }
  | _ => { shared := n.varNames }

/-- What a statement declares at the top of a module, where functions may not be repeated. -/
def topNames (n : Node) : ScopeNames :=
  match n.form with
  | .function _ name _ _ => { single := ownName name }
  | _ => n.bodyNames

/-- What an item declares in its module. -/
def itemNames (n : Node) : ScopeNames :=
  match n.form with
  | .importItem d => { single := d.bindings }
  | .exportDeclaration d | .exportDefault d => d.topNames
  | _ => n.topNames

end Node

/-- What a function with the given statements declares, apart from its parameters. -/
def bodyScope (statements : List Node) : ScopeNames := .collect Node.bodyNames statements

/-- What a module declares. -/
def moduleScope (items : List Node) : ScopeNames := .collect Node.itemNames items

theorem single_moduleScope_append (xs ys : List Node) :
    (moduleScope (xs ++ ys)).single = (moduleScope xs).single ++ (moduleScope ys).single :=
  ScopeNames.single_collect_append ..

theorem shared_moduleScope_append (xs ys : List Node) :
    (moduleScope (xs ++ ys)).shared = (moduleScope xs).shared ++ (moduleScope ys).shared :=
  ScopeNames.shared_collect_append ..

end Awaitless.Script
