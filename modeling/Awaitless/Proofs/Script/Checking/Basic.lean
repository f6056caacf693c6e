import Awaitless.Script.EarlyErrors.Findings

/-!
# What a check never takes back

Checking a tree opens and closes scopes, but what has been declared in a scope stays declared as
long as the scope is open, and what has been reported stays reported. So a rule that is broken early
is still reported in the end, and results about whole modules need to look at one statement only.

Declarations are the hard part. A name leads to a place in a table, where the claims of all its
declarations are noted, and a `var` is entered in every block that it passes on the way out to its
function. Findings are therefore compared scope by scope: names that were there lead to the same
places, places have the claims they had, and no scope changes its kind.

* `Scope.Precedes`, `Scopes.Precedes`, `Findings.Precedes` — what is found early is there later.
* `Keeps` — a check that takes nothing back.
* `Keeps.bind`, `keeps_declare`, `keeps_hoist`, `keeps_inScope` and others — one law for each way to
  put checks together.
-/

namespace Awaitless.Script

/-! ## Scopes -/

/-- The first scope has turned into the second one. Only blocks are passed by `var`. -/
structure Scope.Precedes (s t : Scope) : Prop where
  kind : t.kind = s.kind
  names : ∀ name i, s.names.lookup name = some i → t.names.lookup name = some i
  passing : s.kind ≠ .block → t.passing = s.passing

namespace Scope

variable {s t u : Scope} {name : String} {i : Nat}

theorem Precedes.refl (s : Scope) : s.Precedes s := ⟨rfl, fun _ _ h => h, fun _ => rfl⟩

theorem Precedes.trans (h : s.Precedes t) (h' : t.Precedes u) : s.Precedes u := by
  refine ⟨h'.kind.trans h.kind, fun name i hi => h'.names name i (h.names name i hi), fun hs => ?_⟩
  have ht : t.kind ≠ .block := h.kind ▸ hs
  exact (h'.passing ht).trans (h.passing hs)

/-- A name is added where it has no declaration. -/
theorem precedes_add (h : s.names.lookup name = none) : s.Precedes (s.add name i) := by
  refine ⟨rfl, fun name' j hj => ?_, fun _ => rfl⟩
  by_cases hname : name' = name
  · rw [hname, h] at hj
    cases hj
  · rw [add, List.lookup_cons, beq_eq_false_iff_ne.mpr hname]
    exact hj

/-- A name is free in a scope if it neither is declared there nor passes through. -/
theorem find?_eq_none_iff :
    s.find? name = none ↔ s.names.lookup name = none ∧ s.passing.lookup name = none := by
  unfold find?
  cases s.names.lookup name with
  | none => exact (and_iff_right rfl).symm
  | some i => exact iff_of_false nofun fun h => nomatch h.1

/-- A name that is there already keeps its place. -/
theorem precedes_addMissing : s.Precedes (s.addMissing name i) := by
  unfold addMissing
  split
  · exact .refl s
  · rename_i hnone
    exact precedes_add (Option.not_isSome_iff_eq_none.mp hnone)

/-- Only blocks are passed, so only they note what passes. -/
theorem precedes_addPassing (h : s.kind = .block) : s.Precedes (s.addPassing name i) :=
  ⟨rfl, fun _ _ hi => hi, fun hs => absurd h hs⟩

/-! ### Places in the table -/

/-- All names stand for places in a table of some size. -/
def InBounds (size : Nat) (s : Scope) : Prop := ∀ p ∈ s.names ++ s.passing, p.2 < size

variable {size : Nat}

/-- The table only becomes longer. -/
theorem InBounds.mono {larger : Nat} (h : s.InBounds size) (hsize : size ≤ larger) :
    s.InBounds larger :=
  fun p hp => Nat.lt_of_lt_of_le (h p hp) hsize

theorem InBounds.add (h : s.InBounds size) (hi : i < size) : (s.add name i).InBounds size := by
  intro p hp
  rcases List.mem_cons.mp hp with rfl | hp
  · exact hi
  · exact h p hp

theorem InBounds.addMissing (h : s.InBounds size) (hi : i < size) :
    (s.addMissing name i).InBounds size := by
  unfold Scope.addMissing
  split
  · exact h
  · exact h.add hi

theorem InBounds.addPassing (h : s.InBounds size) (hi : i < size) :
    (s.addPassing name i).InBounds size := by
  intro p hp
  rcases List.mem_append.mp hp with hp | hp
  · exact h p (List.mem_append_left _ hp)
  · rcases List.mem_cons.mp hp with rfl | hp
    · exact hi
    · exact h p (List.mem_append_right _ hp)

/-- A name that is found has a place in the table. -/
theorem InBounds.lt_of_find? (h : s.InBounds size) (hi : s.find? name = some i) : i < size := by
  have hmem : ∀ {xs : List (String × Nat)}, xs.lookup name = some i → (name, i) ∈ xs := by
    intro xs hlookup
    obtain ⟨before, after, rfl, -⟩ := List.lookup_eq_some_iff.mp hlookup
    exact List.mem_append_right _ (List.mem_cons_self ..)
  unfold find? at hi
  cases hnames : s.names.lookup name with
  | none =>
    rw [hnames] at hi
    exact h _ (List.mem_append_right _ (hmem hi))
  | some j =>
    rw [hnames] at hi
    cases hi
    exact h _ (List.mem_append_left _ (hmem hnames))

end Scope

namespace Scopes

/-- What a binding claims. -/
def claims (s : Scopes) (i : Nat) : List Claim := (s.bindings[i]?.map (·.claims)).getD []

/-- All names stand for bindings. -/
def InBounds (s : Scopes) : Prop := ∀ sc ∈ s.chain, sc.InBounds s.bindings.size

/-- The first scopes have turned into the second ones. -/
structure Precedes (s t : Scopes) : Prop where
  chain : ∀ k : Nat, Option.Rel Scope.Precedes s.chain[k]? t.chain[k]?
  claims : ∀ i claim, claim ∈ s.claims i → claim ∈ t.claims i
  inBounds : s.InBounds → t.InBounds

variable {s t u : Scopes} {name : String} {claim : Claim}

theorem rel_refl (x : Option Scope) : Option.Rel Scope.Precedes x x := by
  cases x with
  | none => exact .none
  | some x => exact .some (.refl x)

theorem rel_trans {x y z : Option Scope} (h : Option.Rel Scope.Precedes x y)
    (h' : Option.Rel Scope.Precedes y z) : Option.Rel Scope.Precedes x z := by
  cases h with
  | none => exact h'
  | some h =>
    cases h' with
    | some h' => exact .some (h.trans h')

theorem Precedes.refl (s : Scopes) : s.Precedes s := ⟨fun _ => rel_refl _, fun _ _ h => h, id⟩

theorem Precedes.trans (h : s.Precedes t) (h' : t.Precedes u) : s.Precedes u :=
  ⟨fun k => rel_trans (h.chain k) (h'.chain k),
    fun i claim hc => h'.claims i claim (h.claims i claim hc),
    fun hs => h'.inBounds (h.inBounds hs)⟩

/-- What is done in a scope of its own leaves the scopes around it. -/
theorem Precedes.of_enter {kind : ScopeKind} (h : (s.enter kind).Precedes t) :
    s.Precedes t.leave := by
  refine ⟨fun k => ?_, h.claims, fun hs sc hsc => ?_⟩
  · have hk := h.chain (k + 1)
    rw [leave, List.getElem?_tail]
    exact hk
  · have henter : (s.enter kind).InBounds := List.forall_mem_cons.mpr ⟨nofun, hs⟩
    exact h.inBounds henter sc (List.mem_of_mem_tail hsc)

theorem rel_map {f : Scope → Scope} {x : Option Scope} (h : ∀ a, x = some a → a.Precedes (f a)) :
    Option.Rel Scope.Precedes x (x.map f) := by
  cases x with
  | none => exact .none
  | some a => exact .some (h a rfl)

/-- A change of one binding that adds claims takes none away anywhere. -/
theorem claims_modify {f : Binding → Binding} {i : Nat} {bindings : Array Binding}
    (hf : ∀ b, ∀ c ∈ b.claims, c ∈ (f b).claims) (j : Nat)
    (h : claim ∈ claims ⟨s.chain, bindings⟩ j) :
    claim ∈ claims ⟨s.chain, bindings.modify i f⟩ j := by
  unfold claims at h ⊢
  dsimp only at h ⊢
  rw [Array.getElem?_modify]
  cases hb : bindings[j]? with
  | none =>
    rw [hb] at h
    cases h
  | some b =>
    rw [hb] at h
    by_cases hi : i = j
    · rw [if_pos hi]
      exact hf b claim h
    · rw [if_neg hi]
      exact h

/-- A new binding stands behind all others. -/
theorem claims_push {b : Binding} {j : Nat} (h : claim ∈ s.claims j) :
    claim ∈ claims ⟨s.chain, s.bindings.push b⟩ j := by
  unfold claims at h ⊢
  dsimp only
  rw [Array.getElem?_push]
  by_cases hj : j = s.bindings.size
  · rw [hj, Array.getElem?_size] at h
    cases h
  · rw [if_neg hj]
    exact h

/-- A scope of the changed chain is one of the chain, or a changed one. -/
theorem mem_modify {chain : List Scope} {f : Scope → Scope} {k : Nat} {sc : Scope}
    (h : sc ∈ chain.modify k f) : ∃ before ∈ chain, sc = before ∨ sc = f before := by
  obtain ⟨j, hj⟩ := List.mem_iff_getElem?.mp h
  rw [List.getElem?_modify] at hj
  obtain ⟨before, hbefore, rfl⟩ := Option.map_eq_some_iff.mp hj
  refine ⟨before, List.mem_of_getElem? hbefore, ?_⟩
  by_cases hk : k = j
  · exact .inr (if_pos hk)
  · exact .inl (if_neg hk)

/-- A declaration adds a claim to the place of its name, or a place for it. -/
theorem precedes_declareAt (depth : Nat) (claim : Claim) (name : String) (s : Scopes) :
    s.Precedes (s.declareAt depth claim name).2 := by
  unfold declareAt
  split
  · -- the name has a place already, and the scopes stay as they are
    refine ⟨fun k => rel_refl _, fun j c hc => ?_, fun hs sc hsc => ?_⟩
    · exact claims_modify (fun b c hc => List.mem_cons_of_mem _ hc) j hc
    · exact (hs sc hsc).mono (Nat.le_of_eq (Array.size_modify ..).symm)
  · rename_i hnone
    refine ⟨fun k => ?_, fun j c hc => claims_push hc, fun hs sc hsc => ?_⟩
    · -- the name is new to this scope, and no other scope is changed
      dsimp only
      rw [List.getElem?_modify]
      refine rel_map fun sc hsc => ?_
      by_cases hk : depth = k
      · rw [if_pos hk]
        rw [hk, hsc, Option.bind_some] at hnone
        exact Scope.precedes_add (Scope.find?_eq_none_iff.mp hnone).1
      · rw [if_neg hk]
        exact .refl sc
    · have hsize : s.bindings.size < (s.bindings.push
          { name, claims := [claim], history := [claim] }).size := by
        rw [Array.size_push]
        exact Nat.lt_succ_self _
      obtain ⟨before, hbefore, rfl | rfl⟩ := mem_modify hsc
      · exact (hs sc hbefore).mono (Nat.le_of_lt hsize)
      · exact ((hs before hbefore).mono (Nat.le_of_lt hsize)).add hsize

/-- The binding of a declaration stands in the table. -/
theorem binding_declareAt_lt {depth : Nat} {claim : Claim} {name : String} (hs : s.InBounds) :
    (s.declareAt depth claim name).1.binding <
      (s.declareAt depth claim name).2.bindings.size := by
  unfold declareAt
  split
  · rename_i i hi
    obtain ⟨sc, hsc, hfound⟩ := Option.bind_eq_some_iff.mp hi
    rw [Array.size_modify]
    exact (hs sc (List.mem_of_getElem? hsc)).lt_of_find? hfound
  · rw [Array.size_push]
    exact Nat.lt_succ_self _

/-- A binding that is used again has its claims still. -/
theorem precedes_reuse (i : Nat) (s : Scopes) : s.Precedes (s.reuse i).2 := by
  refine ⟨fun k => rel_refl _, fun j c hc => ?_, fun hs sc hsc => ?_⟩
  · have hkeep : ∀ b : Binding, ∀ c ∈ b.claims,
        c ∈ { b with history := .variable :: b.history }.claims := fun _ _ hc => hc
    exact claims_modify hkeep j hc
  · exact (hs sc hsc).mono (Nat.le_of_eq (Array.size_modify ..).symm)

/-- A declaration that looks for its name outwards is a declaration in one scope, or none at all. -/
theorem precedes_declareFrom (depth : Nat) (name : String) (s : Scopes) :
    s.Precedes (s.declareFrom depth name).2 := by
  unfold declareFrom
  split
  · exact precedes_reuse _ s
  · exact precedes_declareAt depth .variable name s

theorem binding_declareFrom_lt (depth : Nat) (name : String) (hs : s.InBounds) :
    (s.declareFrom depth name).1.binding < (s.declareFrom depth name).2.bindings.size := by
  unfold declareFrom
  split
  · rename_i i hi
    obtain ⟨sc, hsc, hfound⟩ := List.exists_of_findSome?_eq_some hi
    show i < (s.bindings.modify i _).size
    rw [Array.size_modify]
    exact (hs sc (List.mem_of_mem_take hsc)).lt_of_find? hfound
  · exact binding_declareAt_lt hs

/-- The scopes that a `var` passes are blocks. -/
theorem kind_of_lt_functionDepth {k : Nat} (hk : k < s.functionDepth) {sc : Scope}
    (hsc : s.chain[k]? = some sc) : sc.kind = .block := by
  have hprefix : (s.chain.takeWhile (·.kind == .block)) <+: s.chain := List.takeWhile_prefix _
  have hmem : (s.chain.takeWhile (·.kind == .block))[k]? = some sc := by
    obtain ⟨rest, hrest⟩ := hprefix
    rw [← hrest, List.getElem?_append_left hk] at hsc
    exact hsc
  have hkind := List.all_eq_true.mp List.all_takeWhile sc (List.mem_of_getElem? hmem)
  exact eq_of_beq hkind

/-- The scope of the function around is one of those that are open. -/
theorem functionDepth_le (s : Scopes) : s.functionDepth ≤ s.chain.length :=
  (List.takeWhile_prefix _).length_le

/-- Beyond the declaration itself, hoisting a name only passes blocks and fills a gap. -/
theorem rel_chain_hoist (name : String) (s : Scopes) (k : Nat) :
    Option.Rel Scope.Precedes (s.declareFrom s.functionDepth name).2.chain[k]?
      (s.hoist name).2.chain[k]? := by
  have hfrom := precedes_declareFrom s.functionDepth name s
  have hdepth := functionDepth_le s
  rw [← length_chain_declareFrom s.functionDepth name s] at hdepth
  have hlen : (((s.declareFrom s.functionDepth name).2.chain.take s.functionDepth).map
      (·.addPassing name (s.declareFrom s.functionDepth name).1.binding)).length =
        s.functionDepth := by
    rw [List.length_map, List.length_take, Nat.min_eq_left hdepth]
  dsimp only [hoist]
  by_cases hk : k < s.functionDepth
  · -- a block that the declaration passes
    rw [List.getElem?_append_left (by rwa [hlen]), List.getElem?_map, List.getElem?_take_of_lt hk]
    refine rel_map fun sc hsc => Scope.precedes_addPassing ?_
    have hrel := hfrom.chain k
    rw [hsc] at hrel
    cases hs : s.chain[k]? with
    | none =>
      rw [hs] at hrel
      cases hrel
    | some before =>
      rw [hs] at hrel
      cases hrel with
      | some hbefore => exact hbefore.kind.trans (kind_of_lt_functionDepth hk hs)
  · -- the function or a scope around it
    have hle : s.functionDepth ≤ k := Nat.le_of_not_lt hk
    rw [List.getElem?_append_right (by rw [hlen]; exact hle), hlen, List.getElem?_modify,
      List.getElem?_drop, Nat.add_sub_cancel' hle]
    refine rel_map fun sc _ => ?_
    split
    · exact Scope.precedes_addMissing
    · exact .refl sc

/-- Every scope that a `var` passes gets a place that is in the table. -/
theorem inBounds_hoist (name : String) (hs : s.InBounds) : (s.hoist name).2.InBounds := by
  intro sc hsc
  have hbefore := (precedes_declareFrom s.functionDepth name s).inBounds hs
  have hbinding := binding_declareFrom_lt s.functionDepth name hs
  rcases List.mem_append.mp hsc with hsc | hsc
  · obtain ⟨before, hmem, rfl⟩ := List.mem_map.mp hsc
    exact (hbefore before (List.mem_of_mem_take hmem)).addPassing hbinding
  · obtain ⟨before, hmem, rfl | rfl⟩ := mem_modify hsc
    · exact hbefore sc (List.mem_of_mem_drop hmem)
    · exact (hbefore before (List.mem_of_mem_drop hmem)).addMissing hbinding

/-- A `var` is declared with its function, and noted in every block on the way. -/
theorem precedes_hoist (name : String) (s : Scopes) : s.Precedes (s.hoist name).2 := by
  have hfrom := precedes_declareFrom s.functionDepth name s
  exact ⟨fun k => rel_trans (hfrom.chain k) (rel_chain_hoist name s k), hfrom.claims,
    inBounds_hoist name⟩

end Scopes

/-! ## Checks -/

namespace EarlyErrors

/-- What has been found first is still there later. -/
structure Findings.Precedes (f g : Findings) : Prop where
  scopes : f.scopes.Precedes g.scopes
  errors : g.errors = [] → f.errors = []

theorem Findings.Precedes.refl (f : Findings) : f.Precedes f := ⟨.refl _, id⟩

theorem Findings.Precedes.trans {f g h : Findings} (hfg : f.Precedes g) (hgh : g.Precedes h) :
    f.Precedes h :=
  ⟨hfg.scopes.trans hgh.scopes, fun he => hfg.errors (hgh.errors he)⟩

/-- A check that takes nothing back. -/
def Keeps {α : Type} (m : M α) : Prop := ∀ f : Findings, f.Precedes (m.run f).2

variable {α β : Type}

namespace Keeps

variable {m : M α} {k : α → M β}

theorem pure (a : α) : Keeps (pure a : M α) := fun f => .refl f

theorem get : Keeps (get : M Findings) := fun f => .refl f

/-- One check after the other. -/
theorem bind (hm : Keeps m) (hk : ∀ a, Keeps (k a)) : Keeps (m >>= k) :=
  fun f => (hm f).trans (hk _ _)

/-- A change of what is neither a scope nor an error. -/
theorem modify {g : Findings → Findings} (hscopes : ∀ f, (g f).scopes = f.scopes)
    (herrors : ∀ f, (g f).errors = f.errors) : Keeps (modify g : M Unit) := by
  intro f
  refine ⟨?_, fun he => (herrors f).symm.trans he⟩
  show f.scopes.Precedes (g f).scopes
  rw [hscopes]
  exact .refl _

theorem ite {c : Prop} [Decidable c] {m n : M α} (hm : Keeps m) (hn : Keeps n) :
    Keeps (if c then m else n) := by
  split
  · exact hm
  · exact hn

/-- What follows a choice follows both sides. -/
theorem iteBind {c : Prop} [Decidable c] {m n : M α} (hm : Keeps m) (hn : Keeps n)
    (hk : ∀ a, Keeps (k a)) : Keeps (if c then m >>= k else n >>= k) :=
  .ite (.bind hm hk) (.bind hn hk)

/-- By induction on the list: a check may find what it likes, it is kept by those that follow. -/
theorem forM {xs : List α} {k : α → M Unit} (hk : ∀ x ∈ xs, Keeps (k x)) : Keeps (xs.forM k) := by
  induction xs with
  | nil => exact pure ()
  | cons x xs ih =>
    obtain ⟨hx, hxs⟩ := List.forall_mem_cons.mp hk
    exact bind hx fun _ => ih hxs

theorem mapM {xs : List α} (hk : ∀ x, Keeps (k x)) : Keeps (xs.mapM k) := by
  induction xs with
  | nil => exact pure []
  | cons x xs ih =>
    rw [List.mapM_cons]
    exact bind (hk x) fun _ => bind ih fun _ => pure _

theorem mapOption {x : Option α} (hk : ∀ a, Keeps (k a)) : Keeps (x.mapM k) := by
  cases x with
  | none => exact pure none
  | some a => exact bind (hk a) fun _ => pure _

end Keeps

theorem keeps_report (e : EarlyError) : Keeps (report e) :=
  fun _ => ⟨.refl _, nofun⟩

/-- A scope that is closed has left those around it as they were. -/
theorem keeps_inScope {kind : ScopeKind} {m : M Unit} (hm : Keeps m) : Keeps (inScope kind m) := by
  intro f
  have hinside := hm { f with scopes := f.scopes.enter kind }
  exact ⟨hinside.scopes.of_enter, hinside.errors⟩

theorem keeps_reportRepeated (i : Nat) : Keeps (reportRepeated i) :=
  .bind .get fun _ => keeps_report _

/-- What a declaration finds is noted beside what was found before. -/
theorem keeps_settle {f : Findings} {d : Scopes.Declared × Scopes} (h : f.scopes.Precedes d.2) :
    f.Precedes ((settle d).run f).2 := by
  have hrest : Keeps (do
      if d.1.clashes then reportRepeated d.1.binding
      return d.1.binding : M Nat) :=
    .ite (.bind (keeps_reportRepeated _) fun _ => .pure _) (.pure _)
  have hfirst : f.Precedes { f with scopes := d.2 } := ⟨h, id⟩
  exact hfirst.trans (hrest _)

theorem keeps_declare (claim : Claim) (name : String) : Keeps (declare claim name) :=
  fun f => keeps_settle (Scopes.precedes_declareAt 0 claim name f.scopes)

theorem keeps_hoist (name : String) : Keeps (hoist name) :=
  fun f => keeps_settle (Scopes.precedes_hoist name f.scopes)

/-- Whether a function may repeat a name depends on what the name was before. -/
theorem keeps_checkRepeatedFunction (i : Nat) : Keeps (checkRepeatedFunction i) := by
  refine .bind .get fun f => ?_
  dsimp only
  split
  · exact .pure ()
  · exact .pure ()
  · exact .ite (keeps_reportRepeated i) (.pure ())
  · exact .ite (keeps_reportRepeated i) (.pure ())
  · exact .ite (keeps_reportRepeated i) (.pure ())
  · exact keeps_reportRepeated i

theorem keeps_checkRepeatedClass (i : Nat) : Keeps (checkRepeatedClass i) :=
  .bind .get fun _ => .ite (keeps_reportRepeated i) (.pure ())

theorem keeps_checkRepeatedVariable (i : Nat) : Keeps (checkRepeatedVariable i) := by
  refine .bind .get fun f => ?_
  dsimp only
  split
  · exact .pure ()
  · exact .pure ()
  · exact .ite (keeps_reportRepeated i) (.pure ())

theorem keeps_checkBinding (name : String) : Keeps (checkBinding name) :=
  .ite (keeps_report _) (.ite (keeps_report _) (.pure ()))

theorem keeps_checkReference (name : String) (s : Setting) : Keeps (checkReference name s) := by
  refine .ite (keeps_report _) (.ite (keeps_report _) (.ite ?_ (.pure ())))
  split
  · exact keeps_report _
  · exact .pure ()

theorem keeps_checkLabel (name : String) : Keeps (checkLabel name) :=
  .ite (keeps_report _) (.pure ())

theorem keeps_checkFlaw (flaw : LiteralFlaw) : Keeps (checkFlaw flaw) := by
  cases flaw with
  | sound => exact .pure ()
  | _ => exact keeps_report _

end EarlyErrors

end Awaitless.Script
