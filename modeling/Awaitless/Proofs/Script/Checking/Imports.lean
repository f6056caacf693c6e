import Awaitless.Proofs.Script.Checking.Forms

/-!
# The imports of a checked module

* `Findings.Imports` — a name has been imported.
* `Adds` — a check imports some names, and finds something wrong unless all of them are new.
* `Program.nodup_importedNames` — a module that keeps all rules imports no name twice.
-/

namespace Awaitless.Script

/-- The names that an item imports. -/
def Node.importedNames (n : Node) : List String :=
  match n.form with
  | .importItem d => d.bindings
  | _ => []

namespace EarlyErrors

/-! ## The top of a module -/

/-- No `var` passes the innermost scope, and all names stand for bindings. -/
structure Findings.AtTop (f : Findings) : Prop where
  scope : ∃ top, f.scopes.chain[0]? = some top ∧ top.kind ≠ .block ∧ top.passing = []
  inBounds : f.scopes.InBounds

/-- The innermost scope imports a name. -/
def Findings.Imports (f : Findings) (name : String) : Prop :=
  ∃ top i, f.scopes.chain[0]? = some top ∧ top.names.lookup name = some i ∧
    .imported ∈ f.scopes.claims i

variable {f g : Findings} {name : String}

theorem Findings.Precedes.exists_top (h : f.Precedes g) {top : Scope}
    (htop : f.scopes.chain[0]? = some top) :
    ∃ top', g.scopes.chain[0]? = some top' ∧ top.Precedes top' := by
  have hrel := h.scopes.chain 0
  rw [htop] at hrel
  cases hg : g.scopes.chain[0]? with
  | none =>
    rw [hg] at hrel
    cases hrel
  | some top' =>
    rw [hg] at hrel
    cases hrel with
    | some htop' => exact ⟨top', rfl, htop'⟩

theorem Findings.AtTop.mono (hf : f.AtTop) (h : f.Precedes g) : g.AtTop := by
  obtain ⟨top, htop, hkind, hpassing⟩ := hf.scope
  obtain ⟨top', htop', hprecedes⟩ := h.exists_top htop
  refine ⟨⟨top', htop', ?_, ?_⟩, h.scopes.inBounds hf.inBounds⟩
  · rw [hprecedes.kind]
    exact hkind
  · rw [hprecedes.passing hkind]
    exact hpassing

theorem Findings.Imports.mono (hf : f.Imports name) (h : f.Precedes g) : g.Imports name := by
  obtain ⟨top, i, htop, hi, hclaim⟩ := hf
  obtain ⟨top', htop', hprecedes⟩ := h.exists_top htop
  exact ⟨top', i, htop', hprecedes.names name i hi, h.scopes.claims i _ hclaim⟩

/-- A declaration that clashes is reported. -/
theorem settle_of_errors {d : Scopes.Declared × Scopes} (h : ((settle d).run f).2.errors = []) :
    d.1.clashes = false ∧ ((settle d).run f).2 = { f with scopes := d.2 } := by
  obtain ⟨⟨binding, clashes⟩, s⟩ := d
  cases clashes with
  | true => cases h
  | false => exact ⟨rfl, rfl⟩

/-- An import clashes with an earlier one of the same name. -/
theorem imports_declare (hf : f.AtTop) (h : ((declare .imported name).run f).2.errors = []) :
    ¬ f.Imports name ∧ ((declare .imported name).run f).2.Imports name := by
  obtain ⟨⟨top, htop, -, hpassing⟩, hinBounds⟩ := hf
  obtain ⟨hclashes, hafter⟩ := settle_of_errors h
  have hafter : ((declare .imported name).run f).2 =
      { f with scopes := (f.scopes.declareAt 0 .imported name).2 } := hafter
  have hclashes : (f.scopes.declareAt 0 .imported name).1.clashes = false := hclashes
  have htop' : ∀ {top' : Scope}, f.scopes.chain[0]? = some top' → top' = top :=
    fun h' => Option.some.inj (h'.symm.trans htop)
  rw [hafter]
  cases hlookup : top.names.lookup name with
  | some i =>
    have hfind : top.find? name = some i := by
      rw [Scope.find?, hlookup]
      rfl
    have hbound : i < f.scopes.bindings.size :=
      (hinBounds top (List.mem_of_getElem? htop)).lt_of_find? hfind
    simp only [Scopes.declareAt, htop, Option.bind_some, hfind] at hclashes ⊢
    -- what has the name may be claimed again, but not by a second import
    have hnot : .imported ∉ f.scopes.claims i := by
      intro hclaim
      have hexcludes := List.any_eq_false.mp hclashes .imported hclaim
      exact hexcludes rfl
    refine ⟨?_, top, i, htop, hlookup, ?_⟩
    · rintro ⟨top', j, hchain, hj, hclaim⟩
      rw [htop' hchain, hlookup] at hj
      cases hj
      exact hnot hclaim
    · rw [Scopes.claims, Array.getElem?_modify, if_pos rfl, Array.getElem?_eq_getElem hbound]
      exact List.mem_cons_self ..
  | none =>
    -- nothing has this name, so it gets a binding of its own
    have hfind : top.find? name = none :=
      Scope.find?_eq_none_iff.mpr ⟨hlookup, by rw [hpassing]; rfl⟩
    simp only [Scopes.declareAt, htop, Option.bind_some, hfind]
    refine ⟨?_, top.add name f.scopes.bindings.size, f.scopes.bindings.size, ?_, ?_, ?_⟩
    · rintro ⟨top', j, hchain, hj, -⟩
      rw [htop' hchain, hlookup] at hj
      cases hj
    · rw [List.getElem?_modify, htop]
      rfl
    · rw [Scope.add, List.lookup_cons, beq_self_eq_true]
    · rw [Scopes.claims, Array.getElem?_push_size]
      exact List.mem_singleton_self _

/-! ## Checks -/

/-- A check that imports names. Unless it finds something wrong, they have not been imported
before. -/
structure Adds {α : Type} (m : M α) (names : List String) : Prop where
  keeps : Keeps m
  imports : ∀ f : Findings, f.AtTop → (m.run f).2.errors = [] →
    names.Nodup ∧ ∀ x ∈ names, ¬ f.Imports x ∧ (m.run f).2.Imports x

variable {α β : Type}

theorem Adds.nothing {m : M α} (h : Keeps m) : Adds m [] :=
  ⟨h, fun _ _ _ => ⟨.nil, nofun⟩⟩

theorem adds_declare (name : String) : Adds (declare .imported name) [name] := by
  refine ⟨keeps_declare _ _, fun f hf h => ⟨by simp, fun x hx => ?_⟩⟩
  rw [List.mem_singleton.mp hx]
  exact imports_declare hf h

theorem Adds.bind {m : M α} {k : α → M β} {xs ys : List String} (hm : Adds m xs)
    (hk : ∀ a, Adds (k a) ys) : Adds (m >>= k) (xs ++ ys) := by
  refine ⟨.bind hm.keeps fun a => (hk a).keeps, fun f hf h => ?_⟩
  -- what happens in between
  have hfirst := hm.keeps f
  have hsecond := (hk (m.run f).1).keeps (m.run f).2
  obtain ⟨hxs, hm⟩ := hm.imports f hf (hsecond.errors h)
  obtain ⟨hys, hk⟩ := (hk (m.run f).1).imports _ (hf.mono hfirst) h
  refine ⟨List.nodup_append.mpr ⟨hxs, hys, fun x hx y hy hxy => ?_⟩, fun x hx => ?_⟩
  · exact (hk y hy).1 (hxy ▸ (hm x hx).2)
  · rcases List.mem_append.mp hx with hx | hx
    · exact ⟨(hm x hx).1, (hm x hx).2.mono hsecond⟩
    · exact ⟨fun hbefore => (hk x hx).1 (hbefore.mono hfirst), (hk x hx).2⟩

theorem Adds.forM {xs : List α} {k : α → M Unit} {names : α → List String}
    (h : ∀ x ∈ xs, Adds (k x) (names x)) : Adds (xs.forM k) (xs.flatMap names) := by
  induction xs with
  | nil => exact .nothing (.pure ())
  | cons x xs ih =>
    obtain ⟨hx, hxs⟩ := List.forall_mem_cons.mp h
    exact .bind hx fun _ => ih hxs

theorem adds_checkImportSpecifier (x : ImportSpecifier) :
    Adds (checkImportSpecifier x) [x.binding] := by
  rw [← List.append_nil [x.binding]]
  refine .bind (adds_declare _) fun _ => .nothing ?_
  cases x with
  | named imported _ => exact .bind (keeps_checkModuleName _) fun _ => keeps_checkBinding _
  | whole _ => exact keeps_checkBinding _
  | default _ => exact keeps_checkBinding _

theorem adds_checkImport (d : ImportDeclaration) : Adds (checkImport d) d.bindings := by
  have hspecifiers : Adds ((d.specifiers.getD []).forM checkImportSpecifier) d.bindings := by
    rw [ImportDeclaration.bindings, List.map_eq_flatMap]
    exact .forM fun x _ => adds_checkImportSpecifier x
  rw [← List.append_nil d.bindings]
  exact .bind hspecifiers fun _ => .nothing (keeps_checkSource d.source)

theorem adds_checkNode (n : Node) (s : Setting) : Adds (checkNode n s) n.importedNames := by
  obtain ⟨span, form⟩ := n
  have hnothing : Adds (checkNode (.mk span form) s) [] := .nothing (keeps_checkNode _ s)
  cases form with
  | importItem d =>
    rw [← List.append_nil (Node.importedNames _), checkNode, Node.para_mk]
    exact .bind (adds_checkImport d) fun _ => .nothing (keeps_checkItem s _)
  | _ => exact hnothing

theorem atTop_start : Findings.AtTop {} :=
  ⟨⟨{ kind := .root }, rfl, nofun, rfl⟩, List.forall_mem_singleton.mpr nofun⟩

end EarlyErrors

open EarlyErrors in
/-- A module that keeps all rules imports no name twice. -/
theorem Program.nodup_importedNames {p : Program} (h : p.earlyErrors = []) :
    (p.statements.flatMap Node.importedNames).Nodup := by
  have hall : Adds (do
      p.directives.forM fun d => checkFlaw d.flaw
      p.statements.forM fun n => checkNode n { declares := true, isItem := true } : M Unit)
      ([] ++ p.statements.flatMap Node.importedNames) :=
    .bind (.nothing (.forM fun _ _ => keeps_checkFlaw _)) fun _ =>
      .forM fun n _ => adds_checkNode n _
  have herrors := (List.append_eq_nil_iff.mp (List.append_eq_nil_iff.mp h).1).1
  exact (hall.imports {} atTop_start (List.reverse_eq_nil_iff.mp herrors)).1

end Awaitless.Script
