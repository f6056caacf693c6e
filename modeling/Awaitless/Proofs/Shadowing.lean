import Awaitless.Proofs.Layout

/-!
# Exported names inside of the closure

An exported name is declared at the top of the transformed module. Code of the closure means that
declaration unless the closure declares the name again. The closure has no declaration of it left at
its own level, since those have become assignments; but a `var` inside of a block or a loop belongs
to the whole closure, and statements with such a `var` are not taken apart. So an assignment to the
name, or any use of it, misses the exported binding in just these cases.

The scopes are compared by what they declare. In the module a nested `var` and the export are one
binding; in the output they are two, the inner of which hides the outer one.

* `ScopeNames.resolve?` — the scope that a name means.
* `Node.nestedVarNames` — the names that the statements inside of a statement declare by `var`.
* `Hoisted`, `redeclares_iff` — the closure declares an exported name again exactly if a statement
  of the module has a `var` with that name inside of it.
-/

namespace Awaitless

namespace Script

/-- Of some scopes, from the inside out, the first that declares a name. -/
def ScopeNames.resolve? (scopes : List ScopeNames) (x : String) : Option Nat :=
  scopes.findIdx? fun s => x ∈ s.all

/-- A row declares what one of its members declares. -/
theorem ScopeNames.mem_all_collect {α : Type} {f : α → ScopeNames} {xs : List α} {x : String} :
    x ∈ (collect f xs).all ↔ ∃ a ∈ xs, x ∈ (f a).all := by
  simp only [all, collect, List.mem_append, List.mem_flatMap]
  constructor
  · rintro (⟨a, ha, hx⟩ | ⟨a, ha, hx⟩)
    · exact ⟨a, ha, .inl hx⟩
    · exact ⟨a, ha, .inr hx⟩
  · rintro ⟨a, ha, hx | hx⟩
    · exact .inl ⟨a, ha, hx⟩
    · exact .inr ⟨a, ha, hx⟩

/-- A name that the outer one of two scopes declares means it unless the inner one declares it. -/
theorem ScopeNames.resolve?_eq_one_iff {inner outer : ScopeNames} {x : String}
    (h : x ∈ outer.all) : resolve? [inner, outer] x = some 1 ↔ x ∉ inner.all := by
  by_cases hx : x ∈ inner.all
  · simp [resolve?, List.findIdx?_cons, hx]
  · simp [resolve?, List.findIdx?_cons, hx, h]

namespace Node

variable {n s : Node} {x : String}

/-- The names that statements inside of a statement declare by `var`, at any depth outside of
functions: in blocks, the heads and bodies of loops, branches, handlers, cases or behind labels. -/
def nestedVarNames (n : Node) : List String :=
  n.form.nestedStatements.flatMap varNames

/-- A function has the names that a statement declares itself, and those that statements in it
declare by `var`. -/
theorem mem_bodyNames_iff (n : Node) :
    x ∈ n.bodyNames.all ↔ x ∈ n.directNames ∨ x ∈ n.nestedVarNames := by
  have hvar := n.varNames_eq
  obtain ⟨span, form⟩ := n
  cases form with
  | bindings kind ds =>
    cases kind <;>
      simp [bodyNames, directNames, nestedVarNames, Form.nestedStatements, ScopeNames.all]
  | function traits name parameters body =>
    simp [bodyNames, directNames, nestedVarNames, Form.nestedStatements, ScopeNames.all,
      Transform.Items.ownName?, Transform.Items.declaredName?, ownName]
  | classLike traits decorators name heritage members =>
    simp [bodyNames, directNames, nestedVarNames, Form.nestedStatements, ScopeNames.all,
      Transform.Items.ownName?, Transform.Items.declaredName?, ownName]
  | _ =>
    simp only [form_mk] at hvar
    simp [bodyNames, directNames, nestedVarNames, ScopeNames.all, Transform.Items.ownName?, hvar]

/-- Declarations of variables, functions and classes have no statements inside of them. -/
theorem nestedVarNames_of_isExported (h : n.IsExported) : n.nestedVarNames = [] := by
  cases h with
  | bindings hform _ | function hform _ | classLike hform _ =>
    rw [nestedVarNames, hform]
    rfl

/-- Functions and classes have nothing inside that declares for the scope around them. -/
theorem nestedVarNames_of_ownName? {name : String} (h : Transform.Items.ownName? n = some name) :
    n.nestedVarNames = [] := by
  unfold Transform.Items.ownName? at h
  split at h
  · rename_i hform
    rw [nestedVarNames, hform]
    rfl
  · rename_i hform
    rw [nestedVarNames, hform]
    rfl
  · cases h

/-- Only what has been a statement of the module before has a `var` inside of it. -/
theorem Leaves.of_mem_nestedVarNames (h : n.Leaves s) (hn : n.IsItem) (hx : x ∈ s.nestedVarNames) :
    n.isStatement = true ∧ n = s := by
  cases h with
  | statement hstatement => exact ⟨hstatement, rfl⟩
  | exported d hform =>
    rw [nestedVarNames_of_isExported (hn.exported s hform)] at hx
    cases hx
  | default value name _ hname =>
    rw [nestedVarNames_of_ownName? hname] at hx
    cases hx
  | named value name _ => cases hx

end Node

/-- Some names are declared by a statement. -/
theorem Make.exists_declare? {names : List String} (h : names ≠ []) :
    ∃ s, Make.declare? names = some s := by
  rw [Make.declare?, if_neg (by rwa [List.isEmpty_iff])]
  exact ⟨_, rfl⟩

/-- A statement of the module has a `var` with the name inside of it. -/
def Program.NestsVar (p : Program) (x : String) : Prop :=
  ∃ n ∈ p.statements, n.isStatement = true ∧ x ∈ n.nestedVarNames

end Script

open Script

namespace Transform

variable {moduleName : String} {x : String}

/-! ## Continuations -/

/-- A function or class keeps its own name. -/
theorem ownName?_continueImports (bundle : Bundle) (importer promise : String) (n : Node) :
    Items.ownName? (continueImports bundle importer promise n) = Items.ownName? n := by
  have hname : ∀ name : Option Node,
      Items.declaredName? (name.map (continueImports bundle importer promise)) =
        Items.declaredName? name := by
    intro name
    cases name with
    | none => rfl
    | some name => exact name?_continueImports bundle importer promise name
  unfold Items.ownName?
  rcases form_continueImports bundle importer promise n with
    hform | ⟨⟨phase, source, options, hdynamic⟩, callee, arguments, hform⟩
  · rw [hform]
    cases n.form with
    | function traits name parameters body => exact hname name
    | classLike traits decorators name heritage members => exact hname name
    | _ => rfl
  · rw [hform, hdynamic]

/-- A declaration keeps its names. -/
theorem directNames_continueImports (bundle : Bundle) (importer promise : String) (n : Node) :
    (continueImports bundle importer promise n).directNames = n.directNames := by
  have hown := ownName?_continueImports bundle importer promise n
  unfold Node.directNames
  rw [hown]
  rcases form_continueImports bundle importer promise n with
    hform | ⟨⟨phase, source, options, hdynamic⟩, callee, arguments, hform⟩
  · rw [hform]
    cases n.form with
    | bindings kind ds => exact flatMap_declaratorNames_continueImports bundle importer promise ds
    | _ => rfl
  · rw [hform, hdynamic]

/-! ## The closure -/

/-- Every statement of a module is one of its pieces. -/
theorem Items.mem_statements {source : String} {statements : List Node} {items : Items}
    (h : ofStatements moduleName source statements = .ok items) :
    ∀ n ∈ statements, n.isStatement = true → n ∈ items.statements := by
  refine foldlM_eq_ok_induction (fun seen items =>
    ∀ n ∈ seen, n.isStatement = true → n ∈ items.statements) ?_ [] nofun h
  intro seen items s items' ih hadd n hn hstatement
  obtain ⟨new, hnew, -⟩ := (adds_add hadd).statements
  rcases List.mem_append.mp hn with hn | hn
  · rw [hnew]
    exact List.mem_append_left _ (ih n hn hstatement)
  · -- the last item itself: all but statements are taken apart
    obtain rfl := List.mem_singleton.mp hn
    cases becomes_of_add hadd with
    | statement _ => exact List.mem_append_right _ (List.mem_singleton_self n)
    | importItem _ hform | exportNames _ hform | exportDeclaration _ _ hform _
    | namedDefault _ _ hform _ | unnamedDefault _ hform _ =>
      rw [Node.isStatement, hform] at hstatement
      cases hstatement

/-- A piece has a `var` inside of it exactly if a statement of the module has it: nothing else that
is taken apart has one, and a statement stays as it is. -/
theorem Items.nestsVar_iff {source : String} {p : Program} {items : Items}
    (hisItem : ∀ n ∈ p.statements, n.IsItem)
    (h : ofStatements moduleName source p.statements = .ok items) :
    (∃ s ∈ items.statements, x ∈ s.nestedVarNames) ↔ p.NestsVar x := by
  constructor
  · rintro ⟨s, hs, hxs⟩
    obtain ⟨n, hn, hleaves⟩ := exists_leaves h s hs
    obtain ⟨hstatement, rfl⟩ := hleaves.of_mem_nestedVarNames (hisItem n hn) hxs
    exact ⟨n, hn, hstatement, hxs⟩
  · rintro ⟨n, hn, hstatement, hxn⟩
    exact ⟨n, mem_statements h n hn hstatement, hxn⟩

namespace Body

variable {exported : List String} {s n : Node} {pieces : List Piece}

/-- Assignments declare nothing. -/
theorem bodyNames_of_assigns {ds : List Node} {assignments : List Piece}
    (h : List.Forall₂ Assigns ds assignments) :
    ∀ n ∈ assignments.flatMap Piece.nodes, n.bodyNames = {} := by
  induction h with
  | nil => exact nofun
  | cons hd _ ih =>
    obtain ⟨pattern, target, value, -, -, -⟩ := hd
    exact List.forall_mem_cons.mpr ⟨bodyNames_assign target value, ih⟩

/-- What a statement turns into declares no exported name itself, and has one inside of it exactly
if the statement has. -/
theorem TurnsInto.declares_exported (h : TurnsInto exported s pieces) (hx : x ∈ exported) :
    (∀ n ∈ pieces.flatMap Piece.nodes, x ∉ n.directNames) ∧
      ((∃ n ∈ pieces.flatMap Piece.nodes, x ∈ n.bodyNames.all) ↔ x ∈ s.nestedVarNames) := by
  -- assignments and the `let` of the other names do not declare the name at all
  have hnone : (∀ n ∈ pieces.flatMap Piece.nodes, x ∉ n.bodyNames.all) → s.nestedVarNames = [] →
      (∀ n ∈ pieces.flatMap Piece.nodes, x ∉ n.directNames) ∧
        ((∃ n ∈ pieces.flatMap Piece.nodes, x ∈ n.bodyNames.all) ↔ x ∈ s.nestedVarNames) := by
    intro hnot hnested
    refine ⟨fun n hn hdirect => hnot n hn ((Node.mem_bodyNames_iff n).mpr (.inl hdirect)), ?_⟩
    rw [hnested]
    exact iff_of_false (fun ⟨n, hn, hx⟩ => hnot n hn hx) List.not_mem_nil
  cases h with
  | kept hkept =>
    have hdirect : x ∉ s.directNames := fun h => hkept x h hx
    show (∀ n ∈ [s], x ∉ n.directNames) ∧ ((∃ n ∈ [s], x ∈ n.bodyNames.all) ↔ _)
    refine ⟨List.forall_mem_singleton.mpr hdirect, ?_⟩
    simp only [List.mem_singleton, exists_eq_left]
    rw [Node.mem_bodyNames_iff, or_iff_right hdirect]
  -- what is left of the declaration are other names
  | split kind ds assignments hform _ hassigns =>
    refine hnone (fun n hn => ?_) (by rw [Node.nestedVarNames, hform]; rfl)
    rcases List.mem_append.mp hn with hn | hn
    · intro hdeclared
      have hscope : x ∈ (bodyScope (Make.declare? _).toList).all :=
        ScopeNames.mem_all_collect.mpr ⟨n, hn, hdeclared⟩
      rw [bodyScope_declare?] at hscope
      have hkept := (List.mem_append.mp hscope).resolve_right List.not_mem_nil
      exact of_decide_eq_true (List.mem_filter.mp hkept).2 hx
    · rw [bodyNames_of_assigns hassigns n hn]
      exact List.not_mem_nil
  | assigned name hname _ =>
    refine hnone (fun n hn => ?_) (Node.nestedVarNames_of_ownName? hname)
    rw [List.mem_singleton.mp hn, bodyNames_assign]
    exact List.not_mem_nil

/-- Statement by statement: declared again is what a statement has inside. -/
theorem declares_exported_of_turnsInto {statements : List Node} {pieces : List (List Piece)}
    (h : List.Forall₂ (TurnsInto exported) statements pieces) (hx : x ∈ exported) :
    (∀ n ∈ pieces.flatten.flatMap Piece.nodes, x ∉ n.directNames) ∧
      ((∃ n ∈ pieces.flatten.flatMap Piece.nodes, x ∈ n.bodyNames.all) ↔
        ∃ s ∈ statements, x ∈ s.nestedVarNames) := by
  induction h with
  | nil => exact ⟨nofun, iff_of_false nofun nofun⟩
  | cons hfirst _ ih =>
    obtain ⟨hdirect, hnested⟩ := hfirst.declares_exported hx
    obtain ⟨hdirects, hnesteds⟩ := ih
    rw [List.flatten_cons, List.flatMap_append]
    refine ⟨List.forall_mem_append.mpr ⟨hdirect, hdirects⟩, ?_⟩
    simp only [List.mem_append, or_and_right, exists_or, List.exists_mem_cons_iff]
    exact or_congr hnested hnesteds

end Body

/-! ## Modules -/

/-- An exported name of a module, in the closure and beside it. -/
structure Hoisted (p q : Program) (body : List Node) (x : String) : Prop where
  /-- No statement of the closure declares the name itself. -/
  direct : ∀ n ∈ body, x ∉ n.directNames
  /-- It is declared by `let` at the top of the module. -/
  hoisted : ∃ names, x ∈ names ∧ ∃ s ∈ Make.declare? names, s ∈ q.statements
  /-- Only a `var` inside of a statement is another declaration in the function of the closure. -/
  redeclared : x ∈ (bodyScope body).all ↔ p.NestsVar x
  /-- Outside of functions in it, the closure means the declaration at the top, or this `var`. -/
  resolved : ScopeNames.resolve? [bodyScope body, moduleScope q.statements] x = some 1 ↔
    ¬ p.NestsVar x

/-- In every module that could be transformed, the closure declares an exported name again, if it is
not imported, exactly if a statement of the module has a `var` with this name inside of it. The
exported names are those of the module. -/
theorem hoisted_of_program {name text : String} {p q : Program} {bundle : Bundle}
    {settings : Settings} (hp : Source.check name text = .ok p)
    (hq : program ⟨name, bundle, settings⟩ text p = .ok q) :
    ∃ items, Items.ofStatements name text p.statements = .ok items ∧ items.Reads text p ∧
      ∃ names body,
        q.CompletesBy settings.promiseName (completion names (Make.arrow true [] body)) ∧
          ∀ x ∈ exportedBindings items.exports, x ∉ items.importBindings → Hoisted p q body x := by
  have hisItem := Program.isItem_of_parse (Source.check_eq_ok hp).1
  obtain ⟨items, body, hitems, hbody, rfl⟩ := program_eq_ok_iff.mp hq
  have hcompletes := completesBy_assemble (p := { p with
    statements := assemble ⟨name, bundle, settings⟩ items body }) rfl
  refine ⟨items, hitems, Items.reads_of_ofStatements hp hitems, _, _, hcompletes,
    fun x hx himport => ?_⟩
  -- the closure by its pieces
  obtain ⟨pieces, hpieces, hturns⟩ := Body.exists_pieces name (exportedBindings items.exports)
    (Items.declarators_of_ofStatements hisItem hitems)
  obtain rfl : body = _ := Except.ok.inj (hbody.symm.trans hpieces)
  obtain ⟨hdirect, hnested⟩ := Body.declares_exported_of_turnsInto hturns hx
  have hredeclared : x ∈ (bodyScope (pieces.flatten.flatMap Body.Piece.nodes)).all ↔
      p.NestsVar x := by
    rw [bodyScope, ScopeNames.mem_all_collect, hnested, Items.nestsVar_iff hisItem hitems]
  have hhoisted : x ∈ hoistedNames items := List.mem_filter.mpr ⟨hx, by simpa using himport⟩
  -- the name is declared at the top, whether or not the closure hides it
  have hmodule : x ∈ (moduleScope (assemble ⟨name, bundle, settings⟩ items
      (pieces.flatten.flatMap Body.Piece.nodes))).all := by
    refine List.mem_append_left _ ((moduleScope_assemble _ items _).1.mem_iff.mpr ?_)
    exact List.mem_append_left _ (List.mem_append_right _ hhoisted)
  have hcontinued := bodyScope_continueImports bundle name settings.promiseName
    (pieces.flatten.flatMap Body.Piece.nodes)
  obtain ⟨declaration, hlet⟩ := Make.exists_declare? (List.ne_nil_of_mem hhoisted)
  refine ⟨?_, ⟨hoistedNames items, hhoisted, declaration, hlet, ?_⟩, ?_, ?_⟩
  · intro n hn
    obtain ⟨m, hm, rfl⟩ := List.mem_map.mp hn
    rw [directNames_continueImports]
    exact hdirect m hm
  · rw [assemble_eq]
    exact List.mem_append_left _ (List.mem_append_right _ (Option.mem_toList.mpr hlet))
  · rw [hcontinued]
    exact hredeclared
  · rw [hcontinued, ← hredeclared]
    exact ScopeNames.resolve?_eq_one_iff hmodule

/-- A module that assigns to an exported name in a loop, beside a `var` that is not exported. -/
def assignedInLoop : String :=
  "export let x = await 1; for (var y of [2, 3]) { x = y; }"

/-- A loop that assigns an exported name without declaring it. -/
theorem hoisted_of_program_assignedInLoop :
    ∃ p q, Source.check "a.js" assignedInLoop = .ok p ∧
      program ⟨"a.js", .empty, {}⟩ assignedInLoop p = .ok q ∧
        ∃ names body, q.CompletesBy "__tla" (completion names (Make.arrow true [] body)) ∧
          Hoisted p q body "x" ∧
            ScopeNames.resolve? [bodyScope body, moduleScope q.statements] "x" = some 1 := by
  have hruns : ((Source.check "a.js" assignedInLoop).toOption.bind fun p =>
      (program ⟨"a.js", .empty, {}⟩ assignedInLoop p).toOption.bind fun q =>
        (Items.ofStatements "a.js" assignedInLoop p.statements).toOption.filter fun items =>
          "x" ∈ exportedBindings items.exports ∧ "x" ∉ items.importBindings ∧
            ∀ n ∈ p.statements, n.isStatement = true → "x" ∉ n.nestedVarNames).isSome = true := by
    decide +kernel
  obtain ⟨items, hruns⟩ := Option.isSome_iff_exists.mp hruns
  obtain ⟨p, hp, hruns⟩ := Option.bind_eq_some_iff.mp hruns
  obtain ⟨q, hq, hruns⟩ := Option.bind_eq_some_iff.mp hruns
  obtain ⟨hitems, hnames⟩ := Option.filter_eq_some_iff.mp hruns
  obtain ⟨hexported, himport, hnested⟩ := of_decide_eq_true hnames
  replace hp := eq_ok_of_toOption hp
  replace hq := eq_ok_of_toOption hq
  obtain ⟨items', hitems', -, names, body, hcompletes, hhoisted⟩ := hoisted_of_program hp hq
  obtain rfl : items' = items := Except.ok.inj (hitems'.symm.trans (eq_ok_of_toOption hitems))
  have hx := hhoisted "x" hexported himport
  refine ⟨p, q, hp, hq, names, body, hcompletes, hx, hx.resolved.mpr ?_⟩
  rintro ⟨n, hn, hstatement, hxn⟩
  exact hnested n hn hstatement hxn

/-- A module that exports a `var` of a block. -/
def varInBlock : String := "{ var x = await 1; } export { x };"

/-- What it turns into. -/
def varInBlockTransformed : String :=
  "let x;\nlet __tla = (async () => \x7b\n\t\x7b\n\t\tvar x = await 1;\n\t\x7d\n\x7d)();\n" ++
    "export \x7b x, __tla \x7d;\n"

/-- The closure declares the exported name again, and its value never gets to the `let` that the
export reads. -/
theorem redeclared_varInBlock :
    ∃ p q items names body, Source.check "a.js" varInBlock = .ok p ∧
      program ⟨"a.js", .empty, {}⟩ varInBlock p = .ok q ∧
        Items.ofStatements "a.js" varInBlock p.statements = .ok items ∧
          q.CompletesBy "__tla" (completion names (Make.arrow true [] body)) ∧
            "x" ∈ exportedBindings items.exports ∧ "x" ∉ items.importBindings ∧
              "x" ∈ (bodyScope body).shared ∧ q.text false = varInBlockTransformed := by
  have hruns : ((Source.check "a.js" varInBlock).toOption.bind fun p =>
      (Items.ofStatements "a.js" varInBlock p.statements).toOption.bind fun items =>
        (Body.ofStatements "a.js" (exportedBindings items.exports) items.statements).toOption.filter
          fun body => "x" ∈ exportedBindings items.exports ∧ "x" ∉ items.importBindings ∧
            "x" ∈ (bodyScope body).shared ∧
              ({ p with statements := assemble ⟨"a.js", .empty, {}⟩ items body } : Program).text
                false = varInBlockTransformed).isSome = true := by
    decide +kernel
  obtain ⟨body, hruns⟩ := Option.isSome_iff_exists.mp hruns
  obtain ⟨p, hp, hruns⟩ := Option.bind_eq_some_iff.mp hruns
  obtain ⟨items, hitems, hruns⟩ := Option.bind_eq_some_iff.mp hruns
  obtain ⟨hbody, hnames⟩ := Option.filter_eq_some_iff.mp hruns
  obtain ⟨hexported, himport, hredeclared, htext⟩ := of_decide_eq_true hnames
  have hq : program ⟨"a.js", .empty, {}⟩ varInBlock p =
      .ok { p with statements := assemble ⟨"a.js", .empty, {}⟩ items body } :=
    program_eq_ok_iff.mpr ⟨items, body, eq_ok_of_toOption hitems, eq_ok_of_toOption hbody, rfl⟩
  have hcompletes := completesBy_assemble (p := { p with
    statements := assemble ⟨"a.js", .empty, {}⟩ items body }) rfl
  refine ⟨p, _, items, _, _, eq_ok_of_toOption hp, hq, eq_ok_of_toOption hitems, hcompletes,
    hexported, himport, ?_, htext⟩
  rw [bodyScope_continueImports]
  exact hredeclared

end Transform

end Awaitless
