import Awaitless.Proofs.Script.Parsing.Statement

/-!
# What the rules for modules give

The transformation takes the items of a module apart by their forms, and some forms would leave it
with nothing to do: an import without a clause, an exported declaration without a name. No text that
can be read has them. The rules are followed one by one to see this. An error that is noted is never
taken back, so a text without errors was read by rules that noted none, and each lemma may assume as
much of the rule that it is about.

Imports take the most work. What follows a phase decides whether the phase is one or the name of an
import, which the rule finds out by looking ahead; so for these rules the state that they start from
matters (`importClause_of_startsClause`), where a postcondition is enough for all others.

* `yields_importItem` — an import declaration has a clause. Where a phase is read, a clause follows
  that takes no other entries than the phase allows.
* `yields_exportItem`, `yields_statement` — every item of a module.
* `Program.isItem_of_parse` — the items of a module that could be read.
-/

namespace Awaitless.Script

namespace Parser

variable {α β : Type} {rules : Rules}

/-! ## Imports -/

/-- The entries behind an optional default. -/
def IsClause (entries : List ImportSpecifier) : Prop :=
  ∃ first rest, entries = first ++ rest ∧ (first = [] ∨ ∃ name, first = [.default name]) ∧
    ((∃ name, rest = [.whole name]) ∨ ∀ x ∈ rest, ∃ imported name, x = .named imported name)

theorem yields_importSpecifier :
    importSpecifier.Yields fun x => ∃ imported name, x = .named imported name := by
  refine .next fun imported => .next fun _ => .ite (fun _ => ?_) fun _ => ?_
  · exact .next fun _ => .next fun name => .pure ⟨imported, name, rfl⟩
  · exact .next fun _ => .next fun name => .pure ⟨imported, name, rfl⟩

theorem yields_importSpecifiers :
    importSpecifiers.Yields fun xs => ∀ x ∈ xs, ∃ imported name, x = .named imported name :=
  .bind (yields_between (yields_delimited yields_importSpecifier)) fun _ h => .pure h

theorem yields_importWhole : importWhole.Yields fun x => ∃ name, x = .whole name :=
  .next fun _ => .next fun _ => .next fun name => .pure ⟨name, rfl⟩

/-- A clause has a default first, if any, and then a namespace or names in braces. -/
theorem yields_importClause : importClause.Yields fun r => IsClause r.1 := by
  refine .next fun found => ?_
  split
  · -- a word is the default, which a comma may follow
    refine .next fun name => .next fun _ => ?_
    have hdefault : [ImportSpecifier.default name] = [] ∨
        ∃ name', [ImportSpecifier.default name] = [.default name'] := .inr ⟨name, rfl⟩
    refine .ite (fun _ => .next fun found => ?_) fun _ => ?_
    · split
      · refine .bind yields_importWhole fun x hx => .pure ⟨[.default name], [x], rfl, hdefault, ?_⟩
        obtain ⟨whole, rfl⟩ := hx
        exact .inl ⟨whole, rfl⟩
      · exact .bind yields_importSpecifiers fun xs hxs =>
          .pure ⟨[.default name], xs, rfl, hdefault, .inr hxs⟩
      · exact yields_unexpected
    · exact .pure ⟨[.default name], [], rfl, hdefault, .inr nofun⟩
  · refine .bind yields_importWhole fun x hx => .pure ⟨[], [x], rfl, .inl rfl, ?_⟩
    obtain ⟨whole, rfl⟩ := hx
    exact .inl ⟨whole, rfl⟩
  · exact .bind yields_importSpecifiers fun xs hxs => .pure ⟨[], xs, rfl, .inl rfl, .inr hxs⟩
  · exact .pure ⟨[], [], rfl, .inl rfl, .inr nofun⟩

/-- Whether an import clause begins with a token. -/
def startsClause : TokenKind → Bool
  | .word _ | .mark .star | .mark .leftBrace => true
  | _ => false

/-- What the rule sees when it looks ahead is what it reads next. -/
theorem startsClause_of_clauseFollows {s : State} (h : (clauseFollows.run s).1 = true) :
    startsClause (advance.run s).2.token.kind = true := by
  simp only [clauseFollows, lookahead, run_bind, run_kind] at h
  split at h
  · rename_i hkind
    rw [hkind, startsClause]
  · rename_i hkind
    rw [hkind, startsClause]
  · rename_i hkind
    rw [hkind, startsClause]
  · rename_i hkind
    rw [hkind, startsClause]
  · cases h

/-- A phase is read only where a clause follows. -/
theorem startsClause_of_importPhase? {s : State} {phase : ImportPhase}
    (h : (importPhase?.run s).1 = some phase) :
    startsClause (importPhase?.run s).2.token.kind = true := by
  simp only [importPhase?, run_bind, run_kind] at h ⊢
  split at h
  · rw [run_bind] at h ⊢
    split at h
    · rename_i hfollows
      rw [if_pos hfollows]
      exact startsClause_of_clauseFollows hfollows
    · cases h
  · cases h

/-- Entries that no phase takes: a default in front, or names in braces. -/
def HasOtherEntries (r : List ImportSpecifier × Bool) : Prop :=
  (∃ name rest, r.1 = .default name :: rest) ∨ r.2 = true

/-- Where a clause follows, it has a default in front, names, or the whole module alone. -/
theorem importClause_of_startsClause {s : State} (htyped : s.typed = false)
    (hstart : startsClause s.token.kind = true) (hclean : (importClause.run s).2.Clean) :
    HasOtherEntries (importClause.run s).1 ∨ ∃ name, (importClause.run s).1.1 = [.whole name] := by
  simp only [importClause, run_bind, run_kind] at hclean ⊢
  split at hclean
  · refine .inl (P.Yields.next (fun name => ?_) s htyped hclean)
    refine .next fun _ => .ite (fun _ => .next fun _ => ?_) fun _ => ?_
    · split
      · exact .next fun _ => .pure (.inl ⟨name, _, rfl⟩)
      · exact .next fun _ => .pure (.inr rfl)
      · exact yields_unexpected
    · exact .pure (.inl ⟨name, _, rfl⟩)
  · have hwhole : (importWhole >>= fun x => pure ([x], false)).Yields
        fun r : List ImportSpecifier × Bool => ∃ name, r.1 = [.whole name] := by
      refine .bind yields_importWhole fun x hx => .pure ?_
      obtain ⟨name, rfl⟩ := hx
      exact ⟨name, rfl⟩
    exact .inr (hwhole s htyped hclean)
  · exact .inl (.inr rfl)
  · -- nothing else starts a clause
    rename_i hword hstar hbrace
    unfold startsClause at hstart
    split at hstart
    · exact absurd ‹_› (hword _)
    · exact absurd ‹_› hstar
    · exact absurd ‹_› hbrace
    · cases hstart

/-- An import of a source has a default and nothing else. -/
theorem yields_sourceClause :
    (phaseClause .source).Yields fun xs => ∃ name, xs = [.default name] := by
  refine .next fun found => ?_
  dsimp only
  split
  · exact .next fun name => .pure ⟨name, rfl⟩
  · exact .bind (yields_note (Q := fun _ => False) _) fun _ h => h.elim
  · contradiction

/-- A deferred import has a namespace and nothing else; all other entries are errors. -/
theorem deferredClause_of_startsClause {s : State} (htyped : s.typed = false)
    (hstart : startsClause s.token.kind = true)
    (hclean : ((phaseClause .deferred).run s).2.Clean) :
    ∃ name, ((phaseClause .deferred).run s).1 = [.whole name] := by
  have hclause := importClause_of_startsClause htyped hstart
  simp only [phaseClause, run_bind (p := kind), run_kind] at hclean ⊢
  refine P.Yields.after (R := fun xs : List ImportSpecifier => ∃ name, xs = [.whole name])
    (Q := fun r => HasOtherEntries r ∨ ∃ name, r.1 = [.whole name])
    htyped hclean hclause fun r h => ?_
  obtain ⟨entries, hasBraces⟩ := r
  dsimp only at h ⊢
  split
  · exact .bind (yields_note (Q := fun _ => False) _) fun _ h => h.elim
  · rename_i hdefault
    refine .ite (fun _ => ?_) fun hbraces => .pure ?_
    · exact .bind (yields_note (Q := fun _ => False) _) fun _ h => h.elim
    · obtain (⟨name, rest, rfl⟩ | hbraces') | hwhole := h
      · exact absurd rfl (hdefault name rest)
      · exact absurd hbraces' hbraces
      · exact hwhole

/-- The entries of an import whose phase has just been read. -/
theorem importEntries_of_startsClause {s : State} {phase : ImportPhase} (htyped : s.typed = false)
    (hstart : startsClause s.token.kind = true)
    (hclean : ((importEntries (some phase)).run s).2.Clean) (source : ModuleSource) :
    ImportDeclaration.HasClause
      { phase := some phase, specifiers := ((importEntries (some phase)).run s).1, source } := by
  simp only [importEntries, run_bind, run_kind] at hclean ⊢
  split at hclean
  · rename_i hkind
    rw [hkind] at hstart
    cases hstart
  · rw [run_bind] at hclean
    have hclause : ((phaseClause phase).run s).2.Clean := (P.precedes _ _).clean hclean
    cases phase with
    | source =>
      obtain ⟨name, hname⟩ := yields_sourceClause s htyped hclause
      exact ⟨name, congrArg some hname⟩
    | deferred =>
      obtain ⟨name, hname⟩ := deferredClause_of_startsClause htyped hstart hclause
      exact ⟨name, congrArg some hname⟩

/-- Without a phase, a clause may have all entries. -/
theorem yields_importEntries (source : ModuleSource) :
    (importEntries none).Yields fun specifiers =>
      ImportDeclaration.HasClause { phase := none, specifiers, source } := by
  refine .next fun found => ?_
  dsimp only
  split
  · exact .pure ⟨[], [], rfl, .inl rfl, .inr nofun⟩
  · refine .bind (.map yields_importClause fun r hr => hr) fun entries hentries => ?_
    exact .next fun _ => .pure hentries

/-- What is imported from where is an item, once its entries are known. -/
theorem yields_importSource (start : Nat) {phase : Option ImportPhase}
    {specifiers : Option (List ImportSpecifier)}
    (h : ∀ source, ImportDeclaration.HasClause { phase, specifiers, source }) :
    (importSource start phase specifiers).Yields Node.IsItem := by
  refine .next fun source => .next fun _ => ?_
  exact (yields_node start _).weaken fun n hn => .of_importItem hn (h source)

theorem yields_importItem (start : Nat) : (importItem start).Yields Node.IsItem := by
  intro s htyped hclean
  rw [importItem, run_bind, run_bind] at hclean ⊢
  have hentries := (P.precedes _ _).clean hclean
  have htyped' : (importPhase?.run s).2.typed = false :=
    (importPhase?.precedes s).typed.trans htyped
  refine yields_importSource start (fun source => ?_) _
    ((P.precedes _ _).typed.trans htyped') hclean
  cases hphase : (importPhase?.run s).1 with
  | none =>
    rw [hphase] at hentries
    exact yields_importEntries source _ htyped' hentries
  | some phase =>
    rw [hphase] at hentries
    have hstarts := startsClause_of_importPhase? hphase
    exact importEntries_of_startsClause htyped' hstarts hentries source

/-! ## Exports -/

/-- Types are read in typed texts only. -/
theorem yields_typeItem? (start : Nat) : (typeItem? rules start).Yields (· = none) := by
  refine .bind yields_get fun s hs => ?_
  rw [hs]
  exact .pure rfl

theorem yields_typeExport? (start : Nat) : (typeExport? start).Yields (· = none) := by
  refine .bind yields_get fun s hs => .next fun _ => ?_
  rw [hs]
  exact .pure rfl

/-- An alias of a name is an error. -/
theorem yields_importAlias? (start : Nat) : (importAlias? start).Yields (· = none) := by
  refine .next fun _ => .ite (fun _ => .next fun _ => ?_) fun _ => .pure rfl
  refine .bind yields_get fun s hs => ?_
  rw [hs]
  exact .bind (yields_note (Q := fun _ => False) _) fun _ h => h.elim

/-- An import that is exported is never read here. -/
theorem yields_exportedImport {Q : Node → Prop} : exportedImport.Yields Q := by
  refine .next fun start => .next fun _ => ?_
  refine .bind (yields_importAlias? start) fun renamed hrenamed => ?_
  rw [hrenamed]
  exact .next fun _ => yields_stop _

theorem yields_abstractClass (start : Nat) (declared : Bool) (ds : List Node) :
    (abstractClass rules start declared ds).Yields IsClass :=
  .next fun _ => yields_classLike start true declared ds

theorem yields_exportedValue (hpattern : (rules .pattern).Yields Node.IsWholePattern) (start : Nat)
    (ms : List Modifier) : (exportedValue rules start ms).Yields Node.IsExported := by
  have hdeclaration : ∀ kind, (variableDeclaration rules kind false).Yields Node.IsExported :=
    fun kind => (yields_variableDeclaration hpattern kind).weaken fun _ h => h.isExported
  refine .next fun found => ?_
  split
  · exact .next fun _ => (yields_classLike start _ false []).weaken fun _ h => h.isExported
  · exact .next fun _ => yields_namedFunction start _ false
  · exact .next fun _ => hdeclaration .var
  · exact .next fun _ => hdeclaration .constant
  · exact .next fun _ => hdeclaration .lexical
  · exact yields_unexpected

/-- What is exported with its declaration has names, unless it is a class without one. -/
theorem yields_exportedDeclaration (hpattern : (rules .pattern).Yields Node.IsWholePattern)
    (before : List Node) : (exportedDeclaration rules before).Yields Node.IsExported := by
  have hclass : ∀ {p : P Node}, p.Yields IsClass → p.Yields Node.IsExported :=
    fun h => h.weaken fun _ h => h.isExported
  refine .next fun start => .next fun _ => .ite (fun _ => ?_) fun _ => .next fun _ => ?_
  · refine hclass (.next fun ds => .next fun _ => .next fun _ => ?_)
    exact .ite (fun _ => yields_abstractClass start false ds)
      fun _ => yields_classLike start false false ds
  · refine .ite (fun _ => hclass (yields_classLike start false false before)) fun _ => ?_
    refine .next fun _ => .bind (yields_typeItem? start) fun item hitem => ?_
    rw [hitem]
    refine .next fun _ => .next fun _ => .ite (fun _ => .next fun _ => ?_) fun _ => ?_
    · refine .bind (yields_usingDeclaration hpattern) fun d hd => .next fun _ => ?_
      exact .pure hd.isExported
    · exact .next fun _ => .next fun ms => yields_exportedValue hpattern start ms

theorem yields_exportAll (start : Nat) : (exportAll start).Yields IsOther := by
  have hend : ∀ exported,
      (do
        expectWord "from"
        let source ← moduleSource
        finishStatement
        node start (.exportAll exported source)).Yields IsOther :=
    fun exported => .next fun _ => .next fun _ => .next fun _ => yields_other start rfl
  refine .next fun _ => .ite (fun _ => ?_) fun _ => ?_
  · exact .next fun exported => hend exported
  · exact .next fun exported => hend exported

theorem yields_exportClause (start : Nat) : (exportClause start).Yields IsOther := by
  have hend : ∀ (specifiers : List ExportSpecifier) (source : Option ModuleSource),
      (do
        if source.isNone then specifiers.forM checkLocal
        finishStatement
        node start (.exportNames specifiers source)).Yields IsOther := by
    refine fun specifiers source => .ite (fun _ => .next fun _ => ?_) fun _ => ?_
    · exact .next fun _ => yields_other start rfl
    · exact .next fun _ => yields_other start rfl
  refine .next fun clause => .next fun _ => .next fun _ => .ite (fun _ => ?_) fun _ => ?_
  · exact .next fun source => hend clause.1 source
  · exact .next fun source => hend clause.1 source

theorem yields_exportItem (hpattern : (rules .pattern).Yields Node.IsWholePattern) (start : Nat)
    (before : List Node) : (exportItem rules start before).Yields Node.IsItem := by
  have hother : ∀ {p : P Node}, p.Yields IsOther → p.Yields Node.IsItem :=
    fun h => h.weaken fun _ h => h.isItem
  -- some exports are read in typed texts only
  have huntyped : ∀ {p : P Node}, (do
      unless (← get).typed do return ← unexpected
      p : P Node).Yields Node.IsItem := by
    refine fun {p} => .bind yields_get fun s hs => ?_
    rw [hs]
    exact yields_unexpected
  refine .bind (yields_typeExport? start) fun item hitem => ?_
  rw [hitem]
  refine .next fun found => ?_
  -- by what follows the word `export`
  split
  · exact .bind (yields_exportedImport (Q := fun _ => False)) fun _ h => h.elim
  · exact hother (.next fun _ => .next fun _ => yields_other start rfl)
  · exact hother (.next fun _ => .next fun _ => yields_exportAll start)
  · exact hother (.next fun _ => yields_exportClause start)
  · exact huntyped
  · exact huntyped
  · refine .bind (yields_exportedDeclaration hpattern before) fun d hd => ?_
    exact (yields_node start _).weaken fun n hn => .of_exportDeclaration hn hd

theorem yields_decoratedItem (hpattern : (rules .pattern).Yields Node.IsWholePattern) (start : Nat)
    (single : Bool) : (decoratedItem rules start single).Yields Node.IsItem := by
  refine .next fun ds => .next fun _ => .ite (fun _ => ?_) fun _ => ?_
  · exact .next fun start => .next fun _ => yields_exportItem hpattern start ds
  · refine .next fun ms => .next fun _ => .ite (fun _ => .next fun _ => ?_) fun _ => ?_
    · refine .bind (yields_classLike start _ _ ds) fun c hc => ?_
      exact .ite (fun _ => .next fun _ => .pure hc.isOther.isItem) fun _ => .pure hc.isOther.isItem
    · exact yields_unexpected

/-! ## Marks -/

theorem isConstrained_markPure (n : Node) :
    (markPure n).form.isConstrained = n.form.isConstrained := by
  unfold markPure
  split
  · rename_i hform
    rw [hform]
    rfl
  · rename_i hform
    rw [hform]
    rfl
  · rfl

/-- A value that is marked is still a value. -/
theorem isDeclarator_markConstants {n : Node} (h : ∀ d ∈ n.declarators, d.IsDeclarator) :
    ∀ d ∈ (markConstants n).declarators, d.IsDeclarator := by
  unfold markConstants
  split
  · rename_i first others hform
    rw [Node.declarators, hform] at h
    split
    · rename_i target value hfirst
      obtain ⟨⟨target', _, hfirst', htarget, -⟩, hothers⟩ := List.forall_mem_cons.mp h
      obtain ⟨rfl, -⟩ := Form.declarator.inj (hfirst'.symm.trans hfirst)
      have hvalue : some (markPure value) = none → ∃ name, target'.form = .identifier name :=
        fun h => absurd h (Option.some_ne_none _)
      exact List.forall_mem_cons.mpr ⟨⟨_, _, rfl, htarget, hvalue⟩, hothers⟩
    · rw [Node.declarators, hform]
      exact h
  · exact h

/-- Only declarations of constants change, and they stay declarations. -/
theorem markConstants_eq_or (n : Node) :
    markConstants n = n ∨ ∃ ds, (markConstants n).form = .bindings .constant ds := by
  unfold markConstants
  split
  · split
    · exact .inr ⟨_, rfl⟩
    · exact .inl rfl
  · exact .inl rfl

/-- Marks are in the values of declarators, and nowhere else in what is asked of items. -/
theorem isItem_markConstants {n : Node} (h : n.IsItem) : (markConstants n).IsItem := by
  have hds := isDeclarator_markConstants h.declarators
  rcases markConstants_eq_or n with hsame | ⟨ds, hform⟩
  · rw [hsame]
    exact h
  · rw [Node.declarators, hform] at hds
    exact .of_bindings hform hds

theorem isExported_markConstants {n : Node} (h : n.IsExported) : (markConstants n).IsExported := by
  have hds := isDeclarator_markConstants h.declarators
  rcases markConstants_eq_or n with hsame | ⟨ds, hform⟩
  · rw [hsame]
    exact h
  · rw [Node.declarators, hform] at hds
    exact .bindings hform hds

/-- A marked function keeps its name. -/
theorem isExported_markPure {n : Node} (h : n.IsExported) : (markPure n).IsExported := by
  cases h with
  | bindings hform hds =>
    rw [markPure, hform]
    exact .bindings hform hds
  | function hform hname =>
    rw [markPure, hform]
    exact .function rfl hname
  | classLike hform hname =>
    rw [markPure, hform]
    exact .classLike hform hname

/-- What is marked at the end of a statement keeps its form. -/
theorem isItem_markStatement {n : Node} (h : n.IsItem) : (markStatement n).IsItem := by
  unfold markStatement
  split
  · rename_i hform
    refine .of_form ?_
    rw [isConstrained_markPure, hform]
    rfl
  · exact .of_form rfl
  · rename_i d hform
    have hd := h.exported d hform
    split
    · exact .of_exportDeclaration rfl (isExported_markPure hd)
    · exact .of_exportDeclaration rfl (isExported_markConstants hd)
  · exact isItem_markConstants h

/-! ## Modules -/

theorem yields_statement (hpattern : (rules .pattern).Yields Node.IsWholePattern) (single : Bool) :
    (statement rules single).Yields Node.IsItem := by
  -- marking constants and pure calls changes no constraint
  have hmark : ∀ {p : P Node} {marked : Bool}, p.Yields Node.IsItem →
      (p >>= fun n => pure (if marked then markStatement n else n)).Yields Node.IsItem := by
    refine fun {p marked} h => .bind h fun n hn => .pure ?_
    cases marked with
    | true => exact isItem_markStatement hn
    | false => exact hn
  refine .next fun start => .next fun _ => .next fun found => ?_
  dsimp only
  split
  · refine .next fun isExpression => .ite (fun _ => ?_) fun _ => .next fun _ => ?_
    · exact hmark (yields_expressionStatement.weaken fun _ h => h.isItem)
    · refine .bind (yields_importAlias? start) fun renamed hrenamed => ?_
      rw [hrenamed]
      exact hmark (yields_importItem start)
  · exact .next fun _ => hmark (yields_exportItem hpattern start [])
  · exact hmark (yields_decoratedItem hpattern start single)
  · refine .bind (yields_typeItem? start) fun item hitem => ?_
    rw [hitem]
    exact hmark (yields_plainStatement hpattern single)

/-- At every depth, by induction: at depth zero there is an error. -/
theorem yields_run (depth : Nat) : (run depth (.statement false)).Yields Node.IsItem := by
  cases depth with
  | zero => exact yields_unexpected
  | succ depth => exact yields_statement (yields_runPattern depth) false

/-- All statements of a list, one after the other. -/
theorem yields_statementList {rules : Rules} {stops : TokenKind → Bool} {Q : Node → Prop}
    (h : (rules (.statement false)).Yields Q) :
    (statementList rules stops).Yields fun r => ∀ s ∈ r.2, Q s := by
  refine .next fun steps => .bind (Q := fun r => ∀ s ∈ r.2.1, Q s) ?_ fun r hr =>
    .pure fun s hs => hr s (List.mem_reverse.mp hs)
  refine yields_iterate (I := fun r => ∀ s ∈ r.2.1, Q s) (fun r hr => ?_) steps nofun
  refine .next fun first => .next fun _ => .ite (fun _ => .pure hr) fun _ => .bind h fun s hs => ?_
  split
  · exact .pure hr
  · exact .pure (List.forall_mem_cons.mpr ⟨hs, hr⟩)

/-- A state is clean if it has no errors of either sort and no failure. -/
theorem State.Clean.of_errors {s : State} (hlexical : s.lexicalErrors = [])
    (hgrammar : s.grammarErrors = []) : s.Clean := by
  unfold State.grammarErrors at hgrammar
  split at hgrammar
  · rename_i hfailure
    refine ⟨hlexical, ?_, hfailure⟩
    simpa using hgrammar
  · rw [hlexical] at hgrammar
    simp at hgrammar

/-- A module with which nothing is wrong has been read in a clean state. -/
theorem State.clean_of_diagnostics {s : State} {statements : List Node} (htyped : s.typed = false)
    (h : s.diagnostics statements = []) : s.Clean := by
  have hfound : s.found = [] := by
    rw [State.diagnostics, htyped, if_neg Bool.false_ne_true] at h
    split at h
    · cases h
    · exact (List.append_eq_nil_iff.mp h).1
  obtain ⟨hfound, -⟩ := List.append_eq_nil_iff.mp hfound
  obtain ⟨hlexical, hgrammar⟩ := List.append_eq_nil_iff.mp hfound
  exact .of_errors (by simpa using hlexical) hgrammar

end Parser

open Awaitless.Script.Parser in
/-- The items of a module that could be read. -/
theorem Program.isItem_of_parse {text : String} {p : Program}
    (h : Program.parse text false = .ok p) : ∀ s ∈ p.statements, s.IsItem := by
  have htyped : (initialState text false).2.typed = false := rfl
  unfold Program.parse at h
  dsimp only at h
  split at h
  · rename_i hdiagnostics
    cases h
    refine yields_statementList (yields_run _) _ htyped (State.clean_of_diagnostics ?_ hdiagnostics)
    exact (P.precedes _ _).typed.trans htyped
  · cases h

end Awaitless.Script
