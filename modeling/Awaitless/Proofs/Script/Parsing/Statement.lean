import Awaitless.Proofs.Script.Parsing.Pattern

/-!
# What the rules for statements give

An item of a module is constrained in a few ways only: declarations of variables have patterns with
values, declared functions have names, imports have clauses. Most statements are none of these, so
the rules that give them are passed over as a whole: whatever happens on the way, the node that is
made in the end has a form of which nothing is asked (`IsOther`). What remains are declarations.

A rule may note an error and go on, as if nothing had happened. So the lemmas are about runs in
which nothing was noted (`P.Yields`), and where a rule is broken there is nothing to show.

* `yields_declarator` — a pattern without a value is an error, except in the head of a loop.
* `yields_variableDeclaration`, `yields_usingDeclaration` — declarations of variables.
* `yields_namedFunction`, `yields_classLike` — a declaration of a function has a name, and the name
  of a class is one if there is any.
* `yields_plainStatement` — every statement is an item, as the grammar has it.
-/

namespace Awaitless.Script.Parser

variable {α : Type} {rules : Rules}

/-! ## Declarations of variables -/

/-- A pattern or a constant without a value is noted as an error, so without errors there is a
value. -/
theorem yields_checkInitializer (kind : DeclarationKind) {d target : Node} {value : Option Node}
    (hform : d.form = .declarator target value) (htarget : target.IsWholePattern) :
    (checkInitializer kind d).Yields fun _ => d.IsDeclarator := by
  unfold checkInitializer
  rw [hform]
  cases value with
  | some value => exact .pure ⟨target, some value, hform, htarget, nofun⟩
  | none =>
    dsimp only
    split
    · rename_i name hname
      have hdeclarator : d.IsDeclarator := ⟨target, none, hform, htarget, fun _ => ⟨name, hname⟩⟩
      exact .ite (fun _ => yields_note _) fun _ => .pure hdeclarator
    · exact yields_note _

/-- A declarator has a pattern without a default of its own. -/
theorem yields_declarator (hpattern : (rules .pattern).Yields Node.IsWholePattern)
    (kind : DeclarationKind) : (declarator rules kind false).Yields Node.IsDeclarator := by
  have hrest : ∀ start target value, target.IsWholePattern →
      (do
        let d ← node start (.declarator target value)
        checkInitializer kind d
        pure d).Yields Node.IsDeclarator := by
    intro start target value htarget
    refine .bind (yields_node start _) fun d hd => ?_
    exact .bind (yields_checkInitializer kind hd htarget) fun _ h => .pure h
  refine .next fun start => .bind hpattern fun target htarget => .next fun _ => .next fun _ => ?_
  refine .ite (fun _ => ?_) fun _ => ?_
  · exact .next fun value => hrest start target value htarget
  · exact .next fun value => hrest start target value htarget

/-- The items of a list of declarators, each with a property. -/
theorem yields_declarators {item : P Node} {Q : Node → Prop} (h : item.Yields Q) :
    (declarators item).Yields fun ds => ∀ d ∈ ds, Q d := by
  refine .bind h fun first hfirst => .next fun steps => ?_
  refine .bind (Q := fun reversed => ∀ d ∈ reversed, Q d) ?_ fun reversed hreversed =>
    .pure fun d hd => hreversed d (List.mem_reverse.mp hd)
  refine yields_iterate (I := fun taken => ∀ d ∈ taken, Q d) (fun taken htaken => ?_) steps
    (List.forall_mem_singleton.mpr hfirst)
  refine .next fun found => .ite (fun _ => ?_) fun _ => .pure htaken
  exact .bind h fun d hd => .pure (List.forall_mem_cons.mpr ⟨hd, htaken⟩)

/-- A declaration of variables. -/
def IsDeclaration (n : Node) : Prop :=
  ∃ kind ds, n.form = .bindings kind ds ∧ ∀ d ∈ ds, d.IsDeclarator

/-- A declaration of variables is an item. -/
theorem IsDeclaration.isItem {n : Node} (h : IsDeclaration n) : n.IsItem := by
  obtain ⟨kind, ds, hform, hds⟩ := h
  exact .of_bindings hform hds

theorem IsDeclaration.isExported {n : Node} (h : IsDeclaration n) : n.IsExported := by
  obtain ⟨kind, ds, hform, hds⟩ := h
  exact .bindings hform hds

/-- All declarators of a declaration, one by one. -/
theorem yields_variableDeclaration (hpattern : (rules .pattern).Yields Node.IsWholePattern)
    (kind : DeclarationKind) : (variableDeclaration rules kind false).Yields IsDeclaration := by
  refine .next fun start => .next fun _ => ?_
  refine .bind (yields_declarators (yields_declarator hpattern kind)) fun ds hds => ?_
  refine .next fun _ => ?_
  exact (yields_node start _).weaken fun n hn => ⟨kind, ds, hn, hds⟩

/-- A `using` declares names with values only. -/
theorem yields_usingDeclaration (hpattern : (rules .pattern).Yields Node.IsWholePattern) :
    (usingDeclaration rules false).Yields IsDeclaration := by
  refine .next fun start => .next fun awaits => .next fun _ => ?_
  refine .bind (yields_declarators (Q := Node.IsDeclarator) ?_) fun ds hds =>
    (yields_node start _).weaken fun n hn => ⟨_, ds, hn, hds⟩
  refine .bind (yields_declarator hpattern _) fun d hd => ?_
  have hcheck : ∀ value : Option Node, (if (value.isNone && !false) = true then
      note .missingUsingInitializer >>= fun _ => pure d else pure d : P Node).Yields
        Node.IsDeclarator :=
    fun value => .ite (fun _ => .next fun _ => .pure hd) fun _ => .pure hd
  dsimp only
  split
  · split
    · exact hcheck _
    · exact .next fun _ => hcheck _
  · exact .pure hd

/-! ## Statements -/

/-- A statement that the grammar does not restrict. -/
def IsOther (n : Node) : Prop := n.form.isConstrained = false

theorem IsOther.isItem {n : Node} (h : IsOther n) : n.IsItem := .of_form h

/-- A node of a form of which nothing is asked. -/
theorem yields_other (start : Nat) {form : Form Node} (h : form.isConstrained = false) :
    (node start form).Yields IsOther :=
  (yields_node start form).weaken fun n hn => by rwa [IsOther, hn]

theorem yields_block : (block rules).Yields IsOther :=
  .next fun start => .next fun _ => yields_other start rfl

theorem yields_ifStatement : (ifStatement rules).Yields IsOther := by
  refine .next fun start => .next fun _ => .next fun _ => .next fun _ => .next fun _ => ?_
  exact .ite (fun _ => .next fun _ => yields_other start rfl)
    fun _ => .next fun _ => yields_other start rfl

/-- A loop through values has the same form whatever its head is. -/
theorem yields_forEach (start : Nat) (head : Node) (awaits : Bool) :
    (forEach rules start head awaits).Yields IsOther := by
  have hloop : ∀ (overKeys : Bool) (object body : Node),
      (node start (if overKeys then .forIn head object body
        else .forOf awaits head object body)).Yields IsOther := by
    intro overKeys object body
    cases overKeys with
    | true => exact yields_other start rfl
    | false => exact yields_other start rfl
  refine .next fun overKeys => .next fun _ => .next fun object => .next fun _ => ?_
  refine .ite (fun _ => ?_) fun _ => ?_
  · exact .next fun _ => .next fun body => hloop overKeys object body
  · exact .next fun body => hloop overKeys object body

/-- The three parts of a head are read from left to right, so what follows each of them is shown
first. -/
theorem yields_forParts (start : Nat) (first : Option Node) (awaits : Bool) :
    (forParts rules start first awaits).Yields IsOther := by
  -- from the end of the head on, nothing depends on how the parts were read
  have hbody : ∀ test step : Option Node,
      (do
        expect .rightParen
        if awaits then note .awaitWithoutOf
        let body ← rules (.statement true)
        node start (.forLoop first test step body)).Yields IsOther := by
    refine fun test step => .next fun _ => .ite (fun _ => .next fun _ => ?_) fun _ => ?_
    · exact .next fun body => yields_other start rfl
    · exact .next fun body => yields_other start rfl
  -- the last part of the head may be missing
  have hstep : ∀ test : Option Node,
      (do
        expect .semicolon
        let step ←
          if ← atMark .rightParen then pure none
          else some <$> within Context.withIn (rules .expression)
        expect .rightParen
        if awaits then note .awaitWithoutOf
        let body ← rules (.statement true)
        node start (.forLoop first test step body)).Yields IsOther := by
    refine fun test => .next fun _ => .next fun _ => .ite (fun _ => ?_) fun _ => ?_
    · exact .next fun step => hbody test step
    · exact .next fun step => hbody test step
  refine .next fun _ => ?_
  dsimp only
  split
  · refine .next fun _ => .next fun _ => .next fun _ => .ite (fun _ => ?_) fun _ => ?_
    · exact .next fun test => hstep test
    · exact .next fun test => hstep test
  · refine .next fun _ => .next fun _ => .ite (fun _ => ?_) fun _ => ?_
    · exact .next fun test => hstep test
    · exact .next fun test => hstep test

theorem yields_afterDeclaration (start : Nat) (awaits : Bool) (d : Node) :
    (afterDeclaration rules start awaits d).Yields IsOther :=
  .next fun _ => .ite (fun _ => yields_forEach start d awaits)
    fun _ => yields_forParts start (some d) awaits

theorem yields_afterExpression (start : Nat) (awaits : Bool) :
    (afterExpression rules start awaits).Yields IsOther := by
  have htarget : ∀ first,
      (assignmentTarget first >>= fun head => forEach rules start head awaits).Yields IsOther :=
    fun first => .next fun head => yields_forEach start head awaits
  refine .next fun s => .next fun first => .next fun _ => .ite (fun _ => htarget first) fun _ => ?_
  refine .next fun _ => .ite (fun _ => ?_) fun _ => yields_forParts start (some first) awaits
  refine .ite (fun _ => .next fun _ => ?_) fun _ => ?_
  · exact .ite (fun _ => .next fun _ => htarget first) fun _ => htarget first
  · exact .ite (fun _ => .next fun _ => htarget first) fun _ => htarget first

theorem yields_afterUsing (start : Nat) (awaits : Bool) :
    (afterUsing rules start awaits).Yields IsOther := by
  refine .next fun d => .next fun _ => .ite (fun _ => ?_) fun _ => ?_
  · split
    · exact .next fun _ => yields_afterDeclaration start awaits d
    · exact .next fun _ => yields_afterDeclaration start awaits d
  · exact yields_afterDeclaration start awaits d

theorem yields_forLoop (start : Nat) (awaits : Bool) :
    (forLoop rules start awaits).Yields IsOther := by
  refine .next fun _ => .next fun found => ?_
  split
  · exact yields_forParts start none awaits
  · exact yields_forParts start none awaits
  · exact .next fun d => yields_afterDeclaration start awaits d
  · exact .next fun d => yields_afterDeclaration start awaits d
  · refine .next fun _ => .ite (fun _ => .next fun d => yields_afterDeclaration start awaits d) ?_
    refine fun _ => .next fun _ => .next fun _ => ?_
    exact .ite (fun _ => yields_afterUsing start awaits)
      fun _ => yields_afterExpression start awaits

theorem yields_forStatement : (forStatement rules).Yields IsOther := by
  refine .next fun start => .next fun _ => .next fun awaits => ?_
  refine .ite (fun _ => .next fun _ => ?_) fun _ => yields_forLoop start awaits
  refine .ite (fun _ => .next fun _ => yields_forLoop start awaits) fun _ => ?_
  exact .next fun _ => .next fun _ => yields_forLoop start awaits

/-- A handler and what cleans up may both be missing, which is an error of its own. -/
theorem yields_tryStatement : (tryStatement rules).Yields IsOther := by
  have hend : ∀ (start : Nat) (body : Node) (handler cleanup : Option Node),
      (do
        if handler.isNone && cleanup.isNone then note .missingHandler
        node start (.guarded body handler cleanup)).Yields IsOther := by
    intro start body handler cleanup
    exact .ite (fun _ => .next fun _ => yields_other start rfl) fun _ => yields_other start rfl
  have hcleanup : ∀ (start : Nat) (body : Node) (handler : Option Node),
      (do
        let cleanup ← if ← eatKeyword .finally then some <$> block rules else pure none
        if handler.isNone && cleanup.isNone then note .missingHandler
        node start (.guarded body handler cleanup)).Yields IsOther := by
    intro start body handler
    refine .next fun _ => .ite (fun _ => .next fun cleanup => ?_) fun _ => .next fun cleanup => ?_
    · exact hend start body handler cleanup
    · exact hend start body handler cleanup
  refine .next fun start => .next fun _ => .next fun body => .next fun _ => .next fun _ => ?_
  refine .ite (fun _ => .next fun _ => ?_) fun _ => .next fun handler => hcleanup start body handler
  refine .ite (fun _ => .next fun _ => ?_) fun _ => .next fun _ => ?_
  · exact .next fun _ => .next fun handler => hcleanup start body handler
  · exact .next fun _ => .next fun handler => hcleanup start body handler

theorem yields_returnStatement : (returnStatement rules).Yields IsOther := by
  have hend : ∀ (start : Nat) (value : Option Node),
      (do
        unless (← get).context.returns do note .returnOutsideFunction
        node start (.returns value)).Yields IsOther := by
    intro start value
    refine .next fun _ => ?_
    exact .ite (fun _ => yields_other start rfl) fun _ => .next fun _ => yields_other start rfl
  refine .next fun start => .next fun _ => .next fun _ => .next fun _ => ?_
  refine .ite (fun _ => .next fun value => hend start value) fun _ => ?_
  refine .ite (fun _ => .next fun value => hend start value) fun _ => .next fun value => ?_
  exact .next fun _ => .next fun value => hend start value

theorem yields_expressionStatement : (expressionStatement rules).Yields IsOther := by
  refine .next fun start => .next fun value => ?_
  dsimp only
  split
  · refine .next fun _ => .ite (fun _ => .next fun label => ?_) fun _ => .next fun label => ?_
    · cases label <;> exact .next fun _ => yields_other start rfl
    · cases label <;> exact .next fun _ => yields_other start rfl
  · refine .next fun label => ?_
    cases label <;> exact .next fun _ => yields_other start rfl

theorem yields_declarationStatement (hpattern : (rules .pattern).Yields Node.IsWholePattern)
    (kind : DeclarationKind) (single : Bool) :
    (declarationStatement rules kind single).Yields IsDeclaration := by
  refine .bind (yields_variableDeclaration hpattern kind) fun d hd => ?_
  exact .ite (fun _ => .next fun _ => .pure hd) fun _ => .pure hd

/-- What starts like a declaration may be an expression; then it is no declaration. -/
theorem yields_letStatement (hpattern : (rules .pattern).Yields Node.IsWholePattern)
    (single : Bool) : (letStatement rules single).Yields Node.IsItem := by
  refine .next fun start => .next fun role => ?_
  cases role with
  | declaration =>
    exact (yields_declarationStatement hpattern .lexical single).weaken fun _ h => h.isItem
  | name | operand | accessed =>
    refine .next fun _ => .next fun _ => ?_
    exact (yields_other start rfl).weaken fun _ h => h.isItem

/-- A function is no declaration of variables, whatever its name. -/
theorem yields_function (start : Nat) (role : FunctionRole) (isAsync declared : Bool) :
    (function rules start role isAsync declared).Yields IsOther := by
  refine .next fun _ => .next fun _ => .next fun _ => .next fun parts => ?_
  have hfinish : ∀ {form : Form Node}, form.isConstrained = false →
      (finishStatement >>= fun _ => node start form).Yields IsOther :=
    fun hform => .next fun _ => yields_other start hform
  refine .ite (fun _ => .next fun _ => .ite (fun _ => hfinish rfl) fun _ => ?_) fun _ => ?_
  · exact .next fun _ => hfinish rfl
  · exact yields_other start rfl

/-! ### Functions with names -/

/-- The parameters of a function begin with a parenthesis. -/
theorem kind_of_functionTail {isAsync isGenerator : Bool} {s : State}
    (hclean : ((functionTail rules isAsync isGenerator).run s).2.Clean) :
    s.token.kind = .mark .leftParen := by
  rw [functionTail] at hclean
  have hparameters := clean_of_bind (clean_of_within hclean)
  rw [parameters] at hparameters
  have hbetween := clean_of_bind hparameters
  rw [between] at hbetween
  have hkind := kind_of_expect (clean_of_bind hbetween)
  exact hkind

/-- The name of a declaration, or the parenthesis that stands in its place. -/
theorem functionName_or {isAsync isGenerator : Bool} {s : State}
    (hclean : ((functionName .declaration isAsync isGenerator).run s).2.Clean) :
    (∃ name text, ((functionName .declaration isAsync isGenerator).run s).1 = some name ∧
      name.form = .identifier text) ∨
      ((functionName .declaration isAsync isGenerator).run s).1 = none ∧
        ((functionName .declaration isAsync isGenerator).run s).2 = s ∧
          s.token.kind ≠ .mark .leftParen := by
  simp only [functionName, run_bind, run_kind, run_here, BEq.rfl, if_true] at hclean ⊢
  split at hclean
  · rename_i text hkind
    rw [hkind]
    exact .inl ⟨_, text, rfl, rfl⟩
  · rename_i hword
    split at hclean
    · exact absurd hclean.errors (List.cons_ne_nil _ _)
    · exact absurd hclean.failure (State.failure_fail_ne_none _ _)
    · rename_i hparen hkeyword
      exact .inr ⟨rfl, rfl, hparen⟩

/-- Behind the name of a declaration goes on what would have found a parenthesis in its place. -/
theorem yields_functionName {isAsync isGenerator : Bool} {f : Option Node → P α} {Q : α → Prop}
    (hnamed : ∀ name, (∃ text, name.form = .identifier text) → (f (some name)).Yields Q)
    (hparen : ∀ s : State, ((f none).run s).2.Clean → s.token.kind = .mark .leftParen) :
    (functionName .declaration isAsync isGenerator >>= f).Yields Q := by
  intro s htyped hclean
  rw [run_bind] at hclean ⊢
  rcases functionName_or ((P.precedes _ _).clean hclean) with ⟨name, text, hsome, hname⟩ | hnone
  · rw [hsome] at hclean ⊢
    exact hnamed name ⟨text, hname⟩ _ ((P.precedes _ s).typed.trans htyped) hclean
  · obtain ⟨hname, hsame, hkind⟩ := hnone
    rw [hname, hsame] at hclean
    exact absurd (hparen s hclean) hkind

/-- A declaration of a function has a name. -/
theorem yields_namedFunction (start : Nat) (isAsync declared : Bool) :
    (function rules start .declaration isAsync declared).Yields Node.IsExported := by
  refine .next fun _ => .next fun isGenerator => yields_functionName ?_ ?_
  · rintro name ⟨text, hname⟩
    have hnode : ∀ traits parameters body,
        (node start (.function traits (some name) parameters body)).Yields Node.IsExported :=
      fun traits parameters body => (yields_node start _).weaken fun _ hn => .function hn hname
    refine .next fun parts => .ite (fun _ => .next fun _ => ?_) fun _ => hnode _ _ _
    exact .ite (fun _ => .next fun _ => hnode _ _ _)
      fun _ => .next fun _ => .next fun _ => hnode _ _ _
  · exact fun s hclean => kind_of_functionTail (clean_of_bind hclean)

theorem yields_functionStatement (start : Nat) (isAsync single : Bool) :
    (functionStatement rules start isAsync single).Yields IsOther := by
  refine .bind (yields_function start _ isAsync false) fun f hf => .ite (fun _ => ?_) fun _ => ?_
  · dsimp only
    split
    · refine .ite (fun _ => .next fun _ => ?_) fun _ => ?_
      · exact .ite (fun _ => .next fun _ => .pure hf) fun _ => .pure hf
      · exact .ite (fun _ => .next fun _ => .pure hf) fun _ => .pure hf
    · exact .pure hf
  · exact .pure hf

/-- A class, with or without a name. -/
def IsClass (n : Node) : Prop :=
  ∃ traits decorators name heritage members,
    n.form = .classLike traits decorators name heritage members ∧
      ∀ x ∈ name, ∃ text, x.form = .identifier text

theorem IsClass.isOther {n : Node} (h : IsClass n) : IsOther n := by
  obtain ⟨traits, decorators, name, heritage, members, hform, -⟩ := h
  rw [IsOther, hform]
  rfl

theorem IsClass.isExported {n : Node} (h : IsClass n) : n.IsExported := by
  obtain ⟨traits, decorators, name, heritage, members, hform, hname⟩ := h
  exact .classLike hform hname

/-- A class may have no name, but if something stands there it is a name. -/
theorem yields_classLike (start : Nat) (isAbstract declared : Bool) (ds : List Node) :
    (classLike rules start isAbstract declared ds).Yields IsClass := by
  have hrest : ∀ name : Option Node, (∀ x ∈ name, ∃ text, x.form = .identifier text) →
      (do
        let typeParameters ← classTypeParameters rules
        let h ← heritage rules
        let members ← classBody rules
        node start (.classLike
          { isAbstract, declared, typeParameters, typeArguments := h.typeArguments
            implemented := h.implemented.getD [] } ds name h.parent members)).Yields IsClass :=
    fun name hname => .next fun _ => .next fun _ => .next fun _ =>
      (yields_node start _).weaken fun _ hn => ⟨_, _, name, _, _, hn, hname⟩
  refine .next fun _ => .next fun found => ?_
  dsimp only
  split
  · exact .bind (.pure nofun) hrest
  · refine .bind (.map yields_bindingIdentifier fun n hn => ?_) hrest
    exact fun x hx => Option.some.inj hx ▸ hn
  · exact .bind (.pure nofun) hrest

/-- Every statement is an item: most forms are not constrained, and declarations have been looked
at. -/
theorem yields_plainStatement (hpattern : (rules .pattern).Yields Node.IsWholePattern)
    (single : Bool) : (plainStatement rules single).Yields Node.IsItem := by
  have hother : ∀ {p : P Node}, p.Yields IsOther → p.Yields Node.IsItem :=
    fun h => h.weaken fun _ h => h.isItem
  have hdeclaration : ∀ {p : P Node}, p.Yields IsDeclaration → p.Yields Node.IsItem :=
    fun h => h.weaken fun _ h => h.isItem
  refine .next fun start => .next fun found => ?_
  -- by the word or the mark at which the statement starts, in the order of the rule
  split
  · exact hother yields_block
  · exact hother (.next fun _ => yields_other start rfl)
  · exact hother yields_ifStatement
  · exact hother yields_forStatement
  · exact hother (.next fun _ => .next fun _ => .next fun _ => yields_other start rfl)
  · refine hother (.next fun _ => .next fun _ => .next fun _ => .next fun _ => .next fun _ => ?_)
    exact .next fun _ => yields_other _ rfl
  · exact hother (.next fun _ => .next fun _ => .next fun _ => .next fun _ => yields_other _ rfl)
  · exact hother (.next fun _ => .next fun _ => .next fun _ => .next fun _ => yields_other _ rfl)
  · exact hother yields_returnStatement
  · refine hother (.next fun _ => .next fun _ => .next fun _ => ?_)
    refine .ite (fun _ => .next fun _ => ?_) fun _ => ?_
    · exact .next fun _ => .next fun _ => yields_other _ rfl
    · exact .next fun _ => .next fun _ => yields_other _ rfl
  · exact hother yields_tryStatement
  · exact hother (.next fun _ => .next fun _ => .next fun _ => yields_other start rfl)
  · exact hother (.next fun _ => .next fun _ => .next fun _ => yields_other start rfl)
  · exact hother (.next fun _ => .next fun _ => yields_other start rfl)
  · -- only these declare variables; functions and classes come next
    exact hdeclaration (yields_declarationStatement hpattern .var single)
  · exact hdeclaration (yields_declarationStatement hpattern .constant single)
  · exact hother (yields_functionStatement start false single)
  · refine hother (.bind (yields_classLike start false false []) fun c hc => ?_)
    exact .ite (fun _ => .next fun _ => .pure hc.isOther) fun _ => .pure hc.isOther
  · refine .next fun _ => .ite (fun _ => hother yields_expressionStatement) fun _ => ?_
    exact yields_letStatement hpattern single
  · refine hother (.next fun _ => .ite (fun _ => .next fun _ => ?_) fun _ => ?_)
    · exact yields_functionStatement start true single
    · exact yields_expressionStatement
  · refine .next fun _ => .next fun _ => .ite (fun _ => ?_) fun _ => ?_
    · refine hdeclaration (.bind (yields_usingDeclaration hpattern) fun d hd => .next fun _ => ?_)
      exact .ite (fun _ => .next fun _ => .pure hd) fun _ => .pure hd
    · exact hother yields_expressionStatement

end Awaitless.Script.Parser
