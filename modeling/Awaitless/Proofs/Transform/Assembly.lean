import Awaitless.Proofs.Transform.Pieces

/-!
# The module put together again

A module is taken apart into import declarations, exports and statements; the statements turn into
the body of a closure; and everything is put together around it. The first two steps may fail, the
last one may not, so a module is transformed exactly if it can be taken apart
(`program_eq_ok_iff`), and what a transformed module is can be said of its three sections: imports,
one declaration of exported names, and an ending that runs the closure.

Nothing in these sections blocks, because a closure is a function and reading a promise is none of
the things that wait. The ending determines the completion promise, and the promise determines the
closure, so that no two readings of one module differ.

* `program_eq_ok_iff` — a module is transformed exactly if it can be taken apart.
* `PromiseImports.threadFrom_names`, `PromiseImports.mem_threadFrom` — which declarations and local
  names the imports of promises are.
* `not_blocks_of_mem_assemble` — nothing in a transformed module blocks.
* `Program.CompletesBy`, `Program.ExportsCompletion` — how a transformed module ends.
* `Program.CompletesBy.unique` — it ends with one completion promise.
-/

namespace Awaitless

namespace Script.Program

/-- The module ends by declaring its completion promise, and exports it under its name. -/
def ExportsCompletion (p : Program) (promise : String) (completion : Node) : Prop :=
  ∃ entries, (promise, promise) ∈ entries ∧
    [Make.declareAs promise completion, Make.exportNamed entries] <:+ p.statements

/-- The module ends with its completion promise, exported or not. -/
def CompletesBy (p : Program) (promise : String) (completion : Node) : Prop :=
  p.ExportsCompletion promise completion ∨ [Make.statement completion] <:+ p.statements

end Script.Program

namespace Script.Make

theorem arrow_inj {body body' : List Node}
    (h : Make.arrow true [] body = Make.arrow true [] body') : body = body' := by
  cases h
  rfl

theorem afterAll_inj {x x' y y' : Node} (h : Make.afterAll x y = Make.afterAll x' y') :
    y = y' := by
  cases h
  rfl

theorem declareAs_inj {text : String} {x y : Node}
    (h : Make.declareAs text x = Make.declareAs text y) : x = y := by
  cases h
  rfl

end Script.Make

namespace Script.Program

open Script

/-- A module ends with one completion promise. -/
theorem CompletesBy.unique {p : Program} {promise : String} {x y : Node}
    (hx : p.CompletesBy promise x) (hy : p.CompletesBy promise y) : x = y := by
  -- ends of one length are the same end
  have hsame : ∀ {xs ys : List Node}, xs <:+ p.statements → ys <:+ p.statements →
      xs.length = ys.length → xs = ys := fun hxs hys hlength =>
    (List.suffix_of_suffix_length_le hxs hys (Nat.le_of_eq hlength)).eq_of_length hlength
  -- a module does not end with an export clause and with a value at once
  have hclause : ∀ {entries value z}, ¬ ([Make.declareAs promise z, Make.exportNamed entries] <:+
      p.statements ∧ [Make.statement value] <:+ p.statements) := by
    rintro entries value z ⟨hclause, hvalue⟩
    have hlast : [Make.exportNamed entries] <:+ p.statements :=
      (List.suffix_cons ..).trans hclause
    cases hsame hlast hvalue rfl
  rcases hx with ⟨entries, -, hx⟩ | hx
  · rcases hy with ⟨entries', -, hy⟩ | hy
    · exact Make.declareAs_inj (List.cons.inj (hsame hx hy rfl)).1
    · exact absurd ⟨hx, hy⟩ hclause
  · rcases hy with ⟨entries', -, hy⟩ | hy
    · exact absurd ⟨hy, hx⟩ hclause
    · cases hsame hx hy rfl
      rfl

end Script.Program

namespace Transform

open Script

/-! ## Parts -/

/-- Transforming fails only while a module is taken apart. -/
theorem program_eq_ok_iff {s : Surroundings} {source : String} {p q : Program} :
    program s source p = .ok q ↔
      ∃ items body, Items.ofStatements s.moduleName source p.statements = .ok items ∧
        Body.ofStatements s.moduleName (exportedBindings items.exports) items.statements =
          .ok body ∧
        q = { p with statements := assemble s items body } := by
  constructor
  · intro h
    obtain ⟨list, hlist, h⟩ := exists_of_bind_eq_ok h
    obtain ⟨items, hitems, hlist⟩ := exists_of_bind_eq_ok hlist
    obtain ⟨body, hbody, hlist⟩ := exists_of_bind_eq_ok hlist
    cases hlist
    cases h
    exact ⟨items, body, hitems, hbody, rfl⟩
  · rintro ⟨items, body, hitems, hbody, rfl⟩
    unfold program statements
    rw [hitems]
    show (Body.ofStatements _ _ _ >>= _) >>= _ = _
    rw [hbody]
    rfl

/-! ## Imports of promises -/

namespace PromiseImports

variable {bundle : Bundle} {importer : String} {settings : Settings} {next k : Nat}
  {imports : List (Span × ImportDeclaration)} {span : Span} {d d' : ImportDeclaration}
  {entry : ImportSpecifier} {n : Node}

/-- The imports that lead to transformed chunks. -/
def awaited (bundle : Bundle) (importer : String) (imports : List (Span × ImportDeclaration)) :
    List (Span × ImportDeclaration) :=
  imports.filter fun p => isFromTransformed bundle importer p.2

/-- The entry that imports a promise under the local name with the given number. -/
def entryAt (settings : Settings) (number : Nat) : ImportSpecifier :=
  Make.importSpecifier settings.promiseName (settings.importName number)

/-- Promises are numbered in the order of the declarations that lead to them. -/
theorem threadFrom_names :
    (threadFrom bundle importer settings next imports).2 =
      (List.range' next (awaited bundle importer imports).length).map settings.importName := by
  induction imports generalizing next with
  | nil => rfl
  | cons p rest ih =>
    obtain ⟨span, d⟩ := p
    rw [threadFrom, awaited, List.filter_cons]
    split
    · show settings.importName next :: (threadFrom _ _ _ (next + 1) rest).2 = _
      rw [ih, List.length_cons, List.range'_succ, List.map_cons]
      rfl
    · exact ih

/-- An import that leads to a transformed chunk imports its promise, too. -/
theorem addSpecifier_subset_threadFrom (settings : Settings) (next : Nat)
    (h : (awaited bundle importer imports)[k]? = some (span, d)) :
    addSpecifier span d (entryAt settings (next + k)) ⊆
      (threadFrom bundle importer settings next imports).1 := by
  induction imports generalizing next k with
  | nil => cases h
  | cons p rest ih =>
    obtain ⟨span', d'⟩ := p
    rw [awaited, List.filter_cons] at h
    rw [threadFrom]
    split at h
    · -- this declaration is one of those that are counted, so the rest starts at the next number
      rename_i hfrom
      rw [if_pos hfrom]
      cases k with
      | zero =>
        cases h
        exact List.subset_append_left ..
      | succ k =>
        refine List.Subset.trans ?_ (List.subset_append_right ..)
        rw [show next + (k + 1) = next + 1 + k by omega]
        exact ih (next + 1) h
    · rename_i hfrom
      rw [if_neg hfrom]
      exact List.Subset.trans (ih next h) (List.subset_cons_self ..)

/-- There are no other imports than those of the module and those of promises. -/
theorem mem_threadFrom (h : n ∈ (threadFrom bundle importer settings next imports).1) :
    (∃ p ∈ imports, n = .mk p.1 (.importItem p.2)) ∨
      ∃ k p, (awaited bundle importer imports)[k]? = some p ∧
        n ∈ addSpecifier p.1 p.2 (entryAt settings (next + k)) := by
  induction imports generalizing next with
  | nil => cases h
  | cons p rest ih =>
    obtain ⟨span, d⟩ := p
    rw [threadFrom] at h
    rw [awaited, List.filter_cons]
    split at h
    · -- a declaration that is changed, or one of those behind it
      rename_i hfrom
      rw [if_pos hfrom]
      rcases List.mem_append.mp h with h | h
      · exact .inr ⟨0, (span, d), rfl, h⟩
      · rcases ih h with ⟨p, hp, rfl⟩ | ⟨k, p, hp, hn⟩
        · exact .inl ⟨p, List.mem_cons_of_mem _ hp, rfl⟩
        · refine .inr ⟨k + 1, p, hp, ?_⟩
          rw [show next + (k + 1) = next + 1 + k by omega]
          exact hn
    · rename_i hfrom
      rw [if_neg hfrom]
      rcases List.mem_cons.mp h with rfl | h
      · exact .inl ⟨(span, d), List.mem_cons_self .., rfl⟩
      · rcases ih h with ⟨p, hp, rfl⟩ | hother
        · exact .inl ⟨p, List.mem_cons_of_mem _ hp, rfl⟩
        · exact .inr hother

/-- Beside the entry, there are only entries of the declaration itself. -/
theorem importDeclaration?_of_mem_addSpecifier (h : n ∈ addSpecifier span d entry) :
    ∃ d', n = .mk n.span (.importItem d') ∧ d'.source.name = d.source.name ∧
      ∀ x ∈ d'.specifiers.getD [], x ∈ d.specifiers.getD [] ∨ x = entry := by
  unfold addSpecifier at h
  split at h
  · rcases List.mem_cons.mp h with rfl | h
    · exact ⟨d, rfl, rfl, fun _ hx => .inl hx⟩
    · rw [List.mem_singleton.mp h]
      exact ⟨_, rfl, rfl, fun _ hx => .inr (List.mem_singleton.mp hx)⟩
  · rw [List.mem_singleton.mp h]
    refine ⟨_, rfl, rfl, fun x hx => ?_⟩
    rcases List.mem_append.mp hx with hx | hx
    · exact .inl hx
    · exact .inr (List.mem_singleton.mp hx)

/-- Threading makes import declarations only. -/
theorem exists_importItem_of_mem_threadFrom
    (h : n ∈ (threadFrom bundle importer settings next imports).1) :
    ∃ d, n = .mk n.span (.importItem d) := by
  rcases mem_threadFrom h with ⟨p, -, rfl⟩ | ⟨k, p, -, hn⟩
  · exact ⟨p.2, rfl⟩
  · obtain ⟨d', hd', -⟩ := importDeclaration?_of_mem_addSpecifier hn
    exact ⟨d', hd'⟩

end PromiseImports

/-! ## The whole module -/

variable {s : Surroundings} {items : Items} {body : List Node} {members : Bool} {x : Node}
  {p : Program}

/-- A completion promise calls a function and waits for nothing itself. -/
theorem not_blocks_completion {awaited : List String} {body : List Node} :
    ¬ (completion awaited (Make.arrow true [] body)).Blocks members := by
  unfold completion
  split
  · simp
  · simp

/-- The ending blocks only if the completion promise does. -/
theorem not_blocks_of_mem_ending {exports : Exports} {promise : Node}
    (hpromise : ¬ promise.Blocks members) (h : x ∈ ending s exports promise) :
    ¬ x.Blocks members := by
  unfold ending at h
  split at h
  · rw [List.mem_singleton.mp h, Make.blocks_statement]
    exact hpromise
  · rcases List.mem_cons.mp h with rfl | h
    · rw [Make.blocks_declareAs]
      exact hpromise
    · rw [List.mem_singleton.mp h]
      exact Make.blocks_exportNamed

/-- Nothing in a transformed module blocks. -/
theorem not_blocks_of_mem_assemble (h : x ∈ assemble s items body) : ¬ x.Blocks members := by
  rcases List.mem_append.mp h with h | h
  · rcases List.mem_append.mp h with h | h
    · obtain ⟨d, hd⟩ := PromiseImports.exists_importItem_of_mem_threadFrom h
      rw [hd]
      exact Node.blocks_importItem
    · exact Make.blocks_of_mem_declare? (Option.mem_toList.mp h)
  · exact not_blocks_of_mem_ending not_blocks_completion h

/-- The closure that a transformed module runs. -/
def closure (s : Surroundings) (body : List Node) : Node :=
  Make.arrow true [] (body.map (continueImports s.bundle s.moduleName s.settings.promiseName))

/-- A completion promise is that of one closure. -/
theorem closure_eq_of_completion {names names' : List String} {x y : Node}
    (h : completion names x = completion names' y) : x = y := by
  unfold completion at h
  split at h
  · split at h
    · cases h
      rfl
    · cases h
  · split at h
    · cases h
    · exact Make.afterAll_inj h

/-- A closure runs at once exactly if nothing is awaited. -/
theorem completion_eq_immediately_iff {names : List String} {closure : Node} :
    completion names closure = Make.immediately closure ↔ names = [] := by
  unfold completion
  split
  · rename_i hempty
    exact iff_of_true rfl (List.isEmpty_iff.mp hempty)
  · rename_i hempty
    refine iff_of_false (fun h => ?_) (mt List.isEmpty_iff.mpr hempty)
    cases h

/-- The local names of the promises that a transformed module waits for. -/
def awaitedNames (s : Surroundings) (items : Items) : List String :=
  (List.range (PromiseImports.awaited s.bundle s.moduleName items.imports).length).map
    s.settings.importName

/-- The exported bindings that a transformed module declares itself. -/
def hoistedNames (items : Items) : List String :=
  (exportedBindings items.exports).filter fun n => !items.importBindings.contains n

/-- A transformed module in three sections. -/
theorem assemble_eq (s : Surroundings) (items : Items) (body : List Node) :
    assemble s items body =
      (PromiseImports.thread s.bundle s.moduleName s.settings items.imports).1 ++
        (Make.declare? (hoistedNames items)).toList ++
          ending s items.exports (completion (awaitedNames s items) (closure s body)) := by
  rw [awaitedNames, List.range_eq_range', ← PromiseImports.threadFrom_names]
  rfl

/-- It ends with its ending. -/
theorem ending_suffix_assemble (s : Surroundings) (items : Items) (body : List Node) :
    ending s items.exports (completion (awaitedNames s items) (closure s body)) <:+
      assemble s items body := by
  rw [assemble_eq]
  exact List.suffix_append ..

/-- A module that exports something or is imported exports its completion promise. -/
theorem exportsCompletion_assemble (hp : p.statements = assemble s items body)
    (h : (items.exports.isEmpty && !s.isImported) = false) :
    p.ExportsCompletion s.settings.promiseName
      (completion (awaitedNames s items) (closure s body)) := by
  have hsuffix := ending_suffix_assemble s items body
  rw [ending, h, ← hp] at hsuffix
  exact ⟨_, List.mem_append_right _ (List.mem_singleton_self _), hsuffix⟩

/-- Whether the promise is declared or stands alone, it is what the module ends by. -/
theorem completesBy_assemble (hp : p.statements = assemble s items body) :
    p.CompletesBy s.settings.promiseName
      (completion (awaitedNames s items) (closure s body)) := by
  cases h : items.exports.isEmpty && !s.isImported with
  | true =>
    have hsuffix := ending_suffix_assemble s items body
    rw [ending, h, ← hp] at hsuffix
    exact .inr hsuffix
  | false => exact .inl (exportsCompletion_assemble hp h)

/-- The import declarations of a transformed module are those that threading makes. -/
theorem mem_importDeclarations_assemble (hp : p.statements = assemble s items body)
    {d : ImportDeclaration} :
    d ∈ p.importDeclarations ↔
      ∃ n ∈ (PromiseImports.thread s.bundle s.moduleName s.settings items.imports).1,
        n.importDeclaration? = some d := by
  -- the other two sections import nothing
  have hdeclare : ∀ names, ∀ n ∈ Make.declare? names, n.importDeclaration? = none := by
    intro names n hn
    unfold Make.declare? at hn
    split at hn
    · cases hn
    · obtain rfl := Option.some.inj hn
      rfl
  have hending : ∀ exports promise, ∀ n ∈ ending s exports promise,
      n.importDeclaration? = none := by
    intro exports promise n hn
    unfold ending at hn
    split at hn
    · rw [List.mem_singleton.mp hn]
      rfl
    · rcases List.mem_cons.mp hn with rfl | hn
      · rfl
      · rw [List.mem_singleton.mp hn]
        rfl
  rw [Program.importDeclarations, hp, List.mem_filterMap]
  refine exists_congr fun n => ⟨?_, ?_⟩
  · rintro ⟨hn, hd⟩
    refine ⟨?_, hd⟩
    rcases List.mem_append.mp hn with hn | hn
    · rcases List.mem_append.mp hn with hn | hn
      · exact hn
      · rw [hdeclare _ n (Option.mem_toList.mp hn)] at hd
        cases hd
    · rw [hending _ _ n hn] at hd
      cases hd
  · rintro ⟨hn, hd⟩
    exact ⟨List.mem_append_left _ (List.mem_append_left _ hn), hd⟩

end Transform

end Awaitless
