import Awaitless.Proofs.Transform.Continuations

/-!
# What a transformation asks about other chunks

Beside its own text and the settings, a transformed module depends on three things: whether anyone
imports it, which of its imports lead to transformed chunks, and which of its dynamic imports lead
to untouched ones. Everything else that a bundle knows could be different. This is what makes a
chunk local: it need not be looked at again when something far away changes.

The third question is asked at any depth of the body. Two rewritings agree on a tree by induction if
they agree on the calls in it; the body of the closure has the calls of the module, so it is enough
to ask about those.

* `Bundle.isUntouched` — a chunk is part of the bundle and keeps its text.
* `continueImports_congr` — rewriting asks about the chunks that calls lead to, at any depth.
* `program_congr` — bundles that answer all questions alike give the same transformed module.
-/

namespace Awaitless

open Script

/-- Whether the chunk with the given name is part of the bundle and is left untouched. -/
def Bundle.isUntouched (b : Bundle) (name : String) : Bool :=
  (b.get? name).any fun r => !r.needsTransform

namespace Transform

variable {bundle bundle' : Bundle} {importer promise : String} {settings : Settings}

/-! ## Dynamic imports -/

/-- A call is left as it is exactly if it leads to an untouched chunk. -/
theorem needsContinuation_eq {n source : Node} {phase : Option ImportPhase} {options : Option Node}
    (hform : n.form = .dynamicImport phase source options) :
    needsContinuation bundle importer source =
      (n.dynamicTarget? importer).all fun target => !bundle.isUntouched target := by
  obtain ⟨span, form⟩ := source
  rw [Node.dynamicTarget?, hform]
  unfold needsContinuation
  cases form with
  | stringLiteral value flaw =>
    simp only [Node.form_mk]
    cases resolve? importer value.toString with
    | none => rfl
    | some target =>
      simp only [Option.all_some, Bundle.isUntouched]
      cases bundle.get? target with
      | none => rfl
      | some r => exact (Bool.not_not r.needsTransform).symm
  | _ => rfl

/-- What stands in the source of a call does not matter, unless it is a literal, which stays. -/
theorem needsContinuation_continueImports (bundle' : Bundle) (n : Node) :
    needsContinuation bundle importer (continueImports bundle' importer promise n) =
      needsContinuation bundle importer n := by
  unfold needsContinuation
  rcases form_continueImports bundle' importer promise n with
    hform | ⟨⟨phase, source, options, hdynamic⟩, callee, arguments, hform⟩
  · rw [hform]
    cases n.form <;> rfl
  · rw [hform, hdynamic]

/-- Bundles that say the same about the chunks that all calls of a tree lead to rewrite it alike. -/
theorem continueImports_congr {n : Node}
    (h : ∀ call ∈ n.calls, ∀ target, call.dynamicTarget? importer = some target →
      bundle.isUntouched target = bundle'.isUntouched target) :
    continueImports bundle importer promise n = continueImports bundle' importer promise n := by
  induction n using Node.induction with
  | step span form ih =>
    have hparts : form.map (continueImports bundle importer promise) =
        form.map (continueImports bundle' importer promise) := by
      refine Form.map_congr fun x hx => ih x hx fun call hcall => h call ?_
      rw [Node.calls_mk]
      exact List.mem_append_right _ (List.mem_flatMap.mpr ⟨x, hx, hcall⟩)
    have hstep : ∀ b, continueImports b importer promise (.mk span form) =
        continueImport b importer promise
          (.mk span (form.map (continueImports b importer promise))) :=
      fun b => Node.bottomUp_mk _ span form
    rw [hstep, hstep, ← hparts]
    -- only a call asks, and it asks about its own target
    cases form with
    | dynamicImport phase source options =>
      have hself : Node.mk span (.dynamicImport phase source options) ∈
          (Node.mk span (.dynamicImport phase source options)).calls :=
        Node.mem_calls_iff.mpr ⟨.self _, rfl⟩
      have hneeds : needsContinuation bundle importer source =
          needsContinuation bundle' importer source := by
        rw [needsContinuation_eq (n := .mk span (.dynamicImport phase source options)) rfl,
          needsContinuation_eq (n := .mk span (.dynamicImport phase source options)) rfl]
        cases htarget : (Node.mk span (.dynamicImport phase source options)).dynamicTarget?
            importer with
        | none => rfl
        | some target => rw [Option.all_some, Option.all_some, h _ hself target htarget]
      simp only [Form.map, continueImport, Node.form_mk, needsContinuation_continueImports, hneeds]
    | _ => rfl

/-! ## The whole module -/

/-- Bundles that agree about the sources of all imports add the same promises. -/
theorem PromiseImports.threadFrom_congr {imports : List (Span × ImportDeclaration)} {next : Nat}
    (h : ∀ p ∈ imports, isFromTransformed bundle importer p.2 =
      isFromTransformed bundle' importer p.2) :
    threadFrom bundle importer settings next imports =
      threadFrom bundle' importer settings next imports := by
  induction imports generalizing next with
  | nil => rfl
  | cons p imports ih =>
    obtain ⟨span, d⟩ := p
    obtain ⟨hd, himports⟩ := List.forall_mem_cons.mp h
    rw [threadFrom, threadFrom, hd, ih himports, ih himports]

variable {name source : String} {p : Program} {items : Items} {body : List Node}

/-- The three sections ask one question each. -/
theorem assemble_congr
    (himported : Surroundings.isImported ⟨name, bundle, settings⟩ =
      Surroundings.isImported ⟨name, bundle', settings⟩)
    (himports : ∀ p ∈ items.imports, PromiseImports.isFromTransformed bundle name p.2 =
      PromiseImports.isFromTransformed bundle' name p.2)
    (hbody : ∀ x ∈ body, continueImports bundle name settings.promiseName x =
      continueImports bundle' name settings.promiseName x) :
    assemble ⟨name, bundle, settings⟩ items body =
      assemble ⟨name, bundle', settings⟩ items body := by
  have hthread : PromiseImports.thread bundle name settings items.imports =
      PromiseImports.thread bundle' name settings items.imports :=
    PromiseImports.threadFrom_congr himports
  unfold assemble ending
  rw [himported, hthread, List.map_congr_left hbody]

/-- Bundles that answer all questions of a module alike give the same transformed module. -/
theorem program_congr (hitems : ∀ s ∈ p.statements, s.IsItem)
    (himported : Surroundings.isImported ⟨name, bundle, settings⟩ =
      Surroundings.isImported ⟨name, bundle', settings⟩)
    (himports : ∀ d ∈ p.importDeclarations, PromiseImports.isFromTransformed bundle name d =
      PromiseImports.isFromTransformed bundle' name d)
    (hcalls : ∀ call ∈ p.statements.flatMap Node.calls, ∀ target,
      call.dynamicTarget? name = some target →
        bundle.isUntouched target = bundle'.isUntouched target) :
    program ⟨name, bundle, settings⟩ source p = program ⟨name, bundle', settings⟩ source p := by
  -- taking the module apart asks nothing; what is put together depends on the body and on imports
  have hassemble : ∀ items body, Items.ofStatements name source p.statements = .ok items →
      Body.ofStatements name (exportedBindings items.exports) items.statements = .ok body →
      assemble ⟨name, bundle, settings⟩ items body =
        assemble ⟨name, bundle', settings⟩ items body := by
    intro items body hparts hclosure
    refine assemble_congr himported (fun d hd => himports d.2 ?_) fun x hx => ?_
    · rw [Program.importDeclarations, ← (Items.ofStatements_eq_ok hparts).1]
      exact List.mem_map_of_mem hd
    · refine continueImports_congr fun call hcall => hcalls call ?_
      rw [← calls_body hitems hparts hclosure]
      exact List.mem_flatMap.mpr ⟨x, hx, hcall⟩
  have hstatements : statements ⟨name, bundle, settings⟩ source p.statements =
      statements ⟨name, bundle', settings⟩ source p.statements :=
    bind_congr_of_ok fun items hparts => bind_congr_of_ok fun body hclosure =>
      congrArg pure (hassemble items body hparts hclosure)
  unfold program
  rw [hstatements]

end Transform

end Awaitless
