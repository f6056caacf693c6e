import Awaitless.Proofs.Promises
import Awaitless.Proofs.Script.Checking.Imports
import Awaitless.Proofs.Transform.ImportClauses
import Awaitless.Proofs.Transform.ModuleScope
import Awaitless.Proofs.Transform.Threading

/-!
# Transformed chunks are modules

The transformation moves declarations into a closure, turns some of them into `let`, and adds names
of its own. What comes out is a module again unless names meet that were apart before. They can meet
in two scopes: at the top of the module, where imports, hoisted names and generated names stand
(`Transform.consistent_moduleScope_iff`), and in the closure, where `var` may have become `let`
(`Transform.Body.consistent_bodyScope_iff`). Both conditions are about the chunk as it was, so that
they can be read off before anything is transformed.

Valid is what the tree of a module is here, and that is less than a text that `Source.check`
accepts: an exported abstract class is assigned to its name, as in `A = abstract class A {}`. No
name is in conflict then, but where a value is read, such a class is refused.

* `Program.Valid` — a transformed module declares and exports nothing in conflict, and its imports
  have clauses.
* `Compiled.KeptApart` — the names of a chunk that have to be apart for this.
* `transform_valid_iff` — a transformed chunk is valid exactly if these names are apart.
-/

namespace Awaitless

open Script

/-! ## Valid modules -/

/-- A module that runs its statements in a closure exports no name twice, declares whatever it
exports, declares nothing in conflict, and has a clause in every import. That the text of the module
is accepted is not a part of this: what becomes of an exported abstract class is refused, whatever
its names are. -/
structure Script.Program.Valid (p : Program) (promise : String) : Prop where
  exports : (p.statements.flatMap Parser.exportedNames).Nodup
  /-- Whatever is exported is declared at the top of the module. -/
  locals : ∀ n ∈ p.statements, ∀ specifiers, n.form = .exportNames specifiers none →
    ∀ x ∈ specifiers, x.binding.text ∈ (moduleScope p.statements).single
  module : (moduleScope p.statements).Consistent
  closure : ∀ names body,
    p.CompletesBy promise (Transform.completion names (Make.arrow true [] body)) →
      (bodyScope body).Consistent
  clauses : ∀ d ∈ p.importDeclarations, d.HasClause

/-- The names of a chunk, taken apart, are apart from each other where the transformation puts them
together. -/
structure Compiled.KeptApart (bundle : Bundle) (c : Compiled) (items : Transform.Items) : Prop where
  /-- No generated name is the name of an imported or an exported binding. -/
  generated : ∀ x ∈ Transform.generatedNames ⟨c.input.name, bundle, {}⟩ items,
    x ∉ items.importBindings ∧ x ∉ Transform.exportedBindings items.exports
  /-- A name that is not exported is declared once if it is declared by more than `var`, or together
  with an exported name. -/
  single : ∀ s ∈ items.statements,
    ∀ x ∈ s.singleNames (Transform.exportedBindings items.exports),
      x ∉ Transform.exportedBindings items.exports →
        (bodyScope items.statements).all.count x = 1
  /-- No import of a source leads to a transformed chunk. -/
  sources : ∀ d ∈ c.input.awaited bundle, d.phase ≠ some .source

/-! ## Generated names -/

theorem nodup_generatedNames (name : String) (bundle : Bundle) (items : Transform.Items) :
    (Transform.generatedNames ⟨name, bundle, {}⟩ items).Nodup := by
  have hawaited : (Transform.awaitedNames ⟨name, bundle, {}⟩ items).Nodup :=
    List.Nodup.map importName_injective List.nodup_range
  unfold Transform.generatedNames
  split
  · rw [List.append_nil]
    exact hawaited
  · refine List.nodup_append.mpr ⟨hawaited, List.nodup_singleton _, fun x hx y hy hxy => ?_⟩
    obtain ⟨k, -, rfl⟩ := List.mem_map.mp hx
    -- a number follows the local names only
    have hname : "__tla_" ++ toString k = "__tla" := hxy.trans (List.mem_singleton.mp hy)
    have hlength := congrArg String.length hname
    rw [String.length_append] at hlength
    have hlong : "__tla_".length = "__tla".length + 1 := rfl
    omega

/-! ## Imports -/

theorem flatMap_importedNames (statements : List Node) :
    statements.flatMap Node.importedNames =
      (statements.filterMap Node.importDeclaration?).flatMap ImportDeclaration.bindings := by
  induction statements with
  | nil => rfl
  | cons s statements ih =>
    rw [List.flatMap_cons, List.filterMap_cons, ih]
    obtain ⟨span, form⟩ := s
    cases form with
    | importItem d => rfl
    | _ => rfl

namespace Build

variable {settings : Settings} {chunks : List Chunk} {out : Output} {compiled : List Compiled}
  {c : Compiled} {items : Transform.Items}

/-- No chunk imports a name twice. -/
theorem nodup_importBindings (h : Build settings chunks out compiled) (hc : c ∈ compiled)
    (himports : items.imports.map (·.2) = c.input.program.importDeclarations) :
    items.importBindings.Nodup := by
  have hnodup := Program.nodup_importedNames (Source.check_eq_ok (h.check hc)).2
  have hbindings : items.importBindings =
      (items.imports.map (·.2)).flatMap ImportDeclaration.bindings := by
    rw [List.flatMap_map]
    rfl
  rw [flatMap_importedNames] at hnodup
  rw [hbindings, himports]
  exact hnodup

/-- All imports of a chunk have clauses. -/
theorem hasClause_importDeclarations (h : Build settings chunks out compiled) (hc : c ∈ compiled)
    {d : ImportDeclaration} (hd : d ∈ c.input.program.importDeclarations) : d.HasClause := by
  obtain ⟨s, hs, hitem⟩ := List.mem_filterMap.mp hd
  exact (h.isItem hc s hs).clause d (Node.form_of_importDeclaration? hitem)

theorem hasClause_iff (h : Build settings chunks out compiled) (hc : c ∈ compiled)
    {body : List Node}
    (hassemble : c.program.statements =
      Transform.assemble ⟨c.input.name, out.bundle, settings⟩ items body)
    (himports : items.imports.map (·.2) = c.input.program.importDeclarations) :
    (∀ d ∈ c.program.importDeclarations, d.HasClause) ↔
      ∀ d ∈ c.input.awaited out.bundle, d.phase ≠ some .source := by
  have hclause : ∀ x ∈ items.imports, x.2.HasClause := fun x hx =>
    h.hasClause_importDeclarations hc (himports ▸ List.mem_map_of_mem (f := Prod.snd) hx)
  rw [Transform.hasClause_assemble_iff hassemble hclause, ← map_awaited himports,
    List.forall_mem_map]

end Build

/-- In the output of a build, the tree of a transformed chunk is a valid module exactly if its names
are kept apart. Its text can still be refused where it exports an abstract class. -/
theorem transform_valid_iff {chunks : List Chunk} {out : Output}
    (h : transform {} chunks = .ok out) :
    ∃ compiled, Build {} chunks out compiled ∧ ∀ c ∈ compiled,
      out.bundle.isTransformed c.input.name = true →
        ∃ items, Transform.Items.ofStatements c.input.name c.input.source
            c.input.program.statements = .ok items ∧
          (c.program.Valid "__tla" ↔ c.KeptApart out.bundle items) := by
  obtain ⟨compiled, hbuild⟩ := transform_eq_ok_iff.mp h
  refine ⟨compiled, hbuild, fun c hc htransformed => ?_⟩
  obtain ⟨items, body, hitems, hbody, hprogram⟩ :=
    Transform.program_eq_ok_iff.mp (hbuild.program_eq_ok_of_transformed hc htransformed)
  have hassemble : c.program.statements =
      Transform.assemble ⟨c.input.name, out.bundle, {}⟩ items body := by rw [hprogram]
  have himports := (Transform.Items.ofStatements_eq_ok hitems).1
  have hdeclarators := Transform.Items.declarators_of_ofStatements (hbuild.isItem hc) hitems
  -- the scopes and the imports, one by one
  have hmodule := Transform.consistent_moduleScope_iff body
    (hbuild.nodup_importBindings hc himports) (nodup_generatedNames c.input.name out.bundle items)
  have hclosure := Transform.Body.consistent_bodyScope_iff hdeclarators hbody
  have hclauses := hbuild.hasClause_iff hc hassemble himports
  rw [← hassemble] at hmodule
  have hcompletes := Transform.completesBy_assemble hassemble
  have hbodyScope := Transform.bodyScope_continueImports out.bundle c.input.name "__tla" body
  refine ⟨items, hitems, fun hvalid => ?_, fun hapart => ?_⟩
  · refine ⟨hmodule.mp hvalid.module, hclosure.mp ?_, hclauses.mp hvalid.clauses⟩
    rw [← hbodyScope]
    exact hvalid.closure _ _ hcompletes
  · refine ⟨?_, ?_, hmodule.mpr hapart.generated, ?_, hclauses.mpr hapart.sources⟩
    · rw [hassemble]
      exact Transform.nodup_exportedNames_assemble (Transform.Items.nodup_exports hitems)
    · rw [hassemble]
      exact fun n hn specifiers hform x hx => Transform.mem_moduleScope_of_exported hn hform hx
    · intro names list hlist
      -- there is no other closure than that of the module
      have hsame := Make.arrow_inj (Transform.closure_eq_of_completion (hlist.unique hcompletes))
      rw [hsame, hbodyScope]
      exact hclosure.mpr hapart.single

/-- A chunk with a `var` that is repeated but not exported, and one that it waits for. -/
def repeatedAlone : List Chunk :=
  [⟨"a.js", "import './b.js'; export let y; var x; var x"⟩, ⟨"b.js", "await 0"⟩]

/-- Both chunks are transformed, and both are valid modules. -/
theorem transform_valid_iff_repeatedAlone :
    ∃ out compiled, transform {} repeatedAlone = .ok out ∧ Build {} repeatedAlone out compiled ∧
      out.bundle.needed = ["a.js", "b.js"] ∧ ∀ c ∈ compiled,
        out.bundle.isTransformed c.input.name = true → c.program.Valid "__tla" := by
  obtain ⟨out, compiled, hout, hbuild, hneeded, hapart⟩ :=
    exists_build {} repeatedAlone
      (fun modules => (Bundle.ofModules modules).propagate.needed = ["a.js", "b.js"] ∧
        ∀ m ∈ modules, ∀ items ∈ (Transform.Items.ofStatements m.name m.source
            m.program.statements).toOption.toList,
          (∀ x ∈ Transform.generatedNames ⟨m.name, (Bundle.ofModules modules).propagate, {}⟩ items,
              x ∉ items.importBindings ∧ x ∉ Transform.exportedBindings items.exports) ∧
            (∀ s ∈ items.statements,
              ∀ x ∈ s.singleNames (Transform.exportedBindings items.exports),
                x ∉ Transform.exportedBindings items.exports →
                  (bodyScope items.statements).all.count x = 1) ∧
              ∀ d ∈ m.awaited (Bundle.ofModules modules).propagate, d.phase ≠ some .source)
      (by decide +kernel)
  rw [← hbuild.bundle] at hneeded hapart
  obtain ⟨compiled', hbuild', hvalid⟩ := transform_valid_iff hout
  obtain rfl := hbuild.unique hbuild'
  refine ⟨out, compiled, hout, hbuild, hneeded, fun c hc htransformed => ?_⟩
  obtain ⟨items, hitems, hiff⟩ := hvalid c hc htransformed
  have hmem : items ∈ (Transform.Items.ofStatements c.input.name c.input.source
      c.input.program.statements).toOption.toList := by
    rw [hitems]
    exact List.mem_singleton_self items
  obtain ⟨hgenerated, hsingle, hsources⟩ := hapart c.input (List.mem_map_of_mem hc) items hmem
  exact hiff.mpr ⟨hgenerated, hsingle, hsources⟩

/-- A chunk with a `var` that is declared together with an exported name, and repeated. -/
def repeatedBesideExport : List Chunk :=
  [⟨"a.js", "var x, y; var x; export { y }; await 0"⟩]

/-- The text of the transformed chunk declares the name by `let` and by `var`, and is no module. -/
theorem check_repeatedBesideExport :
    ∃ out, transform {} repeatedBesideExport = .ok out ∧ ∃ c ∈ out.chunks,
      c.transformed = true ∧ Source.check c.name c.text =
        .error (.earlyError "a.js" ["Identifier `x` has already been declared"]) := by
  have hrefused : ((transform {} repeatedBesideExport).toOption.any fun out =>
      out.chunks.any fun c => c.transformed &&
        match Source.check c.name c.text with
        | .error problem =>
          problem == .earlyError "a.js" ["Identifier `x` has already been declared"]
        | .ok _ => false) = true := by
    decide +kernel
  obtain ⟨out, hout, hchunks⟩ := (Option.any_eq_true ..).mp hrefused
  obtain ⟨c, hc, hchunk⟩ := List.any_eq_true.mp hchunks
  obtain ⟨htransformed, hcheck⟩ := (Bool.and_eq_true ..).mp hchunk
  refine ⟨out, eq_ok_of_toOption hout, c, hc, htransformed, ?_⟩
  split at hcheck
  · rename_i problem hproblem
    rw [hproblem, eq_of_beq hcheck]
  · cases hcheck

end Awaitless
