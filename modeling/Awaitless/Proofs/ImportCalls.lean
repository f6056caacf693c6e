import Awaitless.Proofs.Blocking
import Awaitless.Proofs.Transform.Continuations

/-!
# What becomes of dynamic imports

Rewriting a tree adds a continuation to each of its dynamic imports, except for those that lead to
untouched chunks, and changes nothing else. The parts of a dynamic import are rewritten before it;
the continuation around it is not rewritten again.

That is a relation between two trees, node for node (`Node.Continued`), and rewriting gives the only
tree that stands in it. A relation of this sort could still hide a continuation too many, since the
output holds new syntax; so the nodes are counted as well. A continuation has a fixed number of
them, and the output has as many more as there are calls to continue.

* `Node.Continued` — a tree with continuations, node for node.
* `continued_iff` — this is what rewriting gives.
* `size_continueImports` — every other call has one continuation, and no call has two.
* `continueImports_exact` — all of this, and no calls are left in untouched chunks.
-/

namespace Awaitless

open Script

/-- The nodes of a continuation. -/
theorem Script.Make.size_continued (n : Node) (promise : String) :
    (Make.continued n promise).size = n.size + 11 := by
  simp only [Make.continued, Make.call, Make.member, Make.arrow, Make.statement, Make.wait,
    Make.returns, Make.name, Node.made, Node.size_mk, Form.parts, List.map, List.nil_append,
    List.cons_append, Option.toList, Node.total]

/-! ## Whole trees -/

/-- The second tree is the first one with a continuation around each dynamic import, except for
those that lead to untouched chunks. -/
inductive Script.Node.Continued (bundle : Bundle) (importer promise : String) : Node → Node → Prop
  | kept (span : Span) (parts : Form (Node × Node)) :
    (∀ p ∈ parts.parts, Continued bundle importer promise p.1 p.2) →
    (parts.isDynamicImport = true →
      Transform.LeadsToUntouched bundle importer (.mk span (parts.map (·.1)))) →
    Continued bundle importer promise (.mk span (parts.map (·.1))) (.mk span (parts.map (·.2)))
  | continued (span : Span) (parts : Form (Node × Node)) :
    (∀ p ∈ parts.parts, Continued bundle importer promise p.1 p.2) →
    parts.isDynamicImport = true →
    ¬ Transform.LeadsToUntouched bundle importer (.mk span (parts.map (·.1))) →
    Continued bundle importer promise (.mk span (parts.map (·.1)))
      (Make.continued (.mk span (parts.map (·.2))) promise)

namespace Transform

variable {bundle : Bundle} {importer promise : String} {n m : Node}

/-- Rewriting stands in the relation, by induction on the tree. -/
theorem continued_continueImports (n : Node) :
    n.Continued bundle importer promise (continueImports bundle importer promise n) := by
  induction n using Node.induction with
  | step span form ih =>
    -- each part goes with what it turns into
    let parts := form.map fun x => (x, continueImports bundle importer promise x)
    have hparts : ∀ p ∈ parts.parts, p.1.Continued bundle importer promise p.2 := by
      rw [Form.parts_map]
      exact List.forall_mem_map.mpr ih
    have hfirst : parts.map (·.1) = form := (Form.map_map _ _ _).trans (Form.map_id form)
    have hsecond : parts.map (·.2) = form.map (continueImports bundle importer promise) :=
      Form.map_map _ _ _
    have hdynamic : parts.isDynamicImport = form.isDynamicImport := Form.isDynamicImport_map _ _
    rw [continueImports_mk]
    split
    · rename_i hneeds
      have hcontinued := Node.Continued.continued span parts hparts (hdynamic.trans hneeds.1)
        (by rw [hfirst]; exact hneeds.2)
      rwa [hfirst, hsecond] at hcontinued
    · rename_i hneeds
      have hkept := Node.Continued.kept span parts hparts fun h => by
        rw [hfirst]
        exact not_not.mp fun huntouched => hneeds ⟨hdynamic.symm.trans h, huntouched⟩
      rwa [hfirst, hsecond] at hkept

/-- Rewriting gives this tree and no other one. -/
theorem continued_iff :
    n.Continued bundle importer promise m ↔ m = continueImports bundle importer promise n := by
  refine ⟨fun h => ?_, fun h => h ▸ continued_continueImports n⟩
  have hsecond : ∀ {parts : Form (Node × Node)},
      (∀ p ∈ parts.parts, p.2 = continueImports bundle importer promise p.1) →
        parts.map (·.2) = (parts.map (·.1)).map (continueImports bundle importer promise) := by
    intro parts h
    rw [Form.map_map]
    exact Form.map_congr h
  induction h with
  | kept span parts _ huntouched ih =>
    rw [continueImports_mk, if_neg, hsecond ih]
    rintro ⟨hdynamic, hneeds⟩
    exact hneeds (huntouched (Form.isDynamicImport_map _ _ ▸ hdynamic))
  | continued span parts _ hdynamic hneeds ih =>
    rw [continueImports_mk, if_pos, hsecond ih]
    exact ⟨(Form.isDynamicImport_map _ _).trans hdynamic, hneeds⟩

/-! ## Counting -/

/-- The calls of a tree that need a continuation. -/
def openCalls (bundle : Bundle) (importer : String) (n : Node) : List Node :=
  n.calls.filter fun call => ¬ LeadsToUntouched bundle importer call

/-- The calls to continue: the tree itself if it is one, and those in its parts. -/
theorem openCalls_mk (span : Span) (form : Form Node) :
    openCalls bundle importer (.mk span form) =
      (if form.isDynamicImport = true ∧ ¬ LeadsToUntouched bundle importer (.mk span form) then
        [.mk span form] else []) ++ form.parts.flatMap (openCalls bundle importer) := by
  rw [openCalls, Node.calls_mk, List.filter_append, List.filter_flatMap]
  congr 1
  by_cases hdynamic : form.isDynamicImport = true
  · simp [hdynamic, List.filter_singleton]
  · simp [hdynamic]

/-- Rewriting adds one continuation for each call that needs one. -/
theorem size_continueImports (bundle : Bundle) (importer promise : String) (n : Node) :
    (continueImports bundle importer promise n).size =
      n.size + 11 * (openCalls bundle importer n).length := by
  have hlist : ∀ {xs : List Node},
      (∀ x ∈ xs, (continueImports bundle importer promise x).size =
        x.size + 11 * (openCalls bundle importer x).length) →
      Node.total (xs.map fun x => (continueImports bundle importer promise x).size) =
        Node.total (xs.map Node.size) + 11 * (xs.flatMap (openCalls bundle importer)).length := by
    intro xs h
    induction xs with
    | nil => rfl
    | cons x xs ih =>
      obtain ⟨hx, hxs⟩ := List.forall_mem_cons.mp h
      rw [List.map_cons, List.map_cons, List.flatMap_cons, Node.total, Node.total, hx, ih hxs,
        List.length_append]
      omega
  induction n using Node.induction with
  | step span form ih =>
    -- the parts grow by what is continued in them, and the node by its own continuation
    have hparts : (Node.mk span (form.map (continueImports bundle importer promise))).size =
        (Node.mk span form).size +
          11 * (form.parts.flatMap (openCalls bundle importer)).length := by
      rw [Node.size_mk, Node.size_mk, Form.parts_map, List.map_map]
      have := hlist ih
      simp only [Function.comp_def]
      omega
    rw [continueImports_mk, openCalls_mk, List.length_append]
    split
    · rw [Make.size_continued, hparts, List.length_singleton]
      omega
    · rw [hparts, List.length_nil]
      omega

/-- Without calls to continue, nothing is rewritten. -/
theorem continueImports_eq_self (h : openCalls bundle importer n = []) :
    continueImports bundle importer promise n = n := by
  induction n using Node.induction with
  | step span form ih =>
    rw [openCalls_mk, List.append_eq_nil_iff, List.flatMap_eq_nil_iff] at h
    have hparts : form.map (continueImports bundle importer promise) = form :=
      (Form.map_congr fun x hx => ih x hx (h.2 x hx)).trans (Form.map_id form)
    rw [continueImports_mk, if_neg, hparts]
    intro hneeds
    rw [if_pos hneeds] at h
    cases h.1

/-- Where no call needs a continuation, nothing changes, and only there. -/
theorem continueImports_eq_self_iff :
    continueImports bundle importer promise n = n ↔
      ∀ call ∈ n.calls, LeadsToUntouched bundle importer call := by
  have hopen : openCalls bundle importer n = [] ↔
      ∀ call ∈ n.calls, LeadsToUntouched bundle importer call := by
    simp [openCalls, List.filter_eq_nil_iff]
  rw [← hopen]
  refine ⟨fun h => ?_, continueImports_eq_self⟩
  have hsize := size_continueImports bundle importer promise n
  rw [h] at hsize
  exact List.length_eq_zero_iff.mp (by omega)

end Transform

/-! ## Untouched chunks -/

/-- The classifier lets no chunk with a dynamic import through untouched. -/
theorem Build.calls_of_untouched {settings : Settings} {chunks : List Chunk} {out : Output}
    {compiled : List Compiled} {c : Compiled} (h : Build settings chunks out compiled)
    (hc : c ∈ compiled) (huntouched : out.bundle.isTransformed c.input.name = false) :
    ∀ s ∈ c.program.statements, s.calls = [] := by
  have hnone : blockingOf c.input.program.statements = none :=
    h.linked.blocking_eq_none (List.mem_map_of_mem hc) huntouched
  intro s hs
  rw [h.program_eq_of_untouched hc huntouched] at hs
  refine Node.calls_eq_nil (Bool.eq_false_iff.mpr fun himports => ?_)
  have hdynamic := (importsDynamically_iff_blockingOf (by rw [hnone]; exact nofun)).mp
    ⟨s, hs, himports⟩
  rw [hnone] at hdynamic
  cases hdynamic

/-- What the visit of a tree does to its dynamic imports. -/
structure Transform.ContinuesCalls (bundle : Bundle) (importer promise : String)
    (n result : Node) : Prop where
  /-- Calls that do not lead to untouched chunks get a continuation; nothing else changes. -/
  continued_iff : ∀ m, n.Continued bundle importer promise m ↔ m = result
  /-- No call is lost or added. -/
  calls : result.calls.length = n.calls.length
  /-- Each call that needs it has one continuation, of eleven nodes, and no call has two. -/
  once : result.size = n.size + 11 * (openCalls bundle importer n).length
  unchanged_iff : result = n ↔ ∀ call ∈ n.calls, LeadsToUntouched bundle importer call

/-- Whatever tree is rewritten, each dynamic import that does not lead to an untouched chunk gets
one continuation, and nothing else changes. The untouched chunks of a build hold no dynamic import
at all. -/
theorem continueImports_exact :
    (∀ (bundle : Bundle) (importer promise : String) (n : Node),
      Transform.ContinuesCalls bundle importer promise n
        (Transform.continueImports bundle importer promise n)) ∧
    ∀ {settings : Settings} {chunks : List Chunk} {out : Output},
      transform settings chunks = .ok out → ∃ compiled, Build settings chunks out compiled ∧
        ∀ c ∈ compiled, out.bundle.isTransformed c.input.name = false →
          ∀ s ∈ c.program.statements, s.calls = [] := by
  refine ⟨fun bundle importer promise n => ?_, fun h => ?_⟩
  · exact ⟨fun m => Transform.continued_iff, Transform.length_calls_continueImports _ _ _ n,
      Transform.size_continueImports _ _ _ n, Transform.continueImports_eq_self_iff⟩
  · obtain ⟨compiled, hbuild⟩ := transform_eq_ok_iff.mp h
    exact ⟨compiled, hbuild, fun c hc huntouched => hbuild.calls_of_untouched hc huntouched⟩

/-- A chunk that imports a waiting one and an untouched one dynamically. -/
def mixedCalls : List Chunk :=
  [⟨"a.js", "const f = (g = import('./c.js')) => import('./b.js', g)"⟩,
    ⟨"b.js", "export const x = await 0"⟩, ⟨"c.js", "export const y = 0"⟩]

/-- A chunk with two calls, one of which needs a continuation. -/
theorem continueImports_exact_mixedCalls :
    ∃ out compiled, transform {} mixedCalls = .ok out ∧ Build {} mixedCalls out compiled ∧
      (∃ c ∈ compiled, out.bundle.isTransformed c.input.name = false ∧
        ∀ s ∈ c.program.statements, s.calls = []) ∧
      ∃ a ∈ compiled, ∃ s ∈ a.input.program.statements, s.calls.length = 2 ∧
        (Transform.openCalls out.bundle a.input.name s).length = 1 ∧
        Transform.ContinuesCalls out.bundle a.input.name "__tla" s
          (Transform.continueImports out.bundle a.input.name "__tla" s) := by
  obtain ⟨out, compiled, hout, hbuild, ⟨c, hm, huntouched⟩, a, hm', s, hs, hcalls, hopen⟩ :=
    exists_build {} mixedCalls
      (fun modules =>
        (∃ c ∈ modules, (Bundle.ofModules modules).propagate.isTransformed c.name = false) ∧
          ∃ a ∈ modules, ∃ s ∈ a.program.statements, s.calls.length = 2 ∧
            (Transform.openCalls (Bundle.ofModules modules).propagate a.name s).length = 1)
      (by decide +kernel)
  obtain ⟨c, hc, rfl⟩ := List.mem_map.mp hm
  obtain ⟨a, ha, rfl⟩ := List.mem_map.mp hm'
  rw [← hbuild.bundle] at huntouched hopen
  obtain ⟨compiled', hbuild', hnone⟩ := continueImports_exact.2 hout
  obtain rfl := hbuild.unique hbuild'
  exact ⟨out, compiled, hout, hbuild, ⟨c, hc, huntouched, hnone c hc huntouched⟩, a, ha, s, hs,
    hcalls, hopen, continueImports_exact.1 _ _ _ s⟩

end Awaitless
