import Awaitless.Proofs.Blocking
import Awaitless.Proofs.Promises

/-!
# Closures behind untouched chunks

An untouched chunk does not wait for what it imports. Nothing that it imports waits by itself, or
else it would wait too and be transformed. But a dynamic import is enough to transform a chunk, and
the importers of a transformed chunk await its promise, if they are transformed themselves. So a
chunk that an untouched one imports can still run later than its importer, even though nothing in it
waits: it does if and only if it awaits the promise of another chunk with dynamic imports.

* `Build.awaited_dynamicImport` — what a chunk waits for that does not wait itself.
* `Compiled.Defers` — whether the closure of a chunk runs at once, and whether it blocks.
* `transform_defers` — this describes every transformed chunk that an untouched chunk imports.
-/

namespace Awaitless

open Script

/-! ## Completions -/

/-- A chunk awaits no promise if none of its imports is transformed. -/
theorem Compiled.Assembled.awaitedNames_eq_nil {settings : Settings} {bundle : Bundle}
    {c : Compiled} {items : Transform.Items} {body : List Node}
    (h : c.Assembled settings bundle items body) :
    Transform.awaitedNames ⟨c.input.name, bundle, settings⟩ items = [] ↔
      c.input.awaited bundle = [] := by
  rw [Transform.awaitedNames, ← h.awaited, List.map_eq_nil_iff, List.map_eq_nil_iff,
    List.range_eq_nil, List.length_eq_zero_iff]

/-- The closure of a chunk in which the classifier finds nothing that waits. -/
theorem Compiled.Assembled.closure_blocks {settings : Settings} {bundle : Bundle} {c : Compiled}
    {items : Transform.Items} {body : List Node} (h : c.Assembled settings bundle items body)
    (hblocking : c.input.blocking ≠ some .topLevelAwait) {s : Node}
    (hs : s ∈ body.map (Transform.continueImports bundle c.input.name settings.promiseName)) :
    (s.Blocks true ↔ s.BlocksInMember) ∧ (s.Blocks true → c.input.program.BlocksInMember) := by
  obtain ⟨x, hx, rfl⟩ := List.mem_map.mp hs
  constructor
  · -- whatever the classifier would see in the closure, it has seen in the chunk
    rw [Node.blocks_iff_waits_or]
    refine or_iff_right fun hwaits => hblocking ?_
    rw [Node.waits_iff, Transform.blocks_continueImports] at hwaits
    obtain ⟨y, hy, hyblocks⟩ := h.blocks false x hx hwaits
    exact (c.input.waits_iff_blocking).mp ⟨y, hy, y.waits_iff.mpr hyblocks⟩
  · intro hblocks
    rw [Transform.blocks_continueImports] at hblocks
    exact (Module.blocks_iff_blocksInMember hblocking).mp (h.blocks true x hx hblocks)

/-! ## Untouched importers -/

/-- A chunk that does not wait awaits the promises of such chunks only that import dynamically. -/
theorem Build.awaited_dynamicImport {settings : Settings} {chunks : List Chunk} {out : Output}
    {compiled : List Compiled} {b : Compiled} (h : Build settings chunks out compiled)
    (hb : b ∈ compiled) (hwaiting : out.bundle.isWaiting b.input.name = false)
    {d : ImportDeclaration} (hd : d ∈ b.input.awaited out.bundle) :
    ∃ c ∈ compiled, resolve? b.input.name d.source.name.toString = some c.input.name ∧
      c.input.blocking = some .dynamicImport := by
  obtain ⟨hmem, target, htarget, htransformed⟩ := Module.mem_awaited.mp hd
  obtain ⟨m, hm, rfl⟩ := h.linked.module_of_isTransformed htransformed
  obtain ⟨c, hc, rfl⟩ := List.mem_map.mp hm
  have himports := Module.mem_imports hmem htarget
  have hidle : out.bundle.isWaiting c.input.name = false := by
    refine Bool.eq_false_iff.mpr fun hc' => Bool.eq_false_iff.mp hwaiting ?_
    exact h.linked.isWaiting_of_imports _ (List.mem_map_of_mem hb) _ hm himports hc'
  exact ⟨c, hc, htarget, h.linked.blocking_eq_dynamicImport hm hidle htransformed⟩

/-- How the closure of a chunk runs that is transformed for a dynamic import only. -/
structure Compiled.Defers (settings : Settings) (bundle : Bundle) (compiled : List Compiled)
    (b : Compiled) (names : List String) (body : List Node) : Prop where
  exports : b.program.ExportsCompletion settings.promiseName
    (Transform.completion names (Make.arrow true [] body))
  /-- The closure runs at once exactly if the chunk imports no transformed chunk. -/
  atOnce : Transform.completion names (Make.arrow true [] body) =
    Make.immediately (Make.arrow true [] body) ↔ b.input.awaited bundle = []
  /-- What it is deferred for are chunks that are transformed for a dynamic import, too. -/
  dynamicImport : ∀ d ∈ b.input.awaited bundle, ∃ c ∈ compiled,
    resolve? b.input.name d.source.name.toString = some c.input.name ∧
      c.input.blocking = some .dynamicImport
  /-- The closure blocks exactly in the members of classes. -/
  blocks : (∃ s ∈ body, s.Blocks true) ↔ ∃ s ∈ body, s.BlocksInMember
  /-- These members stand in the chunk. -/
  blocksInMember : (∃ s ∈ body, s.Blocks true) → b.input.program.BlocksInMember

/-- In the output of a build, the closure of a transformed chunk that an untouched chunk imports
runs at once exactly if the transformed chunk imports no other one, and blocks exactly in the
members of classes. -/
theorem transform_defers {settings : Settings} {chunks : List Chunk} {out : Output}
    (h : transform settings chunks = .ok out) :
    ∃ compiled, Build settings chunks out compiled ∧
      ∀ a ∈ compiled, out.bundle.isTransformed a.input.name = false →
        ∀ d ∈ a.input.program.importDeclarations, ∀ b ∈ compiled,
          resolve? a.input.name d.source.name.toString = some b.input.name →
            out.bundle.isTransformed b.input.name = true →
              ∃ names body, b.Defers settings out.bundle compiled names body := by
  obtain ⟨compiled, hbuild⟩ := transform_eq_ok_iff.mp h
  refine ⟨compiled, hbuild, fun a ha huntouched d hd b hb htarget htransformed => ?_⟩
  have himports := Module.mem_imports hd htarget
  have hwaiting := hbuild.linked.isWaiting_eq_false_of_imports (List.mem_map_of_mem ha)
    (List.mem_map_of_mem hb) himports huntouched
  -- what an untouched chunk imports does not wait, so a dynamic import is why it was transformed
  have hblocking : b.input.blocking ≠ some .topLevelAwait := by
    rw [hbuild.linked.blocking_eq_dynamicImport (List.mem_map_of_mem hb) hwaiting htransformed]
    exact nofun
  obtain ⟨items, body, hassembled⟩ := hbuild.exists_assembled hb htransformed
  refine ⟨_, _, hbuild.exportsCompletion_of_imports ha hb himports hassembled, ?_, ?_, ?_, ?_⟩
  · exact Transform.completion_eq_immediately_iff.trans hassembled.awaitedNames_eq_nil
  · exact fun d hd => hbuild.awaited_dynamicImport hb hwaiting hd
  · exact exists_congr fun s => and_congr_right fun hs =>
      (hassembled.closure_blocks hblocking hs).1
  · rintro ⟨s, hs, hblocks⟩
    exact (hassembled.closure_blocks hblocking hs).2 hblocks

/-- A chunk that imports a chunk with a dynamic import, which imports another one. -/
def dynamicChain : List Chunk :=
  [⟨"a.js", "import './b.js'"⟩, ⟨"b.js", "import './c.js'; export let x = import('z')"⟩,
    ⟨"c.js", "import('z')"⟩]

/-- The first chunk is left untouched, and the second one awaits the third one. -/
theorem exists_build_dynamicChain :
    ∃ out compiled, transform {} dynamicChain = .ok out ∧ Build {} dynamicChain out compiled ∧
      ∃ a ∈ compiled, out.bundle.isTransformed a.input.name = false ∧
        ∃ d ∈ a.input.program.importDeclarations, ∃ b ∈ compiled,
          resolve? a.input.name d.source.name.toString = some b.input.name ∧
            out.bundle.isTransformed b.input.name = true ∧ b.input.awaited out.bundle ≠ [] := by
  obtain ⟨out, compiled, hout, hbuild, m, hm, huntouched, d, hd, target, htarget, hedge⟩ :=
    exists_build {} dynamicChain
      (fun modules =>
        ∃ a ∈ modules, (Bundle.ofModules modules).propagate.isTransformed a.name = false ∧
          ∃ d ∈ a.program.importDeclarations, ∃ b ∈ modules,
            resolve? a.name d.source.name.toString = some b.name ∧
              (Bundle.ofModules modules).propagate.isTransformed b.name = true ∧
              b.awaited (Bundle.ofModules modules).propagate ≠ [])
      (by decide +kernel)
  obtain ⟨a, ha, rfl⟩ := List.mem_map.mp hm
  obtain ⟨b, hb, rfl⟩ := List.mem_map.mp htarget
  rw [← hbuild.bundle] at huntouched hedge
  exact ⟨out, compiled, hout, hbuild, a, ha, huntouched, d, hd, b, hb, hedge⟩

/-- A chain of three chunks, the last two of which have dynamic imports. -/
theorem transform_defers_dynamicChain :
    ∃ out compiled, transform {} dynamicChain = .ok out ∧ Build {} dynamicChain out compiled ∧
      ∃ b ∈ compiled, b.input.awaited out.bundle ≠ [] ∧
        ∃ names body, b.Defers {} out.bundle compiled names body := by
  obtain ⟨out, compiled, hout, hbuild, a, ha, huntouched, d, hd, b, hb, htarget, htransformed,
    hawaited⟩ := exists_build_dynamicChain
  obtain ⟨compiled', hbuild', hdefers⟩ := transform_defers hout
  obtain rfl := hbuild.unique hbuild'
  exact ⟨out, compiled, hout, hbuild, b, hb, hawaited,
    hdefers a ha huntouched d hd b hb htarget htransformed⟩

/-- The exports of the second chunk are assigned late, and the first chunk does not wait. -/
theorem deferred_dynamicChain :
    ∃ out compiled, transform {} dynamicChain = .ok out ∧ Build {} dynamicChain out compiled ∧
      ∃ a ∈ compiled, out.bundle.isTransformed a.input.name = false ∧
        ∃ d ∈ a.input.program.importDeclarations, ∃ b ∈ compiled,
          resolve? a.input.name d.source.name.toString = some b.input.name ∧
            out.bundle.isTransformed b.input.name = true ∧ ∃ reads body,
              b.program.ExportsCompletion "__tla"
                (Make.afterAll (Make.array reads) (Make.arrow true [] body)) := by
  obtain ⟨out, compiled, hout, hbuild, a, ha, huntouched, d, hd, b, hb, htarget, htransformed,
    hawaited⟩ := exists_build_dynamicChain
  refine ⟨out, compiled, hout, hbuild, a, ha, huntouched, d, hd, b, hb, htarget, htransformed, ?_⟩
  obtain ⟨items, body, hassembled⟩ := hbuild.exists_assembled hb htransformed
  have hexports := hbuild.exportsCompletion_of_imports ha hb (Module.mem_imports hd htarget)
    hassembled
  rw [Transform.completion, if_neg] at hexports
  · exact ⟨_, _, hexports⟩
  · rw [List.isEmpty_iff, hassembled.awaitedNames_eq_nil]
    exact hawaited

end Awaitless
