import Awaitless.Proofs.Build
import Awaitless.Proofs.Script.Searching
import Awaitless.Proofs.Transform.Assembly

/-!
# What blocks in the output of a build

Transforming chunks is to rid them of everything that waits. A transformed chunk runs its statements
in a closure, so nothing in its own body blocks, whatever the statements hold. An untouched chunk is
left as it was because the classifier found nothing in it. The classifier looks at all that a body
evaluates but the members of classes, so the two cases leave one gap, and the theorem says where it
is: an untouched chunk blocks exactly if a decorator or a computed name of a class member does.

* `Program.Blocks` — evaluating the body of a module evaluates something that blocks.
* `Build.not_blocks_of_transformed` — transformed chunks never block.
* `transform_blocks_iff` — an untouched chunk blocks exactly if a member of a class does, which the
  classifier does not look at.
-/

namespace Awaitless

namespace Script.Program

/-- Evaluating the body of the module evaluates something that blocks. -/
def Blocks (p : Program) : Prop :=
  ∃ s ∈ p.statements, s.Blocks true

/-- Evaluating the body of the module evaluates a class with a member whose decorators or computed
name block. -/
def BlocksInMember (p : Program) : Prop :=
  ∃ s ∈ p.statements, s.BlocksInMember

instance (p : Program) : Decidable p.Blocks :=
  inferInstanceAs (Decidable (∃ s ∈ p.statements, s.Blocks true))

end Script.Program

open Script

/-- The classifier finds what waits. -/
theorem Script.waits_iff_blockingOf (statements : List Node) :
    (∃ s ∈ statements, s.waits = true) ↔ blockingOf statements = some .topLevelAwait := by
  rw [← List.any_eq_true, blockingOf_eq]
  split
  · rename_i hwaits
    simp [hwaits]
  · rename_i hwaits
    refine iff_of_false hwaits ?_
    split <;> exact nofun

/-- Where nothing waits, the classifier finds dynamic imports. -/
theorem Script.importsDynamically_iff_blockingOf {statements : List Node}
    (h : blockingOf statements ≠ some .topLevelAwait) :
    (∃ s ∈ statements, s.importsDynamically = true) ↔
      blockingOf statements = some .dynamicImport := by
  rw [← List.any_eq_true]
  rw [blockingOf_eq] at h ⊢
  split at h
  · exact absurd rfl h
  · rename_i hwaits
    rw [if_neg hwaits]
    split
    · rename_i hdynamic
      exact iff_of_true hdynamic rfl
    · rename_i hdynamic
      exact iff_of_false hdynamic nofun

/-- What the classifier of a module says about its statements. -/
theorem Module.waits_iff_blocking (m : Module) :
    (∃ s ∈ m.program.statements, s.waits = true) ↔ m.blocking = some .topLevelAwait :=
  waits_iff_blockingOf m.program.statements

/-- Where the classifier finds nothing that waits, only members of classes block. -/
theorem Module.blocks_iff_blocksInMember {m : Module} (h : m.blocking ≠ some .topLevelAwait) :
    m.program.Blocks ↔ m.program.BlocksInMember := by
  rw [ne_eq, ← m.waits_iff_blocking] at h
  refine exists_congr fun s => and_congr_right fun hs => ?_
  rw [s.blocks_iff_waits_or]
  exact or_iff_right fun hwaits => h ⟨s, hs, hwaits⟩

namespace Build

variable {settings : Settings} {chunks : List Chunk} {out : Output} {compiled : List Compiled}
  {c : Compiled}

/-- Nothing blocks in a transformed chunk. -/
theorem not_blocks_of_transformed (h : Build settings chunks out compiled) (hc : c ∈ compiled)
    (htransformed : out.bundle.isTransformed c.input.name = true) : ¬ c.program.Blocks := by
  obtain ⟨items, body, -, -, hprogram⟩ :=
    Transform.program_eq_ok_iff.mp (h.program_eq_ok_of_transformed hc htransformed)
  rintro ⟨s, hs, hblocks⟩
  rw [hprogram] at hs
  exact Transform.not_blocks_of_mem_assemble hs hblocks

/-- An untouched chunk is the chunk that was read. -/
theorem blocks_iff_of_untouched (h : Build settings chunks out compiled) (hc : c ∈ compiled)
    (huntouched : out.bundle.isTransformed c.input.name = false) :
    c.program.Blocks ↔ c.input.program.BlocksInMember := by
  rw [h.program_eq_of_untouched hc huntouched]
  refine Module.blocks_iff_blocksInMember ?_
  rw [h.linked.blocking_eq_none (List.mem_map_of_mem hc) huntouched]
  exact nofun

end Build

/-- In the output of a build, exactly those chunks block that are left untouched although they
evaluate a class with a member whose decorators or computed name block. -/
theorem transform_blocks_iff {settings : Settings} {chunks : List Chunk} {out : Output}
    (h : transform settings chunks = .ok out) :
    ∃ compiled, Build settings chunks out compiled ∧
      ∀ c ∈ compiled, c.program.Blocks ↔
        out.bundle.isTransformed c.input.name = false ∧ c.input.program.BlocksInMember := by
  obtain ⟨compiled, hbuild⟩ := transform_eq_ok_iff.mp h
  refine ⟨compiled, hbuild, fun c hc => ?_⟩
  cases htransformed : out.bundle.isTransformed c.input.name with
  | true => exact iff_of_false (hbuild.not_blocks_of_transformed hc htransformed) nofun
  | false =>
    rw [hbuild.blocks_iff_of_untouched hc htransformed]
    exact (and_iff_right rfl).symm

/-- A chunk that waits, alone in its build. -/
theorem transform_blocks_iff_await :
    ∃ out compiled, transform {} [⟨"a.js", "await 0"⟩] = .ok out ∧
      Build {} [⟨"a.js", "await 0"⟩] out compiled ∧ ∀ c ∈ compiled, c.program.Blocks ↔
        out.bundle.isTransformed c.input.name = false ∧ c.input.program.BlocksInMember := by
  obtain ⟨out, hout⟩ := exists_of_isOk (x := transform {} [⟨"a.js", "await 0"⟩]) (by decide +kernel)
  obtain ⟨compiled, hbuild, hblocks⟩ := transform_blocks_iff hout
  exact ⟨out, compiled, hout, hbuild, hblocks⟩

/-- A member with a computed name that waits. -/
def blockingMember : Chunk :=
  ⟨"a.js", "class A { [await x]() {} }"⟩

/-- The classifier overlooks the member, and the chunk that is left untouched blocks. -/
theorem blocks_blockingMember :
    ∃ out compiled, transform {} [blockingMember] = .ok out ∧
      Build {} [blockingMember] out compiled ∧ ∃ c ∈ compiled, c.program.Blocks := by
  obtain ⟨out, compiled, hout, hbuild, m, hm, huntouched, hblocks⟩ :=
    exists_build {} [blockingMember]
      (fun modules => ∃ m ∈ modules,
        (Bundle.ofModules modules).propagate.isTransformed m.name = false ∧ m.program.Blocks)
      (by decide +kernel)
  obtain ⟨c, hc, rfl⟩ := List.mem_map.mp hm
  rw [← hbuild.bundle] at huntouched
  refine ⟨out, compiled, hout, hbuild, c, hc, ?_⟩
  rwa [hbuild.program_eq_of_untouched hc huntouched]

end Awaitless
