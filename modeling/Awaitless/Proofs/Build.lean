import Awaitless.Proofs.Failure
import Awaitless.Proofs.Link
import Awaitless.Proofs.Script.Parsing.Module

/-!
# The programs of a build

A build takes several stages, and each may fail: names may repeat, texts may not be readable,
modules may not be transformable. A successful build is described here by what it has made at every
stage (`Build`), so that results about its output need not run the stages again. They start by
taking the description from `transform_eq_ok_iff`, and look at one chunk of it.

What is read has passed the check of its source; everything that is known of the grammar and of the
rules beyond it enters the theory of the output through this (`Build.check`, `Build.isItem`).

* `Compiled` — a chunk of a build: the module that was read, and the program that is printed.
* `Build`, `transform_eq_ok_iff` — a build succeeds exactly if all chunks can be read and turned
  into programs; its output holds their text.
* `Build.linked` — its records are those of the linked modules.
* `Build.names_chunks` — its chunks have the names of the input.
* `Build.check`, `Build.isItem` — what has been read is as the grammar and the rules have it.
* `exists_build` — builds of given chunks, from a run.
-/

namespace Awaitless

open Script

/-! ## Chunks -/

/-- A chunk of a build. -/
structure Compiled where
  /-- The module that was read. -/
  input : Module
  /-- What the output holds. -/
  program : Program

/-- The program that a module turns into. -/
def Module.result (settings : Settings) (bundle : Bundle) (m : Module) :
    Except UnsupportedShape Program :=
  if bundle.isTransformed m.name then
    Transform.program ⟨m.name, bundle, settings⟩ m.source m.program
  else .ok m.program

/-- The text of the output: an untouched chunk keeps its own. -/
def Compiled.output (settings : Settings) (bundle : Bundle) (c : Compiled) : OutputChunk :=
  if bundle.isTransformed c.input.name then
    ⟨c.input.name, c.program.text settings.minify, true⟩
  else ⟨c.input.name, c.input.source, false⟩

/-- A chunk keeps its name, whatever becomes of its text. -/
theorem Compiled.name_output (settings : Settings) (bundle : Bundle) (c : Compiled) :
    (c.output settings bundle).name = c.input.name := by
  unfold output
  split <;> rfl

/-- What is generated is the text of a program. -/
theorem Module.generate_eq_map (settings : Settings) (bundle : Bundle) (m : Module) :
    m.generate settings bundle =
      (m.result settings bundle).map fun p => Compiled.output settings bundle ⟨m, p⟩ := by
  unfold generate result Compiled.output
  split
  · cases Transform.program ⟨m.name, bundle, settings⟩ m.source m.program <;> rfl
  · rfl

/-! ## Sources -/

/-- A chunk that is accepted could be read, and keeps all rules. -/
theorem Source.check_eq_ok {name text : String} {p : Program}
    (h : Source.check name text = .ok p) :
    Program.parse text false = .ok p ∧ p.earlyErrors = [] := by
  obtain ⟨program, hread, h⟩ := exists_of_bind_eq_ok h
  split at h
  · rename_i hrules
    cases h
    unfold Source.read at hread
    split at hread
    · rename_i hparse
      cases hread
      exact ⟨hparse, hrules⟩
    · cases hread
  · cases h

/-- A chunk that is accepted consists of items. -/
theorem Source.isItem_of_check {name text : String} {p : Program}
    (h : Source.check name text = .ok p) : ∀ s ∈ p.statements, s.IsItem :=
  Program.isItem_of_parse (Source.check_eq_ok h).1

/-! ## Builds -/

/-- How a build succeeds. -/
structure Build (settings : Settings) (chunks : List Chunk) (out : Output)
    (compiled : List Compiled) : Prop where
  read : chunks.map Chunk.read = compiled.map fun c => .ok c.input
  nodup : (compiled.map (·.input.name)).Nodup
  bundle : out.bundle = (Bundle.ofModules (compiled.map (·.input))).propagate
  result : ∀ c ∈ compiled, c.input.result settings out.bundle = .ok c.program
  chunks : out.chunks = compiled.map (·.output settings out.bundle)
  warnings : out.warnings = missingModules (compiled.map (·.input))

theorem name_of_read {c : Chunk} {m : Module} (h : c.read = .ok m) : m.name = c.name := by
  obtain ⟨program, -, rfl⟩ := exists_of_map_eq_ok h
  rfl

theorem isItem_of_read {c : Chunk} {m : Module} (h : c.read = .ok m) :
    ∀ s ∈ m.program.statements, s.IsItem := by
  obtain ⟨program, hcheck, rfl⟩ := exists_of_map_eq_ok h
  exact Source.isItem_of_check hcheck

/-- Reading renames nothing. -/
theorem names_of_read {chunks : List Chunk} {modules : List Module}
    (h : chunks.map Chunk.read = modules.map .ok) :
    modules.map (·.name) = chunks.map (·.name) := by
  induction chunks generalizing modules with
  | nil =>
    cases modules with
    | nil => rfl
    | cons m modules => cases h
  | cons c chunks ih =>
    cases modules with
    | nil => cases h
    | cons m modules =>
      rw [List.map_cons, List.map_cons, List.cons.injEq] at h
      rw [List.map_cons, List.map_cons, ih h.2, name_of_read h.1]

/-- Nothing is repeated where all members are distinct. -/
theorem repeated_eq_nil_iff {names : List String} : repeated names = [] ↔ names.Nodup := by
  rw [repeated, repeatedAfter_eq_nil]
  exact and_iff_left fun _ _ => List.not_mem_nil

/-- Chunks with distinct names are read one by one. -/
theorem readAll_eq_gather {chunks : List Chunk} (h : (chunks.map (·.name)).Nodup) :
    readAll chunks = gather (chunks.map Chunk.read) := by
  rw [readAll, repeated_eq_nil_iff.mpr h]

/-- All chunks are read if each can be read and no name repeats. -/
theorem readAll_eq_ok_iff {chunks : List Chunk} {modules : List Module} :
    readAll chunks = .ok modules ↔
      chunks.map Chunk.read = modules.map .ok ∧ (modules.map (·.name)).Nodup := by
  unfold readAll
  split
  · rename_i hrepeated
    rw [gather_eq_ok_iff]
    refine ⟨fun h => ⟨h, ?_⟩, fun h => h.1⟩
    -- a module keeps the name of its chunk
    rw [names_of_read h]
    exact repeated_eq_nil_iff.mp hrepeated
  · rename_i hrepeated
    refine iff_of_false nofun fun h => hrepeated (repeated_eq_nil_iff.mpr ?_)
    rw [← names_of_read h.1]
    exact h.2

/-- Modules that have been read turn into an output if each turns into a chunk of it. -/
theorem transformModules_eq_ok_iff {settings : Settings} {modules : List Module} {out : Output} :
    transformModules settings modules = .ok out ↔
      out.bundle = (Bundle.ofModules modules).propagate ∧
        modules.map (Module.generate settings out.bundle) = out.chunks.map .ok ∧
        out.warnings = missingModules modules := by
  obtain ⟨chunks, bundle, warnings⟩ := out
  unfold transformModules
  dsimp only
  constructor
  · intro h
    obtain ⟨chunks, hchunks, h⟩ := exists_of_bind_eq_ok h
    cases h
    exact ⟨rfl, gather_eq_ok_iff.mp hchunks, rfl⟩
  · rintro ⟨rfl, hchunks, rfl⟩
    rw [gather_eq_ok_iff.mpr hchunks]
    rfl

/-- A build reads first, and goes on with what it has read. -/
theorem transform_eq_ok_iff_modules {settings : Settings} {chunks : List Chunk} {out : Output} :
    transform settings chunks = .ok out ↔
      ∃ modules, readAll chunks = .ok modules ∧ transformModules settings modules = .ok out := by
  unfold transform
  constructor
  · intro h
    obtain ⟨modules, hread, h⟩ := exists_of_bind_eq_ok h
    exact ⟨modules, hread, mapError_eq_ok_iff.mp h⟩
  · rintro ⟨modules, hread, h⟩
    rw [hread]
    exact mapError_eq_ok_iff.mpr h

/-- Modules turn into chunks exactly by way of programs. -/
theorem exists_compiled {settings : Settings} {bundle : Bundle} {modules : List Module}
    {chunks : List OutputChunk}
    (h : modules.map (Module.generate settings bundle) = chunks.map .ok) :
    ∃ compiled : List Compiled, compiled.map (·.input) = modules ∧
      (∀ c ∈ compiled, c.input.result settings bundle = .ok c.program) ∧
      compiled.map (·.output settings bundle) = chunks := by
  induction modules generalizing chunks with
  | nil =>
    cases chunks with
    | nil => exact ⟨[], rfl, nofun, rfl⟩
    | cons _ _ => cases h
  | cons m modules ih =>
    cases chunks with
    | nil => cases h
    | cons chunk chunks =>
      rw [List.map_cons, List.map_cons, List.cons.injEq, Module.generate_eq_map] at h
      obtain ⟨hchunk, hrest⟩ := h
      -- modules and chunks are as many, so both rows are taken apart together
      obtain ⟨compiled, hmodules, hresult, hchunks⟩ := ih hrest
      obtain ⟨program, hprogram, rfl⟩ := exists_of_map_eq_ok hchunk
      refine ⟨⟨m, program⟩ :: compiled, ?_, ?_, ?_⟩
      · rw [List.map_cons, hmodules]
      · exact List.forall_mem_cons.mpr ⟨hprogram, hresult⟩
      · rw [List.map_cons, hchunks]

namespace Build

variable {settings : Settings} {chunks : List Chunk} {out : Output} {compiled : List Compiled}
  (h : Build settings chunks out compiled)
include h

/-- The modules are what was read from the chunks. -/
theorem read_inputs : chunks.map Chunk.read = (compiled.map (·.input)).map .ok := by
  rw [List.map_map]
  exact h.read

theorem nodup_inputs : ((compiled.map (·.input)).map (·.name)).Nodup := by
  rw [List.map_map]
  exact h.nodup

theorem readAll_eq : readAll chunks = .ok (compiled.map (·.input)) :=
  readAll_eq_ok_iff.mpr ⟨h.read_inputs, h.nodup_inputs⟩

theorem transformModules_eq : transformModules settings (compiled.map (·.input)) = .ok out := by
  rw [transformModules_eq_ok_iff]
  refine ⟨h.bundle, ?_, h.warnings⟩
  rw [h.chunks, List.map_map, List.map_map]
  refine List.map_congr_left fun c hc => ?_
  show c.input.generate settings out.bundle = _
  rw [Module.generate_eq_map, h.result c hc]
  rfl

end Build

/-- What a build results in, and how. -/
theorem transform_eq_ok_iff {settings : Settings} {chunks : List Chunk} {out : Output} :
    transform settings chunks = .ok out ↔ ∃ compiled, Build settings chunks out compiled := by
  rw [transform_eq_ok_iff_modules]
  constructor
  · rintro ⟨modules, hread, hout⟩
    obtain ⟨hread, hnodup⟩ := readAll_eq_ok_iff.mp hread
    obtain ⟨hbundle, hchunks, hwarnings⟩ := transformModules_eq_ok_iff.mp hout
    obtain ⟨compiled, rfl, hresult, hcompiled⟩ := exists_compiled hchunks
    rw [List.map_map] at hread hnodup
    exact ⟨compiled, hread, hnodup, hbundle, hresult, hcompiled.symm, hwarnings⟩
  · rintro ⟨compiled, h⟩
    exact ⟨_, h.readAll_eq, h.transformModules_eq⟩

/-- Only one program can come from each chunk. -/
theorem Build.unique {settings : Settings} {chunks : List Chunk} {out : Output}
    {compiled compiled' : List Compiled} (h : Build settings chunks out compiled)
    (h' : Build settings chunks out compiled') : compiled = compiled' := by
  -- chunk by chunk: the same module was read, and it has one result
  have hlists : ∀ xs ys : List Compiled,
      (xs.map fun c => Except.ok (ε := Problem) c.input) = (ys.map fun c => .ok c.input) →
      (∀ c ∈ xs, c.input.result settings out.bundle = .ok c.program) →
      (∀ c ∈ ys, c.input.result settings out.bundle = .ok c.program) → xs = ys := by
    intro xs
    induction xs with
    | nil =>
      intro ys hinputs _ _
      exact (List.map_eq_nil_iff.mp hinputs.symm).symm
    | cons x xs ih =>
      intro ys hinputs hxs hys
      cases ys with
      | nil => cases hinputs
      | cons y ys =>
        obtain ⟨hinput, hrest⟩ := List.cons.inj hinputs
        obtain ⟨hx, hxs'⟩ := List.forall_mem_cons.mp hxs
        obtain ⟨hy, hys'⟩ := List.forall_mem_cons.mp hys
        obtain ⟨input, program⟩ := x
        obtain ⟨input', program'⟩ := y
        obtain rfl : input = input' := Except.ok.inj hinput
        obtain rfl : program = program' := Except.ok.inj (hx.symm.trans hy)
        rw [ih ys hrest hxs' hys']
  exact hlists compiled compiled' (h.read.symm.trans h'.read) h.result h'.result

namespace Build

variable {settings : Settings} {chunks : List Chunk} {out : Output} {compiled : List Compiled}
  (h : Build settings chunks out compiled) {c : Compiled}
include h

/-- The records of a build are those of its modules. -/
theorem linked : Linked (compiled.map (·.input)) out.bundle := by
  rw [h.bundle]
  exact linked_propagate h.nodup_inputs

/-- Every chunk of a build has been accepted. -/
theorem check (hc : c ∈ compiled) :
    Source.check c.input.name c.input.source = .ok c.input.program := by
  obtain ⟨chunk, -, hread⟩ := exists_of_mem_values h.read_inputs (List.mem_map_of_mem hc)
  obtain ⟨program, hcheck, hinput⟩ := exists_of_map_eq_ok hread
  rw [← hinput]
  exact hcheck

/-- A chunk that could be read consists of items. -/
theorem isItem (hc : c ∈ compiled) : ∀ s ∈ c.input.program.statements, s.IsItem :=
  Source.isItem_of_check (h.check hc)

/-- The output has the chunks of the input; their names are distinct. -/
theorem names_chunks : out.chunks.map (·.name) = chunks.map (·.name) ∧
    (chunks.map (·.name)).Nodup := by
  have hinputs := names_of_read h.read_inputs
  refine ⟨?_, hinputs ▸ h.nodup_inputs⟩
  rw [← hinputs, h.chunks, List.map_map, List.map_map]
  exact List.map_congr_left fun c _ => c.name_output settings out.bundle

/-- A chunk that is left untouched holds what was read. -/
theorem program_eq_of_untouched (hc : c ∈ compiled)
    (huntouched : out.bundle.isTransformed c.input.name = false) : c.program = c.input.program := by
  have hresult := h.result c hc
  rw [Module.result, huntouched] at hresult
  exact (Except.ok.inj hresult).symm

/-- A chunk that is transformed holds the transformed module. -/
theorem program_eq_ok_of_transformed (hc : c ∈ compiled)
    (htransformed : out.bundle.isTransformed c.input.name = true) :
    Transform.program ⟨c.input.name, out.bundle, settings⟩ c.input.source c.input.program =
      .ok c.program := by
  have hresult := h.result c hc
  rw [Module.result, htransformed] at hresult
  exact hresult

end Build

/-! ## Builds that are run -/

/-- Whether a build succeeds, from modules with a property. -/
def succeedsFrom (settings : Settings) (chunks : List Chunk) (p : List Module → Prop)
    [DecidablePred p] : Bool :=
  match readAll chunks with
  | .ok modules => (transformModules settings modules).isOk && decide (p modules)
  | .error _ => false

/-- Running a build gives its description, together with whatever has been computed of its modules.
-/
theorem exists_build (settings : Settings) (chunks : List Chunk) (p : List Module → Prop)
    [DecidablePred p] (h : succeedsFrom settings chunks p = true) :
    ∃ out compiled, transform settings chunks = .ok out ∧ Build settings chunks out compiled ∧
      p (compiled.map (·.input)) := by
  unfold succeedsFrom at h
  split at h
  · rename_i modules hread
    rw [Bool.and_eq_true, decide_eq_true_iff] at h
    obtain ⟨out, hout⟩ := exists_of_isOk h.1
    have htransform := transform_eq_ok_iff_modules.mpr ⟨modules, hread, hout⟩
    obtain ⟨compiled, hbuild⟩ := transform_eq_ok_iff.mp htransform
    obtain rfl := Except.ok.inj (hread.symm.trans hbuild.readAll_eq)
    exact ⟨out, compiled, htransform, hbuild, h.2⟩
  · cases h

end Awaitless
