import Awaitless.Proofs.DynamicImports
import Awaitless.Proofs.Transform.Surroundings

/-!
# What a transformed chunk depends on

The same chunk may be part of two builds. If both transform it, its text in the output is the same,
unless one of three things about its direct neighbours has changed: whether anyone imports it, which
of its imports are transformed, and which of its dynamic imports lead to untouched chunks. The rest
of either build may be anything at all, other chunks, other edges, or chunks that wait for others.

The transformation itself asks no more than this (`Transform.program_congr`), so what has to be
shown is that a bundle answers the three questions from the records of the neighbours.

* `Bundle.Imports` — a chunk of a bundle imports another one statically.
* `Module.SeesAlike` — two bundles look the same from a module.
* `Module.generate_congr` — then the module turns into the same chunk.
* `transform_depends_on_neighbours` — so both builds give the same chunk, whatever the other chunks
  are.
-/

namespace Awaitless

open Script

/-- Some chunk of the bundle imports the name statically. -/
def Bundle.Imports (b : Bundle) (name : String) : Prop :=
  ∃ r ∈ b.records, name ∈ r.imports

/-- The chunk of the output with the given name. -/
def Output.chunk? (out : Output) (name : String) : Option OutputChunk :=
  out.chunks.find? fun o => o.name = name

/-- Two bundles look the same from a module. -/
structure Module.SeesAlike (m : Module) (b b' : Bundle) : Prop where
  /-- The module is imported statically in both or in neither. -/
  imported : b.Imports m.name ↔ b'.Imports m.name
  /-- An import declaration leads to a transformed chunk in both or in neither. -/
  declarations : ∀ d ∈ m.program.importDeclarations, ∀ target,
    resolve? m.name d.source.name.toString = some target →
      b.isTransformed target = b'.isTransformed target
  /-- A dynamic import leads to an untouched chunk in both or in neither. -/
  calls : ∀ call, m.program.Contains call → ∀ target, call.dynamicTarget? m.name = some target →
    b.isUntouched target = b'.isUntouched target

/-- The calls of a program are what stands in it and is a call. -/
theorem Script.Program.mem_calls_iff {p : Program} {call : Node} :
    call ∈ p.statements.flatMap Node.calls ↔
      p.Contains call ∧ call.form.isDynamicImport = true := by
  simp only [List.mem_flatMap, Node.mem_calls_iff, Program.Contains]
  exact ⟨fun ⟨s, hs, hcall, hform⟩ => ⟨⟨s, hs, hcall⟩, hform⟩,
    fun ⟨⟨s, hs, hcall⟩, hform⟩ => ⟨s, hs, hcall, hform⟩⟩

section Linked

variable {modules modules' : List Module} {b b' : Bundle} {m : Module} {settings : Settings}

/-- Whether anyone imports a name can be asked of the modules. -/
theorem Linked.imports_iff (h : Linked modules b) (hnodup : b.names.Nodup) {name : String} :
    b.Imports name ↔ ∃ m ∈ modules, name ∈ m.imports := by
  constructor
  · rintro ⟨r, hr, hname⟩
    obtain ⟨m, hm, hlinked⟩ := h.exists_of_mem_records hnodup hr
    exact ⟨m, hm, hlinked.imports ▸ hname⟩
  · rintro ⟨m, hm, hname⟩
    obtain ⟨r, hr, hlinked⟩ := h.record m hm
    exact ⟨r, List.mem_of_find?_eq_some hr, hlinked.imports.symm ▸ hname⟩

/-- A module that looks the same to itself asks for the same promise. -/
theorem Linked.isImported_congr (h : Linked modules b) (h' : Linked modules' b')
    (hnodup : b.names.Nodup) (hnodup' : b'.names.Nodup) (hm : m ∈ modules) (hm' : m ∈ modules')
    (himported : b.Imports m.name ↔ b'.Imports m.name) :
    Transform.Surroundings.isImported ⟨m.name, b, settings⟩ =
      Transform.Surroundings.isImported ⟨m.name, b', settings⟩ := by
  rw [h.imports_iff hnodup, h'.imports_iff hnodup'] at himported
  exact Bool.eq_iff_iff.mpr
    ((h.hasImporters_iff hm).trans (himported.trans (h'.hasImporters_iff hm').symm))

/-- From two bundles that look the same to it, a module turns into the same chunk. -/
theorem Module.generate_congr (h : Linked modules b) (h' : Linked modules' b')
    (hnodup : b.names.Nodup) (hnodup' : b'.names.Nodup) (hm : m ∈ modules) (hm' : m ∈ modules')
    (hitems : ∀ s ∈ m.program.statements, s.IsItem)
    (htransformed : b.isTransformed m.name = b'.isTransformed m.name) (hsees : m.SeesAlike b b') :
    m.generate settings b = m.generate settings b' := by
  have hprogram : Transform.program ⟨m.name, b, settings⟩ m.source m.program =
      Transform.program ⟨m.name, b', settings⟩ m.source m.program := by
    refine Transform.program_congr hitems
      (h.isImported_congr h' hnodup hnodup' hm hm' hsees.imported) (fun d hd => ?_) ?_
    · rw [isFromTransformed_eq, isFromTransformed_eq]
      cases htarget : resolve? m.name d.source.name.toString with
      | none => rfl
      | some target => exact hsees.declarations d hd target htarget
    · exact fun call hcall => hsees.calls call (Program.mem_calls_iff.mp hcall).1
  unfold generate
  rw [htransformed, hprogram]

end Linked

namespace Build

variable {settings : Settings} {chunks : List Chunk} {out : Output} {compiled : List Compiled}
  (h : Build settings chunks out compiled) {c : Compiled}
include h

theorem nodup_names : out.bundle.names.Nodup := by
  rw [h.bundle, Bundle.names_propagate h.nodup_inputs]
  exact h.nodup_inputs

theorem exists_of_mem {chunk : Chunk} (hchunk : chunk ∈ chunks) :
    ∃ c ∈ compiled, chunk.read = .ok c.input := by
  obtain ⟨m, hm, hread⟩ := exists_value_of_mem h.read_inputs hchunk
  obtain ⟨c, hc, rfl⟩ := List.mem_map.mp hm
  exact ⟨c, hc, hread⟩

/-- The chunk of a build is what its module generates. -/
theorem generate_eq (hc : c ∈ compiled) :
    c.input.generate settings out.bundle = .ok (c.output settings out.bundle) := by
  rw [Module.generate_eq_map, h.result c hc]
  rfl

/-- The output holds the text of every chunk under its name. -/
theorem chunk?_eq (hc : c ∈ compiled) :
    out.chunk? c.input.name = some (c.output settings out.bundle) := by
  rw [Output.chunk?, h.chunks, List.find?_map]
  have hfind : compiled.find? (fun x => x.input.name = c.input.name) = some c := by
    cases hfound : compiled.find? (fun x => x.input.name = c.input.name) with
    | none => simpa using List.find?_eq_none.mp hfound c hc
    | some x =>
      have hx := List.mem_of_find?_eq_some hfound
      have hsame : x.input.name = c.input.name := by simpa using List.find?_some hfound
      rw [List.inj_on_of_nodup_map h.nodup hx hc hsame]
  simp only [Function.comp_def, Compiled.name_output, hfind, Option.map_some]

end Build

/-- A chunk that two builds with the same settings transform is the same in both outputs, if it is
imported statically in both or in neither, and its own imports lead to chunks of the same kind. -/
theorem transform_depends_on_neighbours {settings : Settings} {chunks chunks' : List Chunk}
    {out out' : Output} {chunk : Chunk} {m : Module} (h : transform settings chunks = .ok out)
    (h' : transform settings chunks' = .ok out') (hchunk : chunk ∈ chunks)
    (hchunk' : chunk ∈ chunks') (hread : chunk.read = .ok m)
    (htransformed : out.bundle.isTransformed m.name = true)
    (htransformed' : out'.bundle.isTransformed m.name = true)
    (hsees : m.SeesAlike out.bundle out'.bundle) :
    ∃ o, out.chunk? m.name = some o ∧ out'.chunk? m.name = some o := by
  obtain ⟨compiled, hbuild⟩ := transform_eq_ok_iff.mp h
  obtain ⟨compiled', hbuild'⟩ := transform_eq_ok_iff.mp h'
  obtain ⟨c, hc, hread₁⟩ := hbuild.exists_of_mem hchunk
  obtain ⟨c', hc', hread₂⟩ := hbuild'.exists_of_mem hchunk'
  -- both builds have read the same module
  obtain rfl : m = c.input := Except.ok.inj (hread.symm.trans hread₁)
  have hinput : c.input = c'.input := Except.ok.inj (hread.symm.trans hread₂)
  have hgenerate : c.input.generate settings out.bundle = c.input.generate settings out'.bundle :=
    Module.generate_congr hbuild.linked hbuild'.linked hbuild.nodup_names hbuild'.nodup_names
      (List.mem_map_of_mem hc) (hinput ▸ List.mem_map_of_mem hc') (hbuild.isItem hc)
      (htransformed.trans htransformed'.symm) hsees
  have hsame : c.output settings out.bundle = c'.output settings out'.bundle := by
    rw [hbuild.generate_eq hc, hinput, hbuild'.generate_eq hc'] at hgenerate
    exact Except.ok.inj hgenerate
  refine ⟨_, hbuild.chunk?_eq hc, ?_⟩
  rw [hinput, hsame]
  exact hbuild'.chunk?_eq hc'

/-- A chunk that imports one statically and another one dynamically. -/
def neighbour : Chunk :=
  ⟨"m.js", "import { a } from './a.js'; export const f = () => import('./b.js'); await a;"⟩

/-- Nobody imports the module; what it imports itself is transformed, and what it imports
dynamically is not. -/
def Module.IsEntry (modules : List Module) (m : Module) : Prop :=
  (Bundle.ofModules modules).propagate.isTransformed m.name = true ∧
    (∀ x ∈ modules, m.name ∉ x.imports) ∧
    (∀ d ∈ m.program.importDeclarations, (resolve? m.name d.source.name.toString).all
      (Bundle.ofModules modules).propagate.isTransformed = true) ∧
    ∀ call ∈ m.program.statements.flatMap Node.calls, (call.dynamicTarget? m.name).all
      (Bundle.ofModules modules).propagate.isUntouched = true

instance (modules : List Module) (m : Module) : Decidable (m.IsEntry modules) :=
  inferInstanceAs (Decidable (_ ∧ _))

/-- Two entries look at their bundles alike. -/
theorem Module.IsEntry.seesAlike {modules modules' : List Module} {b b' : Bundle} {m : Module}
    (h : m.IsEntry modules) (h' : m.IsEntry modules')
    (hb : b = (Bundle.ofModules modules).propagate)
    (hb' : b' = (Bundle.ofModules modules').propagate) (hlinked : Linked modules b)
    (hlinked' : Linked modules' b') (hnodup : b.names.Nodup) (hnodup' : b'.names.Nodup) :
    m.SeesAlike b b' := by
  obtain ⟨-, hidle, hdeclarations, hcalls⟩ := h
  obtain ⟨-, hidle', hdeclarations', hcalls'⟩ := h'
  rw [← hb] at hdeclarations hcalls
  rw [← hb'] at hdeclarations' hcalls'
  refine ⟨?_, fun d hd target htarget => ?_, fun call hcall target htarget => ?_⟩
  · rw [hlinked.imports_iff hnodup, hlinked'.imports_iff hnodup']
    exact iff_of_false (fun ⟨x, hx, himports⟩ => hidle x hx himports)
      fun ⟨x, hx, himports⟩ => hidle' x hx himports
  · -- every import of an entry leads to a transformed chunk in both builds
    have hd' := hdeclarations d hd
    have hd'' := hdeclarations' d hd
    rw [htarget, Option.all_some] at hd' hd''
    exact hd'.trans hd''.symm
  · have hmem := Program.mem_calls_iff.mpr ⟨hcall, Node.isDynamicImport_of_dynamicTarget? htarget⟩
    have hleads := hcalls call hmem
    have hleads' := hcalls' call hmem
    rw [htarget, Option.all_some] at hleads hleads'
    exact hleads.trans hleads'.symm

/-- The chunk among others. -/
def neighbourhood : List Chunk :=
  [neighbour, ⟨"a.js", "export const a = await 1;"⟩, ⟨"b.js", "export {};"⟩]

/-- The same chunk among more chunks, with other texts and in another order. -/
def otherNeighbourhood : List Chunk :=
  [⟨"b.js", "export const b = 2;"⟩, ⟨"c.js", "import './a.js';"⟩,
    ⟨"a.js", "await 0; export const a = 3;"⟩, neighbour]

/-- A chunk that nothing imports, in two builds that differ in everything but its neighbours. -/
theorem transform_depends_on_neighbours_entry :
    ∃ out out' m o, transform {} neighbourhood = .ok out ∧
      transform {} otherNeighbourhood = .ok out' ∧ neighbour.read = .ok m ∧
        m.SeesAlike out.bundle out'.bundle ∧
          out.chunk? m.name = some o ∧ out'.chunk? m.name = some o := by
  obtain ⟨out, compiled, hout, hbuild, hentry⟩ := exists_build {} neighbourhood
    (fun modules => ∀ m ∈ modules, m.name = "m.js" → m.IsEntry modules) (by decide +kernel)
  obtain ⟨out', compiled', hout', hbuild', hentry'⟩ := exists_build {} otherNeighbourhood
    (fun modules => ∀ m ∈ modules, m.name = "m.js" → m.IsEntry modules) (by decide +kernel)
  have hmem : neighbour ∈ neighbourhood := by decide
  have hmem' : neighbour ∈ otherNeighbourhood := by decide
  obtain ⟨c, hc, hread⟩ := hbuild.exists_of_mem hmem
  obtain ⟨c', hc', hread'⟩ := hbuild'.exists_of_mem hmem'
  have hinput : c'.input = c.input := Except.ok.inj (hread'.symm.trans hread)
  have hname : c.input.name = "m.js" := name_of_read hread
  have hm := hentry c.input (List.mem_map_of_mem hc) hname
  have hm' := hentry' c.input (hinput ▸ List.mem_map_of_mem hc') hname
  have hsees := hm.seesAlike hm' hbuild.bundle hbuild'.bundle hbuild.linked hbuild'.linked
    hbuild.nodup_names hbuild'.nodup_names
  have htransformed : out.bundle.isTransformed c.input.name = true := hbuild.bundle ▸ hm.1
  have htransformed' : out'.bundle.isTransformed c.input.name = true := hbuild'.bundle ▸ hm'.1
  obtain ⟨o, ho, ho'⟩ := transform_depends_on_neighbours hout hout' hmem hmem' hread htransformed
    htransformed' hsees
  exact ⟨out, out', c.input, o, hout, hout', hread, hsees, ho, ho'⟩

end Awaitless
