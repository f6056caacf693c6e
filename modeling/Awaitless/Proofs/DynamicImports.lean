import Awaitless.Proofs.Promises
import Awaitless.Proofs.Transform.Continuations
import Awaitless.Proofs.Transform.Exports

/-!
# Dynamic imports of waiting chunks

A dynamic import of a chunk that waits reads the completion promise of the chunk before its names
are handed out. The importer does its part for every such call, at any depth: the call stands in the
output with its continuation, and no call without one is left.

The chunk that is loaded need not do its part. It exports a promise if it exports something of its
own or is imported statically, and a dynamic import does neither. Then the continuation reads a name
that is not there, and goes on at once.

* `Program.Contains` — what stands in a program, at any depth.
* `Compiled.Loads` — a dynamic import of a chunk leads to a waiting chunk.
* `Compiled.Continues` — all these calls stand in the output, with their continuations.
* `Compiled.Answers` — whether the promise that a continuation reads is there.
* `transform_continues` — all calls are continued, and the promise is there exactly if the chunk
  exports something of its own or is imported statically.
-/

namespace Awaitless

open Script

/-! ## Calls -/

/-- A tree stands in a program, at any depth. -/
def Script.Program.Contains (p : Program) (n : Node) : Prop :=
  ∃ s ∈ p.statements, s.Contains n

namespace Compiled

/-- A dynamic import in the first chunk leads to the second chunk, which waits. -/
def Loads (bundle : Bundle) (a b : Compiled) (call : Node) : Prop :=
  call.dynamicTarget? a.input.name = some b.input.name ∧ bundle.isWaiting b.input.name = true

/-- All dynamic imports of waiting chunks have continuations. -/
structure Continues (settings : Settings) (bundle : Bundle) (compiled : List Compiled)
    (a : Compiled) : Prop where
  /-- Every call is still there, with a continuation. -/
  calls : ∀ call, a.input.program.Contains call → ∀ b ∈ compiled, a.Loads bundle b call →
    a.program.Contains
      (Transform.continuedCall bundle a.input.name settings.promiseName call)
  /-- There is no such call without a continuation. -/
  settled : ∀ s ∈ a.program.statements,
    s.Settled (fun call => ∃ b ∈ compiled, a.Loads bundle b call) settings.promiseName

/-- What a continuation finds in a chunk whose closure runs with the given body. -/
structure Answers (settings : Settings) (compiled : List Compiled) (b : Compiled)
    (names : List String) (body : List Node) : Prop where
  /-- The chunk ends with its completion promise. -/
  completes : b.program.CompletesBy settings.promiseName
    (Transform.completion names (Make.arrow true [] body))
  /-- The promise is exported exactly if the chunk exports something itself, or is imported. -/
  exports_iff : b.program.ExportsCompletion settings.promiseName
      (Transform.completion names (Make.arrow true [] body)) ↔
    (∃ s ∈ b.input.program.statements, s.isExport = true) ∨
      ∃ c ∈ compiled, b.input.name ∈ c.input.imports
  /-- Nothing else is exported under its name. -/
  only : ∀ s ∈ b.program.statements, ∀ specifiers source, s.form = .exportNames specifiers source →
    ∀ x ∈ specifiers, x.exported.text = settings.promiseName →
      x.binding.text = settings.promiseName
  /-- Without the promise, the chunk exports nothing at all. -/
  nothing : b.program.ExportsCompletion settings.promiseName
      (Transform.completion names (Make.arrow true [] body)) ∨
    ∀ s ∈ b.program.statements, s.isExport = false

end Compiled

namespace Build

variable {settings : Settings} {chunks : List Chunk} {out : Output} {compiled : List Compiled}
  {a b : Compiled}

/-- A call that loads a waiting chunk leads to a transformed one. -/
theorem isTransformed_of_loads (h : Build settings chunks out compiled) (hb : b ∈ compiled)
    {call : Node} (hcall : a.Loads out.bundle b call) :
    call.dynamicTarget? a.input.name = some b.input.name ∧
      out.bundle.isTransformed b.input.name = true :=
  ⟨hcall.1, h.linked.isTransformed_of_isWaiting (List.mem_map_of_mem hb) hcall.2⟩

/-- The importer: no call is lost on the way to the output, and all of them are continued. -/
theorem continues (h : Build settings chunks out compiled) (ha : a ∈ compiled)
    (htransformed : out.bundle.isTransformed a.input.name = true) :
    a.Continues settings out.bundle compiled := by
  obtain ⟨items, body, hitems, hbody, hprogram⟩ :=
    Transform.program_eq_ok_iff.mp (h.program_eq_ok_of_transformed ha htransformed)
  refine ⟨?_, ?_⟩
  · rintro call ⟨s, hs, hcontains⟩ b hb hcall
    obtain ⟨htarget, hb⟩ := h.isTransformed_of_loads hb hcall
    have hdynamic := Node.isDynamicImport_of_dynamicTarget? htarget
    -- from the module to the closure, and to the output
    have hclosure : call ∈ body.flatMap Node.calls := by
      rw [Transform.calls_body (h.isItem ha) hitems hbody]
      exact List.mem_flatMap.mpr ⟨s, hs, Node.mem_calls_iff.mpr ⟨hcontains, hdynamic⟩⟩
    obtain ⟨x, hx, hcall⟩ := List.mem_flatMap.mp hclosure
    have hcontains := (Node.mem_calls_iff.mp hcall).1
    obtain ⟨y, hy, hyx⟩ := Transform.exists_contains_assemble
      ⟨a.input.name, out.bundle, settings⟩ items hx
    refine ⟨y, by rw [hprogram]; exact hy, hyx.trans ?_⟩
    rw [← Transform.continueImports_eq_continuedCall htarget hb]
    exact Node.contains_bottomUp (Transform.contains_continueImport _ _ _) hcontains
  · intro s hs
    rw [hprogram] at hs
    refine Transform.settled_of_mem_assemble ?_ hs
    rintro call ⟨b, hb, hcall⟩
    exact ⟨b.input.name, h.isTransformed_of_loads hb hcall⟩

/-- A chunk has importers exactly if another chunk, or the chunk itself, imports it. -/
theorem isImported_iff (h : Build settings chunks out compiled) (hb : b ∈ compiled) :
    Transform.Surroundings.isImported ⟨b.input.name, out.bundle, settings⟩ = true ↔
      ∃ c ∈ compiled, b.input.name ∈ c.input.imports := by
  refine (h.linked.hasImporters_iff (List.mem_map_of_mem hb)).trans ?_
  simp only [List.mem_map, exists_exists_and_eq_and]

/-- The chunk that is loaded: what it exports depends on its own exports and its static importers.
-/
theorem exists_answers (h : Build settings chunks out compiled) (hb : b ∈ compiled)
    (htransformed : out.bundle.isTransformed b.input.name = true) :
    ∃ names body, b.Answers settings compiled names body := by
  obtain ⟨items, body, hitems, -, hprogram⟩ :=
    Transform.program_eq_ok_iff.mp (h.program_eq_ok_of_transformed hb htransformed)
  have hassemble : b.program.statements = Transform.assemble
      ⟨b.input.name, out.bundle, settings⟩ items body := by rw [hprogram]
  have hiff := Transform.exportsCompletion_assemble_iff hassemble
  refine ⟨_, _, Transform.completesBy_assemble hassemble, hiff.trans ?_, ?_, ?_⟩
  · rw [h.isImported_iff hb, ne_eq, Transform.Items.exports_eq_nil_iff hitems]
    simp
  · intro s hs specifiers source hform x hx hname
    rw [hassemble] at hs
    have hentry := Transform.mem_exportEntries_of_assemble hs hform hx
    exact congrArg Prod.snd (Transform.eq_of_mem_exportEntries hentry hname)
  · -- there is an export clause with the promise, or no export at all
    cases hasked : items.exports.isEmpty &&
        !(Transform.Surroundings.isImported ⟨b.input.name, out.bundle, settings⟩) with
    | false => exact .inl (Transform.exportsCompletion_assemble hassemble hasked)
    | true =>
      rw [hassemble]
      exact .inr (Transform.isExport_of_mem_assemble hasked)

end Build

/-- In the output of a build, every dynamic import of a waiting chunk in a transformed chunk has its
continuation. The promise that it reads is exported exactly if the waiting chunk exports something
of its own or is imported statically. -/
theorem transform_continues {settings : Settings} {chunks : List Chunk} {out : Output}
    (h : transform settings chunks = .ok out) :
    ∃ compiled, Build settings chunks out compiled ∧
      ∀ a ∈ compiled, out.bundle.isTransformed a.input.name = true →
        a.Continues settings out.bundle compiled ∧
          ∀ call, a.input.program.Contains call → ∀ b ∈ compiled, a.Loads out.bundle b call →
            ∃ names body, b.Answers settings compiled names body := by
  obtain ⟨compiled, hbuild⟩ := transform_eq_ok_iff.mp h
  refine ⟨compiled, hbuild, fun a ha htransformed => ⟨hbuild.continues ha htransformed, ?_⟩⟩
  intro call _ b hb hcall
  exact hbuild.exists_answers hb (hbuild.isTransformed_of_loads hb hcall).2

/-- A chunk that imports a waiting one dynamically, in a function. -/
def loaded : List Chunk :=
  [⟨"a.js", "const f = () => import('./b.js')"⟩, ⟨"b.js", "export const x = await 0"⟩]

/-- A chunk that loads another one, which exports something. -/
theorem transform_continues_loaded :
    ∃ out compiled, transform {} loaded = .ok out ∧ Build {} loaded out compiled ∧
      ∃ a ∈ compiled, out.bundle.isTransformed a.input.name = true ∧
        ∃ call, a.input.program.Contains call ∧ ∃ b ∈ compiled, a.Loads out.bundle b call ∧
          a.program.Contains (Transform.continuedCall out.bundle a.input.name "__tla" call) ∧
          ∃ completion, b.program.ExportsCompletion "__tla" completion := by
  obtain ⟨out, compiled, hout, hbuild, m, hm, htransformed, s, hs, call, hcall, target, htarget,
    hleads, hwaiting, hexports⟩ :=
    exists_build {} loaded
      (fun modules =>
        ∃ a ∈ modules, (Bundle.ofModules modules).propagate.isTransformed a.name = true ∧
          ∃ s ∈ a.program.statements, ∃ call ∈ s.subtrees, ∃ b ∈ modules,
            call.dynamicTarget? a.name = some b.name ∧
              (Bundle.ofModules modules).propagate.isWaiting b.name = true ∧
              ∃ s ∈ b.program.statements, s.isExport = true)
      (by decide +kernel)
  obtain ⟨a, ha, rfl⟩ := List.mem_map.mp hm
  obtain ⟨b, hb, rfl⟩ := List.mem_map.mp htarget
  rw [← hbuild.bundle] at htransformed hwaiting
  have hcontains : a.input.program.Contains call := ⟨s, hs, Node.mem_subtrees_iff.mp hcall⟩
  have hloads : a.Loads out.bundle b call := ⟨hleads, hwaiting⟩
  obtain ⟨compiled', hbuild', hcontinues⟩ := transform_continues hout
  obtain rfl := hbuild.unique hbuild'
  obtain ⟨ha', hanswers⟩ := hcontinues a ha htransformed
  obtain ⟨names, body, hb'⟩ := hanswers call hcontains b hb hloads
  exact ⟨out, compiled, hout, hbuild, a, ha, htransformed, call, hcontains, b, hb, hloads,
    ha'.calls call hcontains b hb hloads, _, hb'.exports_iff.mpr (.inl hexports)⟩

/-- A chunk that imports another one dynamically, which waits and exports nothing. -/
def loadedForEffect : List Chunk :=
  [⟨"a.js", "const load = () => import('./b.js');"⟩, ⟨"b.js", "await 0;"⟩]

/-- The call has a continuation, but the chunk exports no promise. -/
theorem loads_loadedForEffect :
    ∃ out compiled, transform {} loadedForEffect = .ok out ∧
      Build {} loadedForEffect out compiled ∧
        ∃ a ∈ compiled, out.bundle.isTransformed a.input.name = true ∧
          ∃ call, a.input.program.Contains call ∧ ∃ b ∈ compiled, a.Loads out.bundle b call ∧
            ∀ s ∈ b.program.statements, s.isExport = false := by
  obtain ⟨out, compiled, hout, hbuild, m, hm, htransformed, s, hs, call, hcall, target, htarget,
    hleads, hwaiting, hexports, himports⟩ :=
    exists_build {} loadedForEffect
      (fun modules =>
        ∃ a ∈ modules, (Bundle.ofModules modules).propagate.isTransformed a.name = true ∧
          ∃ s ∈ a.program.statements, ∃ call ∈ s.subtrees, ∃ b ∈ modules,
            call.dynamicTarget? a.name = some b.name ∧
              (Bundle.ofModules modules).propagate.isWaiting b.name = true ∧
              (∀ s ∈ b.program.statements, s.isExport = false) ∧
                ∀ c ∈ modules, b.name ∉ c.imports)
      (by decide +kernel)
  obtain ⟨a, ha, rfl⟩ := List.mem_map.mp hm
  obtain ⟨b, hb, rfl⟩ := List.mem_map.mp htarget
  rw [← hbuild.bundle] at htransformed hwaiting
  have hloads : a.Loads out.bundle b call := ⟨hleads, hwaiting⟩
  obtain ⟨names, body, hanswers⟩ :=
    hbuild.exists_answers hb (hbuild.isTransformed_of_loads hb hloads).2
  refine ⟨out, compiled, hout, hbuild, a, ha, htransformed, call,
    ⟨s, hs, Node.mem_subtrees_iff.mp hcall⟩, b, hb, hloads, hanswers.nothing.resolve_left ?_⟩
  rw [hanswers.exports_iff]
  rintro (⟨s, hs, hexport⟩ | ⟨c, hc, himport⟩)
  · rw [hexports s hs] at hexport
    cases hexport
  · exact himports c.input (List.mem_map_of_mem hc) himport

end Awaitless
