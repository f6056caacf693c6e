import Awaitless.Proofs.Edges
import Awaitless.Proofs.Transform.Assembly

/-!
# Static requests of untouched chunks

A module requests another one by an import declaration, or by exporting something of it again. Only
declarations of imports are edges of the bundle, and a module that exports again cannot be
transformed. So waiting passes along imports alone, and a chunk that exports again what waits is not
made to wait. Along all other requests, what an untouched chunk reaches is quiet: if it led to
something that waits, waiting would have come back to it along the edges, and it would not be
untouched.

* `Module.reExports`, `Compiled.Requests` — all static requests between the chunks of a build.
* `Compiled.Follows` — the requests that a build follows: all but those by which untouched chunks
  export again.
* `Build.reExported?_eq_none` — a transformed chunk exports nothing again.
* `transform_reaches_idle` — along followed requests, an untouched chunk reaches nothing that waits.
-/

namespace Awaitless

open Script

/-! ## Requests -/

/-- The module of which a statement exports something again. -/
def Script.Node.reExported? (n : Node) : Option ModuleSource :=
  match n.form with
  | .exportNames _ source => source
  | .exportAll _ source => some source
  | _ => none

/-- The chunks of which a module exports something again, for those that may be part of the
build. -/
def Module.reExports (m : Module) : List String :=
  m.program.statements.filterMap fun s =>
    s.reExported?.bind fun source => resolve? m.name source.name.toString

/-- One chunk of a build requests another one. -/
def Compiled.Requests (compiled : List Compiled) (a b : Compiled) : Prop :=
  b ∈ compiled ∧ (b.input.name ∈ a.input.targets ∨ b.input.name ∈ a.input.reExports)

/-- One chunk of a build requests another one, and is transformed unless it imports it. -/
def Compiled.Follows (bundle : Bundle) (compiled : List Compiled) (a b : Compiled) : Prop :=
  a.Requests compiled b ∧
    (b.input.name ∈ a.input.targets ∨ bundle.isTransformed a.input.name = true)

/-! ## Transformed chunks -/

namespace Transform.Items

variable {moduleName source : String} {items items' : Items} {s : Node}

/-- An item that exports again is not taken apart. -/
theorem reExported?_of_add (h : add moduleName items s = .ok items') : s.reExported? = none := by
  unfold Node.reExported?
  cases becomes_of_add h with
  | importItem d hform => rw [hform]
  | exportNames specifiers hform => rw [hform]
  | exportDeclaration d names hform _ => rw [hform]
  | namedDefault value name hform _ => rw [hform]
  | unnamedDefault value hform _ => rw [hform]
  | statement hs =>
    obtain ⟨span, form⟩ := s
    cases form with
    | exportNames specifiers source => cases hs
    | exportAll exported source => cases hs
    | _ => rfl

/-- A module that can be taken apart exports nothing again. -/
theorem reExported?_of_ofStatements {statements : List Node}
    (h : ofStatements moduleName source statements = .ok items) :
    ∀ s ∈ statements, s.reExported? = none := by
  refine foldlM_eq_ok_induction (fun seen _ => ∀ s ∈ seen, s.reExported? = none) ?_ [] nofun h
  intro seen items s items' hseen hadd x hx
  rcases List.mem_append.mp hx with hx | hx
  · exact hseen x hx
  · rw [List.mem_singleton.mp hx]
    exact reExported?_of_add hadd

end Transform.Items

namespace Build

variable {settings : Settings} {chunks : List Chunk} {out : Output} {compiled : List Compiled}
  {a b c : Compiled}

/-- A transformed chunk has been taken apart, so nothing in it exports again. -/
theorem reExported?_eq_none (h : Build settings chunks out compiled) (ha : a ∈ compiled)
    (htransformed : out.bundle.isTransformed a.input.name = true) :
    ∀ s ∈ a.input.program.statements, s.reExported? = none := by
  obtain ⟨items, body, hitems, -, -⟩ :=
    Transform.program_eq_ok_iff.mp (h.program_eq_ok_of_transformed ha htransformed)
  exact Transform.Items.reExported?_of_ofStatements hitems

/-- Followed requests are import declarations. -/
theorem mem_imports_of_follows (h : Build settings chunks out compiled) (ha : a ∈ compiled)
    (hfollows : a.Follows out.bundle compiled b) : b.input.name ∈ a.input.imports := by
  rw [a.input.imports_eq_distinct]
  refine mem_distinct.mpr ?_
  obtain ⟨⟨-, himports | hagain⟩, himports' | htransformed⟩ := hfollows
  · exact himports
  · exact himports
  · exact himports'
  · obtain ⟨s, hs, hsource⟩ := List.mem_filterMap.mp hagain
    rw [h.reExported?_eq_none ha htransformed s hs] at hsource
    cases hsource

/-- What a chunk reaches that does not wait does not wait either. -/
theorem isWaiting_eq_false_of_follows (h : Build settings chunks out compiled) (ha : a ∈ compiled)
    (hidle : out.bundle.isWaiting a.input.name = false)
    (path : Relation.ReflTransGen (Compiled.Follows out.bundle compiled) a c) :
    c ∈ compiled ∧ out.bundle.isWaiting c.input.name = false := by
  induction path with
  | refl => exact ⟨ha, hidle⟩
  | @tail b c _ hstep ih =>
    obtain ⟨hb, hidle⟩ := ih
    have hc : c ∈ compiled := hstep.1.1
    refine ⟨hc, Bool.eq_false_iff.mpr fun hwaiting => Bool.eq_false_iff.mp hidle ?_⟩
    exact h.linked.isWaiting_of_imports _ (List.mem_map_of_mem hb) _ (List.mem_map_of_mem hc)
      (h.mem_imports_of_follows hb hstep) hwaiting

end Build

/-- In the output of a build, no chunk that an untouched chunk reaches along followed requests has
a top-level `await`, and every request of a transformed chunk is followed. -/
theorem transform_reaches_idle {settings : Settings} {chunks : List Chunk} {out : Output}
    (h : transform settings chunks = .ok out) :
    ∃ compiled, Build settings chunks out compiled ∧
      (∀ a ∈ compiled, out.bundle.isTransformed a.input.name = false →
        ∀ c, Relation.ReflTransGen (Compiled.Follows out.bundle compiled) a c →
          c.input.blocking ≠ some .topLevelAwait) ∧
      ∀ a ∈ compiled, out.bundle.isTransformed a.input.name = true →
        ∀ s ∈ a.input.program.statements, s.reExported? = none := by
  obtain ⟨compiled, hbuild⟩ := transform_eq_ok_iff.mp h
  refine ⟨compiled, hbuild, fun a ha huntouched c path hblocking => ?_,
    fun a ha htransformed => hbuild.reExported?_eq_none ha htransformed⟩
  have hidle : out.bundle.isWaiting a.input.name = false := by
    refine Bool.eq_false_iff.mpr fun hwaiting => Bool.eq_false_iff.mp huntouched ?_
    exact hbuild.linked.isTransformed_of_isWaiting (List.mem_map_of_mem ha) hwaiting
  obtain ⟨hc, hcidle⟩ := hbuild.isWaiting_eq_false_of_follows ha hidle path
  obtain ⟨r, hr, hlinked⟩ := hbuild.linked.record _ (List.mem_map_of_mem hc)
  rw [Bundle.isWaiting, hr, Option.any_some, hlinked.awaits_of_blocking hblocking] at hcidle
  cases hcidle

/-- A chunk that imports one with a dynamic import, which imports one that exports a waiting one
again. -/
def againBehindDynamic : List Chunk :=
  [⟨"a.js", "import './b.js'"⟩, ⟨"b.js", "import './c.js'; import('z')"⟩,
    ⟨"c.js", "export * from './d.js'"⟩, ⟨"d.js", "export let x = await 0"⟩]

/-- An untouched chunk that exports again what has a dynamic import. -/
theorem transform_reaches_idle_behindDynamic :
    ∃ out compiled, transform {} againBehindDynamic = .ok out ∧
      Build {} againBehindDynamic out compiled ∧
        ∃ a ∈ compiled, out.bundle.isTransformed a.input.name = false ∧ ∃ b ∈ compiled,
          a.Follows out.bundle compiled b ∧ b.input.blocking ≠ some .topLevelAwait := by
  obtain ⟨out, compiled, hout, hbuild, m, hm, huntouched, target, htarget, himports⟩ :=
    exists_build {} againBehindDynamic
      (fun modules =>
        ∃ a ∈ modules, (Bundle.ofModules modules).propagate.isTransformed a.name = false ∧
          ∃ b ∈ modules, b.name ∈ a.targets)
      (by decide +kernel)
  obtain ⟨a, ha, rfl⟩ := List.mem_map.mp hm
  obtain ⟨b, hb, rfl⟩ := List.mem_map.mp htarget
  rw [← hbuild.bundle] at huntouched
  have hfollows : a.Follows out.bundle compiled b := ⟨⟨hb, .inl himports⟩, .inl himports⟩
  obtain ⟨compiled', hbuild', hidle, -⟩ := transform_reaches_idle hout
  obtain rfl := hbuild.unique hbuild'
  exact ⟨out, compiled, hout, hbuild, a, ha, huntouched, b, hb, hfollows,
    hidle a ha huntouched b (.single hfollows)⟩

/-- A chunk that exports a waiting chunk again. -/
def exportedAgain : List Chunk :=
  [⟨"a.js", "export * from './b.js';"⟩, ⟨"b.js", "export const x = await 1;"⟩]

/-- The first chunk is left untouched although it requests one with a top-level `await`. -/
theorem requests_exportedAgain :
    ∃ out compiled, transform {} exportedAgain = .ok out ∧ Build {} exportedAgain out compiled ∧
      ∃ a ∈ compiled, out.bundle.isTransformed a.input.name = false ∧ ∃ b,
        Relation.ReflTransGen (Compiled.Requests compiled) a b ∧
          b.input.blocking = some .topLevelAwait := by
  obtain ⟨out, compiled, hout, hbuild, m, hm, huntouched, target, htarget, hagain, hblocking⟩ :=
    exists_build {} exportedAgain
      (fun modules =>
        ∃ a ∈ modules, (Bundle.ofModules modules).propagate.isTransformed a.name = false ∧
          ∃ b ∈ modules, b.name ∈ a.reExports ∧ b.blocking = some .topLevelAwait)
      (by decide +kernel)
  obtain ⟨a, ha, rfl⟩ := List.mem_map.mp hm
  obtain ⟨b, hb, rfl⟩ := List.mem_map.mp htarget
  rw [← hbuild.bundle] at huntouched
  exact ⟨out, compiled, hout, hbuild, a, ha, huntouched, b, .single ⟨hb, .inr hagain⟩, hblocking⟩

end Awaitless
