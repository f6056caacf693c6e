import Awaitless.Proofs.Blocking
import Awaitless.Proofs.Locality
import Awaitless.Proofs.Script.Plain
import Awaitless.Proofs.Waiting

/-!
# Transforming the output again

The output of a build can be the input of another one. Nothing in it waits any more; only dynamic
imports are left, and these are as many as before. So the classifier sees every chunk of the output
as one that does not wait, and has to transform those with dynamic imports again.

The second build reads texts and not trees. A chunk that was left alone is the text that was read
before. One that was transformed was printed, and reads as the same program only if printing and
reading undo each other on it, which is assumed here of each printed program (`Program.RoundTrips`),
up to what the layout decides. The classifier does not look at the layout, so this is enough.

* `Program.ImportsDynamically` — a program holds `import()` at any depth.
* `Compiled.IsSettledAs` — how the classifier sees a chunk of the output.
* `Build.isSettledAs` — it sees every chunk so, whether the chunk was transformed or not.
* `Output.asChunks`, `Build.again` — a second build reads what the first one has written.
* `transform_again` — it finds nothing that waits, transforms the chunks with dynamic imports, and
  returns all others as they are.
-/

namespace Awaitless

open Script

/-! ## Classifying the output -/

/-- An `import()` stands in the program, at any depth. -/
def Script.Program.ImportsDynamically (p : Program) : Prop :=
  ∃ call, p.Contains call ∧ call.form.isDynamicImport = true

/-- The calls of a program are those of its statements. -/
theorem Script.Program.importsDynamically_iff {p : Program} :
    p.ImportsDynamically ↔ ∃ s ∈ p.statements, s.importsDynamically = true := by
  simp only [ImportsDynamically, ← Program.mem_calls_iff, List.mem_flatMap,
    Node.importsDynamically_iff]
  exact ⟨fun ⟨call, s, hs, hcall⟩ => ⟨s, hs, call, hcall⟩,
    fun ⟨s, hs, call, hcall⟩ => ⟨call, s, hs, hcall⟩⟩

/-- Programs with as many calls import dynamically in the same cases. -/
theorem Script.Program.importsDynamically_congr {p q : Program}
    (h : (p.statements.flatMap Node.calls).length = (q.statements.flatMap Node.calls).length) :
    p.ImportsDynamically ↔ q.ImportsDynamically := by
  simp only [ImportsDynamically, ← Program.mem_calls_iff, ← List.length_pos_iff_exists_mem, h]

/-- The classifier finds nothing that waits in a program, and finds a dynamic import exactly if the
source of the chunk holds one. -/
structure Compiled.IsSettledAs (c : Compiled) (p : Program) : Prop where
  not_waits : blockingOf p.statements ≠ some .topLevelAwait
  imports_iff : blockingOf p.statements = some .dynamicImport ↔
    c.input.program.ImportsDynamically

namespace Compiled

variable {c : Compiled} {p q : Program}

/-- The classifier decides by what it finds, and finds what there is. -/
theorem isSettledAs_iff : c.IsSettledAs p ↔
    blockingOf p.statements ≠ some .topLevelAwait ∧
      (p.ImportsDynamically ↔ c.input.program.ImportsDynamically) := by
  have hiff : blockingOf p.statements ≠ some .topLevelAwait →
      (blockingOf p.statements = some .dynamicImport ↔ p.ImportsDynamically) := by
    intro hwaits
    rw [Program.importsDynamically_iff, importsDynamically_iff_blockingOf hwaits]
  constructor
  · rintro ⟨hwaits, himports⟩
    exact ⟨hwaits, (hiff hwaits).symm.trans himports⟩
  · rintro ⟨hwaits, himports⟩
    exact ⟨hwaits, (hiff hwaits).trans himports⟩

/-- The layout does not matter. -/
theorem IsSettledAs.of_sameTree (h : c.IsSettledAs p) (hsame : q.SameTree p) :
    c.IsSettledAs q := by
  obtain ⟨hwaits, himports⟩ := h
  rw [← hsame.blockingOf_eq] at hwaits himports
  exact ⟨hwaits, himports⟩

/-- Apart from what waits, there are exactly the dynamic imports of the source. -/
theorem IsSettledAs.isSome_iff (h : c.IsSettledAs p) :
    (blockingOf p.statements).isSome = true ↔ c.input.program.ImportsDynamically := by
  rw [← h.imports_iff]
  have hwaits := h.not_waits
  cases hblocking : blockingOf p.statements with
  | none => exact iff_of_false nofun nofun
  | some blocking =>
    cases blocking with
    | dynamicImport => exact iff_of_true rfl rfl
    | topLevelAwait => exact absurd hblocking hwaits

end Compiled

namespace Build

variable {settings : Settings} {chunks : List Chunk} {out : Output} {compiled : List Compiled}
  (h : Build settings chunks out compiled) {c : Compiled}
include h

/-- A transformed chunk holds as many dynamic imports as its source. -/
theorem length_calls_of_transformed (hc : c ∈ compiled)
    (htransformed : out.bundle.isTransformed c.input.name = true) :
    (c.program.statements.flatMap Node.calls).length =
      (c.input.program.statements.flatMap Node.calls).length := by
  obtain ⟨items, body, hitems, hbody, hprogram⟩ :=
    Transform.program_eq_ok_iff.mp (h.program_eq_ok_of_transformed hc htransformed)
  rw [hprogram, Transform.length_calls_assemble, Transform.calls_body (h.isItem hc) hitems hbody]

/-- Every chunk of the output is classified as settled. -/
theorem isSettledAs (hc : c ∈ compiled) : c.IsSettledAs c.program := by
  cases htransformed : out.bundle.isTransformed c.input.name with
  | true =>
    refine Compiled.isSettledAs_iff.mpr ⟨?_, ?_⟩
    · rw [ne_eq, ← waits_iff_blockingOf]
      rintro ⟨s, hs, hwaits⟩
      have hblocks := (s.blocks_iff_waits_or).mpr (.inl hwaits)
      exact h.not_blocks_of_transformed hc htransformed ⟨s, hs, hblocks⟩
    · exact Program.importsDynamically_congr (h.length_calls_of_transformed hc htransformed)
  | false =>
    rw [h.program_eq_of_untouched hc htransformed]
    refine Compiled.isSettledAs_iff.mpr ⟨?_, Iff.rfl⟩
    have hnone : blockingOf c.input.program.statements = none :=
      h.linked.blocking_eq_none (List.mem_map_of_mem hc) htransformed
    rw [hnone]
    exact nofun

/-- What can be read from the text of a chunk of the output is settled, if the texts of the
transformed chunks read as the programs that were printed. -/
theorem isSettledAs_of_parse
    (hprinted : ∀ c ∈ compiled, out.bundle.isTransformed c.input.name = true →
      c.program.RoundTrips settings.minify)
    (hc : c ∈ compiled) {p : Program}
    (hp : Program.parse (c.output settings out.bundle).text false = .ok p) : c.IsSettledAs p := by
  have hsettled := h.isSettledAs hc
  unfold Compiled.output at hp
  cases htransformed : out.bundle.isTransformed c.input.name with
  | true =>
    rw [if_pos htransformed] at hp
    exact hsettled.of_sameTree (hprinted c hc htransformed p hp)
  | false =>
    rw [if_neg (Bool.eq_false_iff.mp htransformed)] at hp
    -- the text of an untouched chunk is its source, which has been read already
    have hread := (Source.check_eq_ok (h.check hc)).1
    rw [h.program_eq_of_untouched hc htransformed] at hsettled
    obtain rfl := Except.ok.inj (hp.symm.trans hread)
    exact hsettled

end Build

/-! ## The second build -/

/-- The chunks of the output as chunks to be transformed. -/
def Output.asChunks (out : Output) : List Chunk :=
  out.chunks.map fun o => ⟨o.name, o.text⟩

/-- Whoever waits does so because of a module that blocks. -/
theorem Module.Waits.exists_blocks {modules : List Module} {m : Module} (h : m.Waits modules) :
    ∃ x ∈ modules, x.blocking = some .topLevelAwait := by
  induction h with
  | blocks hm hblocking => exact ⟨_, hm, hblocking⟩
  | imports _ _ _ ih => exact ih

section quiet

variable {modules : List Module} {b : Bundle} (hnodup : (modules.map (·.name)).Nodup)
  (hquiet : ∀ m ∈ modules, m.blocking ≠ some .topLevelAwait)
include hnodup hquiet

/-- Where no module blocks, none waits. -/
theorem isWaiting_propagate_eq_false {m : Module} (hm : m ∈ modules) :
    (Bundle.ofModules modules).propagate.isWaiting m.name = false := by
  refine Bool.eq_false_iff.mpr fun hwaiting => ?_
  obtain ⟨x, hx, hblocking⟩ := ((isWaiting_propagate_iff hnodup hm).mp hwaiting).exists_blocks
  exact hquiet x hx hblocking

/-- Where no module blocks, those with a dynamic import are transformed. -/
theorem isTransformed_propagate_iff {m : Module} (hm : m ∈ modules) :
    (Bundle.ofModules modules).propagate.isTransformed m.name = true ↔
      m.blocking.isSome = true := by
  have hwaiting := isWaiting_propagate_eq_false hnodup hquiet hm
  obtain ⟨r, hr, hlinked⟩ := (linked_propagate hnodup).record m hm
  rw [Bundle.isWaiting, hr, Option.any_some] at hwaiting
  rw [Bundle.isTransformed, hr, Option.any_some, hlinked.needsTransform, hwaiting]
  exact or_iff_left Bool.false_ne_true

/-- Where nothing waits by itself, nothing waits for anything. -/
theorem awaits_propagate_eq_false {r : Record}
    (hr : r ∈ (Bundle.ofModules modules).propagate.records) : r.awaits = false := by
  have hnames : (Bundle.ofModules modules).propagate.names.Nodup := by
    rw [Bundle.names_propagate hnodup]
    exact hnodup
  obtain ⟨m, hm, hlinked⟩ := (linked_propagate hnodup).exists_of_mem_records hnames hr
  have hwaiting := isWaiting_propagate_eq_false hnodup hquiet hm
  have hget := (Bundle.get?_eq_some_iff hnames).mpr ⟨hr, hlinked.name⟩
  rwa [Bundle.isWaiting, hget] at hwaiting

end quiet

/-- What is read from a chunk of the output. -/
structure Compiled.Rereads (settings : Settings) (bundle : Bundle) (c : Compiled) (m : Module) :
    Prop where
  name : m.name = c.input.name
  source : m.source = (c.output settings bundle).text
  settled : c.IsSettledAs m.program

/-- A chunk of the second output: it is transformed exactly if its source holds a dynamic import,
and is else what the first build has written. -/
structure Compiled.BecomesAgain (settings : Settings) (bundle : Bundle) (c : Compiled)
    (o : OutputChunk) : Prop where
  name : o.name = c.input.name
  transformed_iff : o.transformed = true ↔ c.input.program.ImportsDynamically
  text_eq : o.transformed = false → o.text = (c.output settings bundle).text

namespace Build

variable {settings settings' : Settings} {chunks : List Chunk} {out out' : Output}
  {compiled compiled' : List Compiled} {c : Compiled}

/-- What the second build reads from a chunk of the output. -/
theorem rereads (h : Build settings chunks out compiled)
    (hprinted : ∀ c ∈ compiled, out.bundle.isTransformed c.input.name = true →
      c.program.RoundTrips settings.minify)
    (hc : c ∈ compiled) {m : Module} (hm : Chunk.read ⟨(c.output settings out.bundle).name,
      (c.output settings out.bundle).text⟩ = .ok m) : c.Rereads settings out.bundle m := by
  obtain ⟨program, hcheck, rfl⟩ := exists_of_map_eq_ok hm
  exact ⟨c.name_output settings out.bundle, rfl,
    h.isSettledAs_of_parse hprinted hc (Source.check_eq_ok hcheck).1⟩

/-- The second build reads the chunks of the output one after the other. -/
theorem forall₂_rereads (h : Build settings chunks out compiled)
    (h' : Build settings' out.asChunks out' compiled')
    (hprinted : ∀ c ∈ compiled, out.bundle.isTransformed c.input.name = true →
      c.program.RoundTrips settings.minify) :
    List.Forall₂ (fun c c' => c ∈ compiled ∧ c' ∈ compiled' ∧
      c.Rereads settings out.bundle c'.input) compiled compiled' := by
  have hread := h'.read
  rw [Output.asChunks, h.chunks, List.map_map, List.map_map, ← List.forall₂_eq_eq_eq,
    List.forall₂_map_left_iff, List.forall₂_map_right_iff, List.forall₂_iff_zip] at hread
  refine List.forall₂_iff_zip.mpr ⟨hread.1, fun {c c'} hmem => ?_⟩
  obtain ⟨hc, hc'⟩ := List.of_mem_zip hmem
  exact ⟨hc, hc', h.rereads hprinted hc (hread.2 hmem)⟩

/-- A second build finds only the dynamic imports of the sources. -/
theorem again (h : Build settings chunks out compiled)
    (h' : Build settings' out.asChunks out' compiled')
    (hprinted : ∀ c ∈ compiled, out.bundle.isTransformed c.input.name = true →
      c.program.RoundTrips settings.minify) :
    (∀ r ∈ out'.bundle.records, r.awaits = false) ∧
      List.Forall₂ (Compiled.BecomesAgain settings out.bundle) compiled out'.chunks := by
  have hread := h.forall₂_rereads h' hprinted
  have hnodup := h'.nodup_inputs
  -- no chunk that is read again waits by itself
  have hquiet : ∀ m ∈ compiled'.map (·.input), m.blocking ≠ some .topLevelAwait := by
    refine List.forall_mem_map.mpr fun c' hc' => ?_
    obtain ⟨i, hi, rfl⟩ := List.getElem_of_mem hc'
    exact (hread.get (hread.length_eq ▸ hi) hi).2.2.settled.not_waits
  refine ⟨fun r hr => awaits_propagate_eq_false hnodup hquiet (h'.bundle ▸ hr), ?_⟩
  rw [h'.chunks, List.forall₂_map_right_iff]
  refine hread.imp fun c c' ⟨hc, hc', hrereads⟩ => ?_
  have htransformed : out'.bundle.isTransformed c'.input.name = true ↔
      c.input.program.ImportsDynamically := by
    rw [h'.bundle, isTransformed_propagate_iff hnodup hquiet (List.mem_map_of_mem hc')]
    exact hrereads.settled.isSome_iff
  unfold Compiled.output
  split
  · -- it is transformed again because of its dynamic imports
    rename_i hagain
    exact ⟨hrereads.name, iff_of_true rfl (htransformed.mp hagain), nofun⟩
  · -- it has none, and keeps its text
    rename_i hagain
    exact ⟨hrereads.name, iff_of_false nofun fun himports => hagain (htransformed.mpr himports),
      fun _ => hrereads.source⟩

end Build

/-- In the output of a build, nothing is classified as waiting, and dynamic imports are found in
exactly those chunks whose sources hold some. So if the output can be transformed again, with any
settings, no chunk waits, the chunks with dynamic imports are transformed, and all others keep their
text. The texts of transformed chunks have to be read as the programs that were printed. -/
theorem transform_again {settings : Settings} {chunks : List Chunk} {out : Output}
    (h : transform settings chunks = .ok out) :
    ∃ compiled, Build settings chunks out compiled ∧ (∀ c ∈ compiled, c.IsSettledAs c.program) ∧
      ((∀ c ∈ compiled, out.bundle.isTransformed c.input.name = true →
          c.program.RoundTrips settings.minify) →
        (∀ c ∈ compiled, ∀ p, Program.parse (c.output settings out.bundle).text false = .ok p →
          c.IsSettledAs p) ∧
          ∀ settings' out', transform settings' out.asChunks = .ok out' →
            (∀ r ∈ out'.bundle.records, r.awaits = false) ∧
              List.Forall₂ (Compiled.BecomesAgain settings out.bundle) compiled out'.chunks) := by
  obtain ⟨compiled, hbuild⟩ := transform_eq_ok_iff.mp h
  refine ⟨compiled, hbuild, fun c hc => hbuild.isSettledAs hc, fun hprinted => ⟨?_, ?_⟩⟩
  · exact fun c hc p hp => hbuild.isSettledAs_of_parse hprinted hc hp
  · intro settings' out' hout'
    obtain ⟨compiled', hbuild'⟩ := transform_eq_ok_iff.mp hout'
    exact hbuild.again hbuild' hprinted

/-- A chunk that waits, one that imports it dynamically, and one that is left untouched. -/
def repeatable : List Chunk :=
  [⟨"a.js", "await x"⟩, ⟨"b.js", "import('./a.js')"⟩, ⟨"c.js", "x"⟩]

/-- The programs of the transformed chunks are read from their texts again, and the output can be
transformed once more. -/
def RepeatsFrom (modules : List Module) : Prop :=
  (∀ m ∈ modules, (Bundle.ofModules modules).propagate.isTransformed m.name = true →
    ∀ p ∈ (m.result {} (Bundle.ofModules modules).propagate).toOption, p.RoundTrips false) ∧
  ∀ out ∈ (transformModules {} modules).toOption,
    (transform { minify := true } out.asChunks).isOk = true

instance (modules : List Module) : Decidable (RepeatsFrom modules) :=
  inferInstanceAs (Decidable (_ ∧ _))

/-- Chunks that are printed and read back, one of them with a dynamic import. -/
theorem transform_again_repeatable :
    ∃ out compiled out', transform {} repeatable = .ok out ∧ Build {} repeatable out compiled ∧
      (∀ c ∈ compiled, out.bundle.isTransformed c.input.name = true →
        c.program.RoundTrips false) ∧
      transform { minify := true } out.asChunks = .ok out' ∧
      (∀ r ∈ out'.bundle.records, r.awaits = false) ∧
      List.Forall₂ (Compiled.BecomesAgain {} out.bundle) compiled out'.chunks := by
  obtain ⟨out, compiled, hout, hbuild, hprinted, hagain⟩ :=
    exists_build {} repeatable RepeatsFrom (by decide +kernel)
  have hprinted : ∀ c ∈ compiled, out.bundle.isTransformed c.input.name = true →
      c.program.RoundTrips false := by
    intro c hc htransformed
    rw [hbuild.bundle] at htransformed
    refine hprinted c.input (List.mem_map_of_mem hc) htransformed c.program ?_
    rw [← hbuild.bundle, hbuild.result c hc]
    rfl
  obtain ⟨out', hout'⟩ := exists_of_isOk (hagain out (by rw [hbuild.transformModules_eq]; rfl))
  obtain ⟨compiled', hbuild', -, htwice⟩ := transform_again hout
  obtain rfl := hbuild.unique hbuild'
  obtain ⟨hrecords, hchunks⟩ := (htwice hprinted).2 _ _ hout'
  exact ⟨out, compiled, out', hout, hbuild, hprinted, hout', hrecords, hchunks⟩

end Awaitless
