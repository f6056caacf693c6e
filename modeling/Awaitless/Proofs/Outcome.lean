import Awaitless.Proofs.Requests
import Awaitless.Proofs.Transform.Unsupported

/-!
# How a build ends

A build ends in the first of its stages in which something is wrong. What is reported then is all
that is wrong in this stage, in the order of the chunks, and nothing else. So for every list of
chunks there is one of four endings, and each of them says what the result is, down to the list of
errors.

That there is no fifth ending is shown stage by stage, from the law that a gathering fails with all
causes in order. That two endings exclude each other is not obvious from their form, since each
names the modules that were read; but reading is a function, so both have read the same ones.

* `laterOccurrences` — the occurrences of names behind the first.
* `Chunk.problem?` — what is wrong with the text of a chunk.
* `Module.unsupported?` — why a module that has to be transformed cannot be.
* `EndsAs` — what a build results in, by the stage in which it ends.
* `transform_ends` — every build ends in exactly one of these ways.
-/

namespace Awaitless

open Script

/-! ## Names -/

/-- The occurrences of members that have occurred before, in order. -/
def laterOccurrences [DecidableEq α] (xs : List α) : List α :=
  (xs.zipIdx.filter fun x => x.1 ∈ xs.take x.2).map (·.1)

/-- A name is repeated where it stands behind an occurrence of itself. -/
theorem repeated_eq_laterOccurrences [DecidableEq α] (xs : List α) :
    repeated xs = laterOccurrences xs := by
  -- `before` has been read, and `seen` has the same members
  have hafter : ∀ before seen rest : List α, (∀ y, y ∈ seen ↔ y ∈ before) →
      repeatedAfter seen rest =
        ((rest.zipIdx before.length).filter fun x =>
          x.1 ∈ (before ++ rest).take x.2).map (·.1) := by
    intro before seen rest
    induction rest generalizing before seen with
    | nil => exact fun _ => rfl
    | cons x rest ih =>
      intro hseen
      have hx : x ∈ (before ++ x :: rest).take before.length ↔ x ∈ seen := by
        rw [List.take_left, hseen]
      -- whether or not the name is new, the rest goes on from the same members
      have hnext : ∀ seen', (∀ y, y ∈ seen' ↔ y ∈ before ++ [x]) → repeatedAfter seen' rest =
          ((rest.zipIdx (before.length + 1)).filter fun y =>
            y.1 ∈ (before ++ x :: rest).take y.2).map (·.1) := by
        intro seen' hseen'
        rw [ih _ _ hseen', List.length_append, List.length_singleton, ← List.append_cons]
      rw [repeatedAfter, List.zipIdx_cons, List.filter_cons]
      by_cases hmem : x ∈ seen
      · rw [if_pos hmem, if_pos (decide_eq_true (hx.mpr hmem)), List.map_cons]
        rw [hnext seen fun y => by grind]
      · rw [if_neg hmem, if_neg (fun h => hmem (hx.mp (of_decide_eq_true h)))]
        exact hnext _ fun y => by grind
  exact hafter [] [] xs fun _ => Iff.rfl

/-! ## Texts -/

/-- What is wrong with the text of a chunk: its grammar, or else a rule beyond the grammar. -/
def Chunk.problem? (c : Chunk) : Option Problem :=
  match Program.parse c.text false with
  | .error diagnostics => some (.syntaxError c.name (diagnostics.map (·.message)))
  | .ok p =>
    match p.earlyErrors with
    | [] => none
    | errors => some (.earlyError c.name (errors.map (·.message)))

/-- Reading a chunk fails with what is wrong with its text. -/
theorem failure?_read (c : Chunk) : failure? c.read = c.problem? := by
  unfold Chunk.read Chunk.problem?
  rw [failure?_map]
  unfold Source.check Source.read
  cases Program.parse c.text false with
  | error diagnostics => rfl
  | ok p =>
    dsimp only [bind, Except.bind]
    cases p.earlyErrors <;> rfl

/-- What keeps all rules is accepted by the grammar and the rules. -/
theorem Source.isAccepted_of_check {name text : String} {p : Program}
    (h : Source.check name text = .ok p) : p.IsAccepted :=
  ⟨Source.isItem_of_check h, fun _ hn _ hform =>
    Program.not_isNamelessClass (Source.check_eq_ok h).2 hn hform⟩

theorem isAccepted_of_read {c : Chunk} {m : Module} (h : c.read = .ok m) :
    m.program.IsAccepted := by
  obtain ⟨program, hcheck, rfl⟩ := exists_of_map_eq_ok h
  exact Source.isAccepted_of_check hcheck

/-! ## Modules -/

/-- Why a module that has to be transformed cannot be: its first item that has no place. -/
def Module.unsupported? (bundle : Bundle) (m : Module) : Option UnsupportedShape :=
  if bundle.isTransformed m.name then
    m.program.statements.findSome? (Node.unsupported? m.name)
  else none

/-- Generating a module fails with why it cannot be transformed. -/
theorem failure?_generate (settings : Settings) (bundle : Bundle) {m : Module}
    (hm : m.program.IsAccepted) :
    failure? (m.generate settings bundle) = m.unsupported? bundle := by
  unfold Module.generate Module.unsupported?
  split
  · exact (failure?_bind fun _ _ => rfl).trans (Transform.failure?_program _ _ hm)
  · rfl

/-- An output chunk has the name of its input. It is transformed exactly if the bundle says so, and
holds the same text otherwise. -/
structure OutputChunk.ComesFrom (bundle : Bundle) (c : Chunk) (o : OutputChunk) : Prop where
  name : o.name = c.name
  transformed : o.transformed = bundle.isTransformed c.name
  text : bundle.isTransformed c.name = false → o.text = c.text

/-- What is generated comes from the chunk that was read. -/
theorem comesFrom_of_generate {settings : Settings} {bundle : Bundle} {c : Chunk} {m : Module}
    {o : OutputChunk} (hread : c.read = .ok m) (h : m.generate settings bundle = .ok o) :
    o.ComesFrom bundle c := by
  obtain ⟨program, -, rfl⟩ := exists_of_map_eq_ok hread
  rw [Module.generate_eq_map] at h
  obtain ⟨result, -, rfl⟩ := exists_of_map_eq_ok h
  unfold Compiled.output
  cases htransformed : bundle.isTransformed c.name with
  | true => exact ⟨rfl, htransformed.symm, fun hfalse => nomatch htransformed.symm.trans hfalse⟩
  | false => exact ⟨rfl, htransformed.symm, fun _ => rfl⟩

/-! ## Endings -/

/-- The stages in which a build can end. -/
inductive Ending where
  | repeatedNames
  | unreadable
  | unsupported
  | output
deriving Repr, DecidableEq

/-- What a build results in, by the stage in which it ends. -/
inductive EndsAs (chunks : List Chunk) : Ending → Except (List Problem) Output → Prop
  /-- Names are given again: all occurrences but the first are reported. -/
  | repeatedNames : ¬ (chunks.map (·.name)).Nodup →
    EndsAs chunks .repeatedNames
      (.error ((laterOccurrences (chunks.map (·.name))).map .repeatedName))
  /-- Some chunks cannot be read: each of them is reported. -/
  | unreadable : (chunks.map (·.name)).Nodup → (∃ c ∈ chunks, c.problem? ≠ none) →
    EndsAs chunks .unreadable (.error (chunks.filterMap Chunk.problem?))
  /-- Some modules that have to be transformed cannot be: each of them is reported, by its first
  item that has no place. -/
  | unsupported (modules : List Module) (bundle : Bundle) : (chunks.map (·.name)).Nodup →
    chunks.map Chunk.read = modules.map .ok → bundle = (Bundle.ofModules modules).propagate →
    (∃ m ∈ modules, m.unsupported? bundle ≠ none) →
    EndsAs chunks .unsupported
      (.error ((modules.filterMap (Module.unsupported? bundle)).map .unsupported))
  /-- Nothing is wrong: there is one chunk for each. -/
  | output (modules : List Module) (out : Output) : (chunks.map (·.name)).Nodup →
    chunks.map Chunk.read = modules.map .ok → out.bundle = (Bundle.ofModules modules).propagate →
    (∀ m ∈ modules, m.unsupported? out.bundle = none) →
    List.Forall₂ (OutputChunk.ComesFrom out.bundle) chunks out.chunks →
    EndsAs chunks .output (.ok out)

namespace EndsAs

variable {chunks : List Chunk}

/-- Chunks that have been read have no problem. -/
theorem not_exists_problem? {modules : List Module} (h : chunks.map Chunk.read = modules.map .ok) :
    ¬ ∃ c ∈ chunks, c.problem? ≠ none := by
  rintro ⟨c, hc, hproblem⟩
  obtain ⟨m, -, hm⟩ := exists_value_of_mem h hc
  rw [← failure?_read, hm] at hproblem
  exact hproblem rfl

/-- The same modules from the same chunks cannot both be transformed and be refused. -/
theorem not_transformable {modules modules' : List Module} {bundle bundle' : Bundle}
    (hread : chunks.map Chunk.read = modules.map .ok)
    (hread' : chunks.map Chunk.read = modules'.map .ok)
    (hbundle : bundle = (Bundle.ofModules modules).propagate)
    (hbundle' : bundle' = (Bundle.ofModules modules').propagate)
    (hsome : ∃ m ∈ modules, m.unsupported? bundle ≠ none) :
    ¬ ∀ m ∈ modules', m.unsupported? bundle' = none := by
  intro hnone
  have hinjective : Function.Injective (List.map (Except.ok (ε := Problem) (α := Module))) :=
    List.map_injective_iff.mpr fun _ _ => Except.ok.inj
  obtain rfl := hinjective (hread.symm.trans hread')
  obtain rfl := hbundle.trans hbundle'.symm
  obtain ⟨m, hm, hshape⟩ := hsome
  exact hshape (hnone m hm)

/-- The conditions of different endings exclude each other. -/
theorem unique {ending ending' : Ending} {result result' : Except (List Problem) Output}
    (h : EndsAs chunks ending result) (h' : EndsAs chunks ending' result') : ending = ending' := by
  -- an ending is compared with all four: either both are the same, or one of them cannot be
  cases h with
  | repeatedNames hrepeated =>
    cases h' with
    | repeatedNames _ => rfl
    | _ => contradiction
  | unreadable hnodup hproblem =>
    cases h' with
    | repeatedNames _ => contradiction
    | unreadable _ _ => rfl
    | unsupported _ _ _ hread => exact absurd hproblem (not_exists_problem? hread)
    | output _ _ _ hread => exact absurd hproblem (not_exists_problem? hread)
  | unsupported modules bundle hnodup hread hbundle hsome =>
    cases h' with
    | repeatedNames _ => contradiction
    | unreadable _ hproblem => exact absurd hproblem (not_exists_problem? hread)
    | unsupported _ _ _ _ _ _ => rfl
    | output _ _ _ hread' hbundle' hnone =>
      exact absurd hnone (not_transformable hread hread' hbundle hbundle' hsome)
  | output modules out hnodup hread hbundle hnone =>
    cases h' with
    | repeatedNames _ => contradiction
    | unreadable _ hproblem => exact absurd hproblem (not_exists_problem? hread)
    | unsupported _ _ _ hread' hbundle' hsome =>
      exact absurd hnone (not_transformable hread' hread hbundle' hbundle hsome)
    | output _ _ _ _ _ _ => rfl

end EndsAs

/-! ## Stages -/

section stages

variable {settings : Settings} {bundle : Bundle} {chunks : List Chunk} {modules : List Module}

/-- Names that repeat are reported before anything is read. -/
theorem readAll_eq_error (h : ¬ (chunks.map (·.name)).Nodup) :
    readAll chunks = .error ((laterOccurrences (chunks.map (·.name))).map .repeatedName) := by
  unfold readAll
  split
  · exact absurd (repeated_eq_nil_iff.mp ‹_›) h
  · rw [repeated_eq_laterOccurrences]

/-- Where reading fails, each chunk that cannot be read is reported. -/
theorem endsAs_unreadable {problems : List Problem} (hnodup : (chunks.map (·.name)).Nodup)
    (h : gather (chunks.map Chunk.read) = .error problems) :
    EndsAs chunks .unreadable (.error problems) := by
  obtain ⟨rfl, hne⟩ := causes_of_gather h
  have hproblem : failure? ∘ Chunk.read = Chunk.problem? := funext failure?_read
  rw [List.filterMap_map, hproblem] at hne ⊢
  refine .unreadable hnodup ?_
  obtain ⟨problem, hmem⟩ := List.exists_mem_of_ne_nil _ hne
  obtain ⟨c, hc, hsome⟩ := List.mem_filterMap.mp hmem
  refine ⟨c, hc, ?_⟩
  rw [hsome]
  exact nofun

/-- The causes of all failures are the items that have no place. -/
theorem failures_of_generate (settings : Settings) (bundle : Bundle)
    (hread : chunks.map Chunk.read = modules.map .ok) :
    (modules.map (Module.generate settings bundle)).filterMap failure? =
      modules.filterMap (Module.unsupported? bundle) := by
  rw [List.filterMap_map]
  refine List.filterMap_congr fun m hm => failure?_generate settings bundle ?_
  obtain ⟨c, -, hc⟩ := exists_of_mem_values hread hm
  exact isAccepted_of_read hc

theorem forall₂_comesFrom {outputs : List OutputChunk}
    (hread : chunks.map Chunk.read = modules.map .ok)
    (hgenerate : modules.map (Module.generate settings bundle) = outputs.map .ok) :
    List.Forall₂ (OutputChunk.ComesFrom bundle) chunks outputs := by
  induction chunks generalizing modules outputs with
  | nil =>
    obtain rfl := List.map_eq_nil_iff.mp hread.symm
    obtain rfl := List.map_eq_nil_iff.mp hgenerate.symm
    exact .nil
  | cons c chunks ih =>
    obtain ⟨m, modules, rfl, hm, hmodules⟩ := List.map_eq_cons_iff.mp hread.symm
    obtain ⟨o, outputs, rfl, ho, houtputs⟩ := List.map_eq_cons_iff.mp hgenerate.symm
    exact .cons (comesFrom_of_generate hm.symm ho.symm) (ih hmodules.symm houtputs.symm)

/-- Modules that have been read are transformed, or each that cannot be is reported. -/
theorem endsAs_transformModules (settings : Settings) (hnodup : (chunks.map (·.name)).Nodup)
    (hread : chunks.map Chunk.read = modules.map .ok) :
    ∃ ending, EndsAs chunks ending
      ((transformModules settings modules).mapError fun shapes => shapes.map .unsupported) := by
  have hfailures := failures_of_generate settings (Bundle.ofModules modules).propagate hread
  unfold transformModules
  dsimp only
  -- what is gathered decides between the last two endings
  cases hgather :
    gather (modules.map (Module.generate settings (Bundle.ofModules modules).propagate))
  with
  | error shapes =>
    obtain ⟨hcauses, hne⟩ := causes_of_gather hgather
    obtain rfl := hfailures.symm.trans hcauses
    refine ⟨_, .unsupported modules _ hnodup hread rfl ?_⟩
    obtain ⟨shape, hmem⟩ := List.exists_mem_of_ne_nil _ hne
    obtain ⟨m, hm, hsome⟩ := List.mem_filterMap.mp hmem
    refine ⟨m, hm, ?_⟩
    rw [hsome]
    exact nofun
  | ok outputs =>
    rw [(values_of_gather hgather).2] at hfailures
    have hgenerate := gather_eq_ok_iff.mp hgather
    refine ⟨_, .output modules ⟨outputs, _, _⟩ hnodup hread rfl ?_ ?_⟩
    · exact List.filterMap_eq_nil_iff.mp hfailures.symm
    · exact forall₂_comesFrom hread hgenerate

end stages

/-- Every build ends in one of the stages. -/
theorem endsAs_transform (settings : Settings) (chunks : List Chunk) :
    ∃ ending, EndsAs chunks ending (transform settings chunks) := by
  unfold transform
  by_cases hnodup : (chunks.map (·.name)).Nodup
  · rw [readAll_eq_gather hnodup]
    cases hread : gather (chunks.map Chunk.read) with
    | error problems => exact ⟨_, endsAs_unreadable hnodup hread⟩
    | ok modules => exact endsAs_transformModules settings hnodup (gather_eq_ok_iff.mp hread)
  · rw [readAll_eq_error hnodup]
    exact ⟨_, .repeatedNames hnodup⟩

/-- Whatever a module is refused for, it is not a pattern of a declaration. -/
theorem EndsAs.place_ne {chunks : List Chunk} {ending : Ending} {problems : List Problem}
    (h : EndsAs chunks ending (.error problems)) {shape : UnsupportedShape}
    (hshape : .unsupported shape ∈ problems) : shape.place ≠ .destructuringPattern := by
  cases h with
  -- other stages report other problems
  | repeatedNames _ =>
    obtain ⟨name, -, hname⟩ := List.mem_map.mp hshape
    cases hname
  | unreadable _ _ =>
    obtain ⟨c, -, hc⟩ := List.mem_filterMap.mp hshape
    unfold Chunk.problem? at hc
    split at hc
    · cases hc
    · split at hc <;> cases hc
  | unsupported modules bundle _ _ _ _ =>
    obtain ⟨shape', hmem, hshape⟩ := List.mem_map.mp hshape
    cases hshape
    obtain ⟨m, -, hm⟩ := List.mem_filterMap.mp hmem
    unfold Module.unsupported? at hm
    split at hm
    · obtain ⟨n, -, hn⟩ := List.exists_of_findSome?_eq_some hm
      exact Node.place_of_unsupported? hn
    · cases hm

/-- Every build ends in exactly one of the stages, and none because of a pattern. -/
theorem transform_ends (settings : Settings) (chunks : List Chunk) :
    (∃! ending, EndsAs chunks ending (transform settings chunks)) ∧
      ∀ problems, transform settings chunks = .error problems →
        ∀ shape, .unsupported shape ∈ problems → shape.place ≠ .destructuringPattern := by
  obtain ⟨ending, hending⟩ := endsAs_transform settings chunks
  refine ⟨⟨ending, hending, fun _ h => h.unique hending⟩, fun problems hproblems shape hshape => ?_⟩
  rw [hproblems] at hending
  exact hending.place_ne hshape

/-- A chunk that exports nothing again, and a type as its default. -/
def exportedType : List Chunk :=
  [⟨"a.js", "await 1; export default interface A {}"⟩]

/-- A type has no place in a closure either. -/
theorem unsupported_exportedType :
    (∃ modules, readAll exportedType = .ok modules ∧
      ∀ m ∈ modules, ∀ s ∈ m.program.statements, s.reExported? = none) ∧
    failure? (transform {} exportedType) =
      some [.unsupported ⟨"a.js", .defaultExport, "TSInterfaceDeclaration"⟩] := by
  have hread : (readAll exportedType).toOption.any (fun modules =>
      modules.all fun m => m.program.statements.all fun s => s.reExported?.isNone) = true := by
    decide +kernel
  obtain ⟨modules, hmodules, hall⟩ := (Option.any_eq_true ..).mp hread
  refine ⟨⟨modules, eq_ok_of_toOption hmodules, fun m hm s hs => ?_⟩, by decide +kernel⟩
  exact Option.isNone_iff_eq_none.mp (List.all_eq_true.mp (List.all_eq_true.mp hall m hm) s hs)

end Awaitless
