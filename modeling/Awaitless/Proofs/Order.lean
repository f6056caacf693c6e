import Awaitless.Proofs.Locality
import Awaitless.Proofs.Waiting

/-!
# The order of the chunks

The positions of records change with the order in which chunks are provided, and so does the order
in which waiting spreads. Nothing of this is seen from outside: the same chunks come out, with the
same records when importers are read by name, and with the same warnings; and where a build fails,
it fails with the same problems in another order.

Success and failure have to be related at once, since a stage may succeed in one order only if it
succeeds in every other. Computations agree if both succeed with related results or both fail with
the same causes (`Agree`), and each stage takes agreeing inputs to agreeing results.

* `Agree` — two computations succeed with related results, or fail with the same causes up to order.
* `agree_gather`, `agree_readAll`, `agree_transformModules` — one law for each stage.
* `Output.SameUpToOrder` — the same chunks, records by name and warnings.
* `transform_perm` — the output of a build is the same up to order, and so are its problems.
-/

namespace Awaitless

variable {ε ε' α α' β β' : Type}

/-! ## Agreement -/

/-- Both succeed, with related results, or both fail, with the same causes up to order. -/
inductive Agree (R : α → β → Prop) : Except (List ε) α → Except (List ε) β → Prop
  | ok {a : α} {b : β} : R a b → Agree R (.ok a) (.ok b)
  | error {es es' : List ε} : es.Perm es' → Agree R (.error es) (.error es')

namespace Agree

variable {R : α → β → Prop} {S : α' → β' → Prop} {x : Except (List ε) α} {y : Except (List ε) β}

/-- One stage after the other. -/
theorem bind {f : α → Except (List ε) α'} {g : β → Except (List ε) β'} (h : Agree R x y)
    (hf : ∀ a b, x = .ok a → y = .ok b → R a b → Agree S (f a) (g b)) :
    Agree S (x >>= f) (y >>= g) := by
  cases h with
  | ok hR => exact hf _ _ rfl rfl hR
  | error hperm => exact .error hperm

/-- Causes may be put in other words. -/
theorem mapError (f : ε → ε') (h : Agree R x y) :
    Agree R (x.mapError fun es => es.map f) (y.mapError fun es => es.map f) := by
  cases h with
  | ok hR => exact .ok hR
  | error hperm => exact .error (hperm.map f)

end Agree

/-- What is gathered does not depend on the order, up to order. -/
theorem agree_gather {results results' : List (Except ε α)} (h : results.Perm results') :
    Agree List.Perm (gather results) (gather results') := by
  have hvalues := h.filterMap Except.toOption
  have hcauses := h.filterMap failure?
  cases hresults : gather results with
  | ok values =>
    obtain ⟨rfl, hnone⟩ := values_of_gather hresults
    -- one order cannot succeed where the other fails, because the same computations fail
    cases hresults' : gather results' with
    | ok values' =>
      obtain ⟨rfl, -⟩ := values_of_gather hresults'
      exact .ok hvalues
    | error causes' =>
      obtain ⟨rfl, hsome⟩ := causes_of_gather hresults'
      rw [hnone] at hcauses
      exact absurd hcauses.symm.eq_nil hsome
  | error causes =>
    obtain ⟨rfl, hsome⟩ := causes_of_gather hresults
    cases hresults' : gather results' with
    | ok values' =>
      rw [(values_of_gather hresults').2] at hcauses
      exact absurd hcauses.eq_nil hsome
    | error causes' =>
      obtain ⟨rfl, -⟩ := causes_of_gather hresults'
      exact .error hcauses

/-! ## Stages -/

/-- Two outputs hold the same chunks, say the same about each of them, and warn of the same
imports. -/
structure Output.SameUpToOrder (out out' : Output) : Prop where
  chunks : out.chunks.Perm out'.chunks
  records : out.bundle.named.Perm out'.bundle.named
  warnings : out.warnings.Perm out'.warnings

/-- Chunks are read one by one, so their order is that of the modules. -/
theorem agree_readAll {chunks chunks' : List Chunk} (hnodup : (chunks.map (·.name)).Nodup)
    (h : chunks.Perm chunks') : Agree List.Perm (readAll chunks) (readAll chunks') := by
  have hnodup' : (chunks'.map (·.name)).Nodup := (h.map (·.name)).nodup_iff.mp hnodup
  rw [readAll_eq_gather hnodup, readAll_eq_gather hnodup']
  exact agree_gather (h.map Chunk.read)

section modules

variable {modules modules' : List Module} (h : modules.Perm modules')
include h

/-- Warnings depend on names only, and come in the order of the modules. -/
theorem perm_missingModules : (missingModules modules).Perm (missingModules modules') := by
  have hcontains : ∀ target, (modules.map (·.name)).contains target =
      (modules'.map (·.name)).contains target := fun target => by
    rw [Bool.eq_iff_iff, List.contains_iff_mem, List.contains_iff_mem]
    exact (h.map (·.name)).mem_iff
  unfold missingModules
  simp only [hcontains]
  exact h.flatMap_right _

variable (hnodup : (modules.map (·.name)).Nodup)
include hnodup

/-- Read by name, the records are the same up to order. -/
theorem perm_named_propagate :
    (Bundle.ofModules modules).propagate.named.Perm
      (Bundle.ofModules modules').propagate.named := by
  have hnodup' : (modules'.map (·.name)).Nodup := (h.map (·.name)).nodup_iff.mp hnodup
  have hnames := Bundle.names_propagate hnodup
  have hnames' := Bundle.names_propagate hnodup'
  rw [Bundle.named_eq_filterMap (hnames ▸ hnodup), Bundle.named_eq_filterMap (hnames' ▸ hnodup'),
    hnames, hnames']
  -- every name finds the same record in both
  rw [funext (map_toNamed_get?_congr hnodup hnodup' fun m => h.mem_iff)]
  exact (h.map (·.name)).filterMap _

/-- A module turns into the same chunk in both orders. -/
theorem generate_perm {settings : Settings} {m : Module} (hm : m ∈ modules)
    (hitems : ∀ s ∈ m.program.statements, s.IsItem) :
    m.generate settings (Bundle.ofModules modules).propagate =
      m.generate settings (Bundle.ofModules modules').propagate := by
  have hnodup' : (modules'.map (·.name)).Nodup := (h.map (·.name)).nodup_iff.mp hnodup
  have hlinked := linked_propagate hnodup
  have hlinked' := linked_propagate hnodup'
  have hnames := Bundle.names_propagate hnodup ▸ hnodup
  have hnames' := Bundle.names_propagate hnodup' ▸ hnodup'
  have hmem : ∀ x, x ∈ modules ↔ x ∈ modules' := fun x => h.mem_iff
  have htransformed := isTransformed_propagate_congr hnodup hnodup' hmem
  refine Module.generate_congr hlinked hlinked' hnames hnames' hm (h.mem_iff.mp hm) hitems
    (htransformed m.name) ⟨?_, fun _ _ target _ => htransformed target, fun _ _ target _ => ?_⟩
  · rw [hlinked.imports_iff hnames, hlinked'.imports_iff hnames']
    simp only [hmem]
  · exact isUntouched_propagate_congr hnodup hnodup' hmem target

/-- A module turns into the same chunk, wherever it stands. -/
theorem agree_transformModules {settings : Settings}
    (hitems : ∀ m ∈ modules, ∀ s ∈ m.program.statements, s.IsItem) :
    Agree Output.SameUpToOrder (transformModules settings modules)
      (transformModules settings modules') := by
  have hgenerate : modules.map (Module.generate settings (Bundle.ofModules modules).propagate) =
      modules.map (Module.generate settings (Bundle.ofModules modules').propagate) :=
    List.map_congr_left fun m hm => generate_perm h hnodup hm (hitems m hm)
  unfold transformModules
  dsimp only
  rw [hgenerate]
  refine (agree_gather (h.map _)).bind fun chunks chunks' _ _ hchunks => .ok ?_
  exact ⟨hchunks, perm_named_propagate h hnodup, perm_missingModules h⟩

end modules

/-- The output of a build is the same in any order of its chunks, and so are its problems. -/
theorem transform_perm {settings : Settings} {chunks chunks' : List Chunk}
    (hnodup : (chunks.map (·.name)).Nodup) (h : chunks.Perm chunks') :
    Agree Output.SameUpToOrder (transform settings chunks) (transform settings chunks') := by
  refine (agree_readAll hnodup h).bind fun modules modules' hread _ hmodules => ?_
  obtain ⟨hread, hnodup⟩ := readAll_eq_ok_iff.mp hread
  refine (agree_transformModules hmodules hnodup fun m hm => ?_).mapError _
  obtain ⟨chunk, -, hchunk⟩ := exists_of_mem_values hread hm
  exact isItem_of_read hchunk

/-- A cycle with a waiting chunk in it, one that imports the cycle, and one that is missing. -/
def entangled : List Chunk :=
  [⟨"a.js", "import { b } from './b.js'; export const a = () => b;"⟩,
    ⟨"b.js", "import { a } from './a.js'; export const b = await a;"⟩,
    ⟨"c.js", "import './a.js'; import './d.js'; const load = () => import('./b.js');"⟩]

/-- Chunks that import each other in a circle, forwards and backwards. -/
theorem transform_perm_entangled :
    (transform {} entangled).isOk = true ∧ (entangled.map (·.name)).Nodup ∧
      entangled.Perm entangled.reverse ∧
        Agree Output.SameUpToOrder (transform {} entangled) (transform {} entangled.reverse) := by
  have hnodup : (entangled.map (·.name)).Nodup := by decide
  have hperm : entangled.Perm entangled.reverse := (List.reverse_perm _).symm
  exact ⟨by decide +kernel, hnodup, hperm, transform_perm hnodup hperm⟩

end Awaitless
