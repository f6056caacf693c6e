import Awaitless.Proofs.Script.Items
import Awaitless.Proofs.Transform.Assembly

/-!
# The clauses of a transformed module's imports

An import declaration has a clause of one of a few forms. Adding an entry for a promise must lead to
one of them again: beside names in braces there is always room, behind a namespace there is none, so
the promise is imported on its own there. An import of a source binds a default and can take no
other entry, nor is it recognized as a namespace; an entry is added to it all the same, and the
result has no clause that the grammar knows. This is the one case in which threading goes wrong, and
the results here are equivalences because of it.

* `PromiseImports.hasClause_addSpecifier_iff` — a promise finds its place beside the entries of an
  import, or in a declaration of its own, unless the import is one of a source.
* `hasClause_assemble_iff` — all imports of a transformed module have a clause exactly if no import
  of a source leads to a transformed chunk.
-/

namespace Awaitless

open Script

namespace Transform

namespace PromiseImports

variable {bundle : Bundle} {importer : String}
  {imports : List (Span × ImportDeclaration)} {d : ImportDeclaration}

/-- Two entries are too many for the import of a source. -/
theorem hasClause_append_iff (hd : d.HasClause) (hwhole : bindsWhole d = false)
    (imported : ModuleName) (binding : String) :
    ImportDeclaration.HasClause
        { d with specifiers := some (d.specifiers.getD [] ++ [.named imported binding]) } ↔
      d.phase ≠ some .source := by
  obtain ⟨phase, specifiers, source⟩ := d
  match phase with
  | none =>
    obtain ⟨first, rest, hentries, hfirst, hrest⟩ := hd
    refine iff_of_true ⟨first, rest ++ [.named imported binding], ?_, hfirst, .inr ?_⟩ nofun
    · show specifiers.getD [] ++ [_] = first ++ (rest ++ [_])
      rw [← List.append_assoc, ← hentries]
    · obtain ⟨name, rfl⟩ | hnamed := hrest
      · -- such a declaration binds the whole module
        have hany : bindsWhole ⟨none, specifiers, source⟩ = true := by
          rw [bindsWhole, hentries]
          exact List.any_eq_true.mpr
            ⟨.whole name, List.mem_append_right _ (List.mem_singleton_self _), rfl⟩
        rw [hany] at hwhole
        cases hwhole
      · exact List.forall_mem_append.mpr
          ⟨hnamed, List.forall_mem_singleton.mpr ⟨imported, binding, rfl⟩⟩
  -- a default and nothing else is allowed here
  | some .source =>
    obtain ⟨name, hname⟩ := hd
    refine iff_of_false ?_ fun h => h rfl
    rintro ⟨name', hname'⟩
    obtain rfl : specifiers = some [.default name] := hname
    cases hname'
  | some .deferred =>
    obtain ⟨name, hname⟩ := hd
    obtain rfl : specifiers = some [.whole name] := hname
    cases hwhole

/-- A promise is imported beside the entries of an import or on its own, which leaves a clause
unless the import is one of a source. -/
theorem hasClause_addSpecifier_iff (hd : d.HasClause) (span : Span) (imported : ModuleName)
    (binding : String) :
    (∀ n ∈ addSpecifier span d (.named imported binding), ∀ d', n.importDeclaration? = some d' →
        d'.HasClause) ↔ d.phase ≠ some .source := by
  unfold addSpecifier
  cases hwhole : bindsWhole d with
  -- the declaration stays, and the promise has one of its own
  | true =>
    rw [if_pos rfl]
    refine iff_of_true ?_ ?_
    · refine List.forall_mem_cons.mpr ⟨?_, List.forall_mem_singleton.mpr ?_⟩
      · rintro d' ⟨⟩
        exact hd
      · rintro d' ⟨⟩
        refine ⟨[], [.named imported binding], rfl, .inl rfl, .inr ?_⟩
        exact List.forall_mem_singleton.mpr ⟨imported, binding, rfl⟩
    · intro hsource
      unfold ImportDeclaration.HasClause at hd
      rw [hsource] at hd
      obtain ⟨name, hname⟩ := hd
      rw [bindsWhole, hname] at hwhole
      cases hwhole
  | false =>
    rw [if_neg Bool.false_ne_true, ← hasClause_append_iff hd hwhole imported binding]
    constructor
    · intro h
      exact h _ (List.mem_singleton_self _) _ rfl
    · intro h n hn d' hd'
      rw [List.mem_singleton.mp hn] at hd'
      cases hd'
      exact h

/-- With the promises added, all imports have clauses exactly if no import of a source leads to a
transformed chunk. -/
theorem hasClause_threadFrom_iff (settings : Settings) (next : Nat)
    (himports : ∀ p ∈ imports, p.2.HasClause) :
    (∀ n ∈ (threadFrom bundle importer settings next imports).1, ∀ d,
        n.importDeclaration? = some d → d.HasClause) ↔
      ∀ p ∈ awaited bundle importer imports, p.2.phase ≠ some .source := by
  have hclause : ∀ p ∈ awaited bundle importer imports, p.2.HasClause :=
    fun p hp => himports p (List.mem_filter.mp hp).1
  constructor
  · intro h p hp
    obtain ⟨k, hk⟩ := List.mem_iff_getElem?.mp hp
    have hsubset := addSpecifier_subset_threadFrom settings next hk
    exact (hasClause_addSpecifier_iff (hclause p hp) p.1 _ _).mp fun n hn => h n (hsubset hn)
  · intro h n hn d hd
    rcases mem_threadFrom hn with ⟨p, hp, rfl⟩ | ⟨k, p, hk, hn⟩
    · cases hd
      exact himports p hp
    · have hp := List.mem_of_getElem? hk
      exact (hasClause_addSpecifier_iff (hclause p hp) p.1 _ _).mpr (h p hp) n hn d hd

end PromiseImports

variable {s : Surroundings} {items : Items} {body : List Node} {p : Program}

/-- All imports of a transformed module have clauses exactly if no import of a source leads to a
transformed chunk. -/
theorem hasClause_assemble_iff (hp : p.statements = assemble s items body)
    (himports : ∀ x ∈ items.imports, x.2.HasClause) :
    (∀ d ∈ p.importDeclarations, d.HasClause) ↔
      ∀ x ∈ PromiseImports.awaited s.bundle s.moduleName items.imports,
        x.2.phase ≠ some .source := by
  rw [← PromiseImports.hasClause_threadFrom_iff s.settings 0 himports]
  constructor
  · intro h n hn d hd
    exact h d ((mem_importDeclarations_assemble hp).mpr ⟨n, hn, hd⟩)
  · intro h d hd
    obtain ⟨n, hn, hd⟩ := (mem_importDeclarations_assemble hp).mp hd
    exact h n hn d hd

end Transform

end Awaitless
