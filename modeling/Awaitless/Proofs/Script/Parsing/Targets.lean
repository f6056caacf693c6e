import Awaitless.Proofs.Script.Parsing.Pattern
import Awaitless.Proofs.Script.Targets

/-!
# Parsed patterns as targets

A declaration can be taken apart into a declaration of its names and an assignment of its value,
since every pattern that the parser reads turns into a target of the same shape. Only a pattern
together with its default does not: it is an element of something else.

* `Node.IsParsedPattern` — what the parser reads where it is asked for a pattern.
* `Node.IsParsedPattern.toTarget_mirrors` — the targets of these patterns.
-/

namespace Awaitless.Script.Node

open Awaitless.Script.Parser

/-- A pattern of a declaration, perhaps with a default, as the parser reads it: from anywhere in a
text of either dialect, down to any depth, where nothing is found wrong in the end. -/
def IsParsedPattern (n : Node) : Prop :=
  ∃ (depth : Nat) (goal : Goal) (s : State), (goal = .pattern ∨ goal = .element) ∧
    ((run depth goal).run s).2.Clean ∧ ((run depth goal).run s).1 = n

variable {n : Node}

/-- What the parser reads as a pattern is one of the grammar. -/
theorem IsParsedPattern.isPattern (h : n.IsParsedPattern) : n.IsPattern := by
  obtain ⟨depth, goal, s, hgoal, hclean, rfl⟩ := h
  rcases hgoal with rfl | rfl
  · exact (yields_runPattern depth s rfl hclean).isPattern
  · exact yields_runElement depth s rfl hclean

/-- A parsed pattern is no target exactly if it has a default behind it. Every other one turns into
a target that mirrors it node for node, from which it can be told again, and which assigns the names
that the pattern binds, in the same order and as often. -/
theorem IsParsedPattern.toTarget_mirrors (h : n.IsParsedPattern) :
    (∀ kind, n.toTarget false = .error kind ↔
      n.form.hasDefault = true ∧ kind = "AssignmentPattern") ∧
    (n.form.hasDefault = false → ∃ target, n.toTarget false = .ok target ∧ n.Mirrors target ∧
      target.withRole .binding = n ∧ target.patternNames = n.boundNames) := by
  have hpattern := h.isPattern
  have hwhole : n.form.hasDefault = false → n.toTarget false = .ok (n.withRole .target) :=
    fun hdefault => IsWholePattern.toTarget_eq ⟨hpattern, hdefault⟩
  constructor
  · -- a default is the only thing at which conversion fails
    intro kind
    cases hdefault : n.form.hasDefault with
    | true =>
      rw [toTarget_of_hasDefault hdefault]
      exact ⟨fun h => ⟨rfl, (Except.error.inj h).symm⟩, fun h => by rw [h.2]⟩
    | false =>
      rw [hwhole hdefault]
      exact iff_of_false nofun nofun
  · intro hdefault
    have hmirrors := hpattern.mirrors
    refine ⟨_, hwhole hdefault, hmirrors, hmirrors.withRole_binding, ?_⟩
    rw [patternNames_withRole, hpattern.boundNames_eq_patternNames]

/-- A pattern with a computed key, defaults inside of each other, a hole, a repeated name and
rests. -/
def nested : String := "{ a, [k]: { b = 1 } = {}, c: [d = 1, , ...[e, a]], ...f }"

/-- It turns into a target with the same names; an element with a default does not. -/
theorem toTarget_mirrors_nested :
    (∃ n : Node, n.IsParsedPattern ∧ n.form.hasDefault = false ∧
      ∃ target, n.toTarget false = .ok target ∧ n.Mirrors target ∧ target.withRole .binding = n ∧
        target.patternNames = ["a", "b", "d", "e", "a", "f"]) ∧
    ∃ n : Node, n.IsParsedPattern ∧ n.form.hasDefault = true ∧
      n.toTarget false = .error "AssignmentPattern" := by
  -- whether a run was clean can be computed
  have hrun : ∀ {depth : Nat} {goal : Goal} {text : String},
      (goal = .pattern ∨ goal = .element) →
      (let r := (run depth goal).run (initialState text false).2
       (r.2.lexicalErrors.isEmpty && r.2.errors.isEmpty && r.2.failure.isNone) = true) →
      ((run depth goal).run (initialState text false).2).1.IsParsedPattern := by
    intro depth goal text hgoal hclean
    simp only [Bool.and_eq_true, List.isEmpty_iff, Option.isNone_iff_eq_none] at hclean
    exact ⟨depth, goal, _, hgoal, ⟨hclean.1.1, hclean.1.2, hclean.2⟩, rfl⟩
  constructor
  · have hparsed : ((run 40 .pattern).run (initialState nested false).2).1.IsParsedPattern :=
      hrun (.inl rfl) (by decide +kernel)
    obtain ⟨target, htarget, hmirrors, hback, hnames⟩ :=
      hparsed.toTarget_mirrors.2 (by decide +kernel)
    refine ⟨_, hparsed, by decide +kernel, target, htarget, hmirrors, hback, hnames.trans ?_⟩
    decide +kernel
  · have hparsed : ((run 40 .element).run (initialState "a = b" false).2).1.IsParsedPattern :=
      hrun (.inr rfl) (by decide +kernel)
    have hdefault : ((run 40 .element).run (initialState "a = b" false).2).1.form.hasDefault =
        true := by
      decide +kernel
    exact ⟨_, hparsed, hdefault, (hparsed.toTarget_mirrors.1 _).mpr ⟨hdefault, rfl⟩⟩

end Awaitless.Script.Node
