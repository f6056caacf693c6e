import Awaitless.Proofs.Script.Items
import Awaitless.Proofs.Script.Parsing.Basic

/-!
# What the rules for patterns give

Patterns nest, so the rule for patterns asks for patterns again. The parser runs to a given depth,
and what a rule asks for is a parameter of the rule. Each rule is therefore looked at alone, under
the hypothesis that what it asks for gives patterns (`hpattern`), and the parser follows by
induction on its depth; at depth zero it reports an error, and nothing is to be shown then.

* `yields_pattern` — every rule gives patterns if the rule for patterns that it asks does.
* `yields_runPattern`, `yields_runElement` — so the parser does, at every depth.
-/

namespace Awaitless.Script.Parser

variable {typed : Bool}

/-- A binding is a name. -/
theorem yields_bindingIdentifier :
    bindingIdentifier.Yields (fun n => ∃ text, n.form = .identifier text) typed :=
  .next fun start => .next fun text => (yields_node start _).weaken fun _ hn => ⟨text, hn⟩

section Rules

variable {rules : Rules}

/-- A default may follow, and nothing else. -/
theorem yields_withDefault (start : Nat) (target : Node) :
    (withDefault rules start target).Yields
      (fun n => n = target ∨ ∃ default, n.form = .defaulted target default) typed := by
  refine .next fun _ => .ite (fun _ => .next fun value => ?_) fun _ => .pure (.inl rfl)
  exact (yields_node start _).weaken fun _ hn => .inr ⟨value, hn⟩

/-- A word is no computed key. -/
theorem not_computed_of_word {name : String} {s : State} (h : s.token.kind = .word name) :
    ((propertyKey rules).run s).1.2 = false := by
  simp only [propertyKey, run_bind, run_here, run_kind, h]
  rfl

variable (hpattern : (rules .pattern).Yields Node.IsWholePattern typed)
include hpattern

/-- An element is a pattern that may have a default. -/
theorem yields_element : (element rules).Yields Node.IsPattern typed :=
  .next fun start => .bind hpattern fun target h =>
    (yields_withDefault start target).weaken fun _ hn => h.isPattern_of_withDefault hn

/-- What follows three points has no default, or an error is noted. -/
theorem yields_restElement : (restElement rules).Yields Node.IsWholePattern typed := by
  refine .next fun start => .next fun _ => .next fun inner => .bind hpattern fun pattern h => ?_
  refine .bind (yields_withDefault inner pattern) fun target htarget => ?_
  have hend : target.form.hasDefault = false →
      (node start (.rest target)).Yields Node.IsWholePattern typed := fun hwhole =>
    (yields_node start _).weaken fun _ hn =>
      ⟨.rest hn (h.isPattern_of_withDefault htarget) hwhole, by rw [hn]; rfl⟩
  dsimp only
  split
  · exact .bind (yields_note (Q := fun _ => False) _) fun _ h => h.elim
  · rename_i hform
    refine hend ?_
    rcases htarget with rfl | ⟨default, hdefault⟩
    · exact h.whole
    · exact absurd hdefault (hform _ _)

/-- A member is a property with a pattern, or a name that stands for both. -/
theorem yields_patternMember : (patternMember rules).Yields Node.IsWholePattern typed := by
  refine .next fun start => .next₂ (I := fun first r => ∀ name, first = .word name → r.2 = false)
    (fun s name h => not_computed_of_word h) fun first (key, computed) hcomputed => ?_
  refine .next fun colon => ?_
  have hvalue : (do
      expect .colon
      let value ← element rules
      node start (.patternProperty key value computed false)).Yields Node.IsWholePattern typed := by
    refine .next fun _ => .bind (yields_element hpattern) fun value h => ?_
    exact (yields_node start _).weaken fun _ hn => ⟨.property hn h, by rw [hn]; rfl⟩
  dsimp only
  split
  · rename_i name _ hkey
    obtain rfl : computed = false := hcomputed name rfl
    refine .ite (fun _ => hvalue) fun _ => .next fun _ => .next fun _ => ?_
    refine .bind (yields_withDefault start key) fun value h => ?_
    exact (yields_node start _).weaken fun _ hn => ⟨.shorthand hn hkey h, by rw [hn]; rfl⟩
  · exact hvalue

theorem yields_patternElement : (patternElement rules).Yields Node.IsPattern typed := by
  refine .next fun _ => .ite (fun _ => .next fun at0 => ?_) fun _ => yields_element hpattern
  exact .pure (.hole rfl)

/-- All members of an object pattern, the rest included. -/
theorem yields_patternMembers :
    (patternMembers rules).Yields (fun ms => ∀ m ∈ ms, m.IsWholePattern) typed := by
  refine .bind (yields_delimitedWithRest (yields_patternMember hpattern)
    (yields_restElement hpattern)) fun r hr => ?_
  dsimp only
  split
  · split
    · exact .pure hr
    · exact .next fun _ => .pure hr
  · exact .pure hr

/-- A pattern is a name, an object of patterns or an array of patterns. -/
theorem yields_pattern : (pattern rules).Yields Node.IsWholePattern typed := by
  refine .next fun start => .next fun found => ?_
  split
  · refine .bind (yields_between (yields_patternMembers hpattern)) fun ms hms => ?_
    exact (yields_node start _).weaken fun _ hn =>
      ⟨.object hn (fun m hm => (hms m hm).isPattern) fun m hm => (hms m hm).whole, by rw [hn]; rfl⟩
  · have hrest : (restElement rules).Yields Node.IsPattern typed :=
      (yields_restElement hpattern).weaken fun _ h => h.isPattern
    refine .bind (yields_between (yields_delimitedWithRest (yields_patternElement hpattern) hrest))
      fun r hr => ?_
    exact (yields_node start _).weaken fun _ hn => ⟨.array hn hr, by rw [hn]; rfl⟩
  · exact yields_bindingIdentifier.weaken fun _ ⟨_, hn⟩ => ⟨.name hn, by rw [hn]; rfl⟩

end Rules

/-- The parser gives patterns where one is asked for; a default only follows where a pattern is a
piece of something else. -/
theorem yields_runPattern (depth : Nat) :
    (run depth .pattern).Yields Node.IsWholePattern typed := by
  induction depth with
  | zero => exact yields_unexpected
  | succ depth ih => exact yields_pattern ih

/-- What may have a default is a pattern as well. -/
theorem yields_runElement (depth : Nat) : (run depth .element).Yields Node.IsPattern typed := by
  cases depth with
  | zero => exact yields_unexpected
  | succ depth => exact yields_element (yields_runPattern depth)

end Awaitless.Script.Parser
