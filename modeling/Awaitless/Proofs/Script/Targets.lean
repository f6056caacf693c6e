import Awaitless.Proofs.Failure
import Awaitless.Proofs.Script.Calls
import Awaitless.Proofs.Script.Names
import Mathlib.Data.List.Forall2

/-!
# Patterns as targets

The target of an assignment that assigns what a declaration binds is the pattern of the declaration
in another role. A pattern may bind at any depth, through properties, elements, defaults and rests,
and each of these is rebuilt as the target that corresponds to it. So the two trees are compared
node for node (`Node.Mirrors`).

The program converts with two errors in mind: a default is no target by itself, and some nodes are
neither names nor patterns. The grammar leaves only the first one (`Node.IsPattern.toTarget_eq`),
and it allows a default wherever a member of a pattern may have one. With this, conversion is
nothing but a change of roles, and all that is known of patterns holds of targets: what they
evaluate, which calls stand in them, and which names they have.

* `Node.withRole` — a pattern in another role.
* `Node.blocks_withRole`, `Node.calls_withRole`, `Node.patternNames_withRole` — what it evaluates,
  the dynamic imports in it and its names are the same in both roles.
* `Node.IsPattern.toTarget_eq` — the patterns of the grammar turn into themselves in another role,
  unless there is a default behind them.
* `Node.Mirrors` — a target that is a pattern node for node.
-/

namespace Awaitless.Script.Node

variable {members : Bool} {n : Node}

/-! ## Roles -/

/-- The pattern in another role, with the same keys, defaults, holes and rests. -/
def withRole (role : PatternRole) : Node → Node :=
  para fun span form =>
    match form with
    | .objectPattern _ members => mk span (.objectPattern role (members.map (·.2)))
    | .arrayPattern _ elements => mk span (.arrayPattern role (elements.map (·.2)))
    | .patternProperty key value computed shorthand =>
      mk span (.patternProperty key.1 value.2 computed shorthand)
    | .defaulted target value => mk span (.defaulted target.2 value.1)
    | .rest target => mk span (.rest target.2)
    | other => mk span (other.map (·.1))

/-- One step: a pattern changes its role together with its members, and keys and defaults stay. -/
theorem withRole_mk (role : PatternRole) (span : Span) (form : Form Node) :
    (mk span form).withRole role =
      match form with
      | .objectPattern _ ms => mk span (.objectPattern role (ms.map (withRole role)))
      | .arrayPattern _ xs => mk span (.arrayPattern role (xs.map (withRole role)))
      | .patternProperty key value computed shorthand =>
        mk span (.patternProperty key (value.withRole role) computed shorthand)
      | .defaulted target value => mk span (.defaulted (target.withRole role) value)
      | .rest target => mk span (.rest (target.withRole role))
      | other => mk span other := by
  rw [withRole, para_mk]
  cases form with
  | objectPattern _ ms =>
    exact congrArg (fun xs => mk span (.objectPattern role xs)) List.map_map
  | arrayPattern _ xs =>
    exact congrArg (fun xs => mk span (.arrayPattern role xs)) List.map_map
  | patternProperty _ _ _ _ | defaulted _ _ | rest _ => rfl
  | _ =>
    show mk span ((Form.map _ _).map _) = mk span _
    rw [Form.map_map]
    exact congrArg (mk span) (Form.map_id _)

/-- A name has no role. -/
theorem withRole_of_identifier {role : PatternRole} {text : String}
    (h : n.form = .identifier text) : n.withRole role = n := by
  obtain ⟨span, form⟩ := n
  obtain rfl : form = .identifier text := h
  rw [withRole_mk]

/-- A pattern blocks in either role. -/
theorem blocks_withRole (role : PatternRole) (n : Node) :
    (n.withRole role).Blocks members ↔ n.Blocks members := by
  have hlist : ∀ xs : List Node,
      (∀ x ∈ xs, (x.withRole role).Blocks members ↔ x.Blocks members) →
        ((∃ x ∈ xs.map (withRole role), x.Blocks members) ↔ ∃ x ∈ xs, x.Blocks members) := by
    intro xs ih
    constructor
    · rintro ⟨_, hmem, hblocks⟩
      obtain ⟨x, hx, rfl⟩ := List.mem_map.mp hmem
      exact ⟨x, hx, (ih x hx).mp hblocks⟩
    · rintro ⟨x, hx, hblocks⟩
      exact ⟨_, List.mem_map_of_mem hx, (ih x hx).mpr hblocks⟩
  induction n using Node.induction with
  | step span form ih =>
    rw [withRole_mk]
    -- patterns change with their members; what is no pattern stays as it is
    split
    · rename_i ms
      rw [blocks_mk_iff (ms.map _) rfl rfl rfl, blocks_mk_iff ms rfl rfl rfl]
      exact hlist ms ih
    · rename_i xs
      rw [blocks_mk_iff (xs.map _) rfl rfl rfl, blocks_mk_iff xs rfl rfl rfl]
      exact hlist xs ih
    · rename_i key value _ _
      have hvalue := ih value (List.mem_cons_of_mem _ (List.mem_singleton_self value))
      rw [blocks_mk_iff [key, value.withRole role] rfl rfl rfl,
        blocks_mk_iff [key, value] rfl rfl rfl]
      simp [hvalue]
    · rename_i target value
      have htarget := ih target (List.mem_cons_self ..)
      rw [blocks_mk_iff [target.withRole role, value] rfl rfl rfl,
        blocks_mk_iff [target, value] rfl rfl rfl]
      simp [htarget]
    · rename_i target
      rw [blocks_mk_singleton_iff rfl rfl rfl, blocks_mk_singleton_iff rfl rfl rfl]
      exact ih target (List.mem_singleton_self target)
    · rfl

/-- In another role, a pattern holds the same calls. -/
theorem calls_withRole (role : PatternRole) (n : Node) : (n.withRole role).calls = n.calls := by
  have hlist : ∀ xs : List Node, (∀ x ∈ xs, (x.withRole role).calls = x.calls) →
      (xs.map (withRole role)).flatMap calls = xs.flatMap calls := by
    intro xs ih
    rw [List.flatMap_map]
    exact List.flatMap_congr ih
  induction n using Node.induction with
  | step span form ih =>
    rw [withRole_mk]
    -- as for what is evaluated: keys, defaults and values hold the same calls
    split
    · rename_i ms
      rw [calls_of_form rfl rfl, calls_of_form rfl rfl]
      exact hlist ms ih
    · rename_i xs
      rw [calls_of_form rfl rfl, calls_of_form rfl rfl]
      exact hlist xs ih
    · rename_i key value _ _
      have hvalue := ih value (List.mem_cons_of_mem _ (List.mem_singleton_self value))
      rw [calls_of_form rfl rfl, calls_of_form rfl rfl]
      simp [Form.parts, hvalue]
    · rename_i target value
      have htarget := ih target (List.mem_cons_self ..)
      rw [calls_of_form rfl rfl, calls_of_form rfl rfl]
      simp [Form.parts, htarget]
    · rename_i target
      have htarget := ih target (List.mem_singleton_self target)
      rw [calls_of_form rfl rfl, calls_of_form rfl rfl]
      simp [Form.parts, htarget]
    · rfl

/-- A pattern has its names in either role. -/
theorem patternNames_withRole (role : PatternRole) (n : Node) :
    (n.withRole role).patternNames = n.patternNames := by
  induction n using Node.induction with
  | step span form ih =>
    have hall : ∀ xs : List Node, (∀ x ∈ xs, x ∈ form.parts) →
        (xs.map (withRole role)).flatMap patternNames = xs.flatMap patternNames := by
      intro xs hxs
      rw [List.flatMap_map, List.flatMap_def, List.flatMap_def,
        List.map_congr_left fun x hx => ih x (hxs x hx)]
    rw [withRole_mk, patternNames_eq, patternNames_eq (.mk span form)]
    cases form with
    | objectPattern _ xs => exact hall xs fun _ hx => hx
    | arrayPattern _ xs => exact hall xs fun _ hx => hx
    | patternProperty key value computed shorthand =>
      exact ih value (List.mem_cons_of_mem _ (List.mem_singleton_self value))
    | defaulted target value => exact ih target (List.mem_cons_self ..)
    | rest target => exact ih target (List.mem_singleton_self target)
    | _ => rfl

/-! ## Targets -/

/-- One step of the conversion, with everything at which it fails. -/
theorem toTarget_mk (span : Span) (form : Form Node) (allowsDefault : Bool) :
    (mk span form).toTarget allowsDefault =
      match form with
      | .identifier name => .ok (mk span (.identifier name))
      | .hole => .ok (mk span .hole)
      | .objectPattern _ ms =>
        (ms.mapM (toTarget · false)).map fun ts => mk span (.objectPattern .target ts)
      | .arrayPattern _ xs =>
        (xs.mapM (toTarget · true)).map fun ts => mk span (.arrayPattern .target ts)
      | .patternProperty key value computed shorthand =>
        if shorthand then (shorthandTarget value).map (mk span)
        else (value.toTarget true).map fun t => mk span (.patternProperty key t computed false)
      | .defaulted target value =>
        if allowsDefault then (target.toTarget false).map fun t => mk span (.defaulted t value)
        else .error "AssignmentPattern"
      | .rest target => (target.toTarget false).map fun t => mk span (.rest t)
      | _ => .error "BindingPattern" := by
  -- the steps of a computation that may fail are a map where only the last one builds something
  have hmap : ∀ {α : Type} (x : Except String α) (f : α → Node),
      (x >>= fun a => pure (f a)) = x.map f := fun x f => bind_pure_comp f x
  rw [toTarget, para_mk, ← toTarget]
  cases form with
  | objectPattern _ ms =>
    show (List.mapM _ (List.map _ ms) >>= _) = _
    rw [List.mapM_map]
    exact hmap _ fun ts => mk span (.objectPattern .target ts)
  | arrayPattern _ xs =>
    show (List.mapM _ (List.map _ xs) >>= _) = _
    rw [List.mapM_map]
    exact hmap _ fun ts => mk span (.arrayPattern .target ts)
  | patternProperty key value computed shorthand =>
    cases shorthand with
    | true => exact hmap (shorthandTarget value) (mk span)
    | false => exact hmap _ fun t => mk span (.patternProperty key t computed false)
  | defaulted target value =>
    cases allowsDefault with
    | true => exact hmap _ fun t => mk span (.defaulted t value)
    | false => rfl
  | rest target => exact hmap _ fun t => mk span (.rest t)
  | _ => rfl

/-- A default on its own is no target. -/
theorem toTarget_of_hasDefault (h : n.form.hasDefault = true) :
    n.toTarget false = .error "AssignmentPattern" := by
  obtain ⟨span, form⟩ := n
  cases form with
  | defaulted target value => exact toTarget_mk ..
  | _ => cases h

/-- A shorthand stays one, with its default if it has one. -/
theorem shorthandTarget_eq {key value : Node} {text : String} (hkey : key.form = .identifier text)
    (hvalue : value = key ∨ ∃ default, value.form = .defaulted key default) :
    shorthandTarget value = .ok (.patternProperty key (value.withRole .target) false true) := by
  unfold shorthandTarget
  rcases hvalue with rfl | ⟨default, hdefault⟩
  · rw [hkey, withRole_of_identifier hkey]
  · obtain ⟨span, form⟩ := value
    obtain rfl : form = .defaulted key default := hdefault
    rw [withRole_mk]
    dsimp only [form_mk]
    rw [hkey, withRole_of_identifier hkey]

/-- A pattern of the grammar turns into itself in another role: where a default stands, it is
allowed. -/
theorem IsPattern.toTarget_eq (h : n.IsPattern) (allowsDefault : Bool)
    (hallows : n.form.hasDefault = true → allowsDefault = true) :
    n.toTarget allowsDefault = .ok (n.withRole .target) := by
  -- where all members of a list turn into targets, the list does
  have hlist : ∀ {b : Bool} {xs : List Node},
      (∀ x ∈ xs, x.toTarget b = .ok (x.withRole .target)) →
        xs.mapM (toTarget · b) = .ok (xs.map (withRole .target)) := fun h => mapM_eq_ok h
  -- by the shape of patterns; where a default is allowed differs from member to member
  induction h generalizing allowsDefault with
  | @name n text hform =>
    obtain ⟨span, form⟩ := n
    obtain rfl : form = .identifier text := hform
    rw [toTarget_mk, withRole_mk]
  | @hole n hform =>
    obtain ⟨span, form⟩ := n
    obtain rfl : form = .hole := hform
    rw [toTarget_mk, withRole_mk]
  | @object n ms hform _ hwhole ih =>
    obtain ⟨span, form⟩ := n
    obtain rfl : form = .objectPattern .binding ms := hform
    have hms := hlist fun m hm =>
      ih m hm false fun h => absurd h (Bool.eq_false_iff.mp (hwhole m hm))
    rw [toTarget_mk, withRole_mk]
    exact congrArg (Except.map fun ts => mk span (.objectPattern .target ts)) hms
  | @array n xs hform _ ih =>
    obtain ⟨span, form⟩ := n
    obtain rfl : form = .arrayPattern .binding xs := hform
    have hxs := hlist fun x hx => ih x hx true fun _ => rfl
    rw [toTarget_mk, withRole_mk]
    exact congrArg (Except.map fun ts => mk span (.arrayPattern .target ts)) hxs
  | @property n key value computed hform _ ih =>
    obtain ⟨span, form⟩ := n
    obtain rfl : form = .patternProperty key value computed false := hform
    have hvalue := ih true fun _ => rfl
    rw [toTarget_mk, withRole_mk]
    exact congrArg (Except.map fun t => mk span (.patternProperty key t computed false)) hvalue
  | @shorthand n key value text hform hkey hvalue =>
    obtain ⟨span, form⟩ := n
    obtain rfl : form = .patternProperty key value false true := hform
    rw [toTarget_mk, withRole_mk]
    exact congrArg (Except.map (mk span)) (shorthandTarget_eq hkey hvalue)
  | @defaulted n target value hform _ hwhole ih =>
    obtain ⟨span, form⟩ := n
    obtain rfl : form = .defaulted target value := hform
    have htarget := ih false fun h => absurd h (Bool.eq_false_iff.mp hwhole)
    obtain rfl : allowsDefault = true := hallows rfl
    rw [toTarget_mk, withRole_mk]
    exact congrArg (Except.map fun t => mk span (.defaulted t value)) htarget
  | @rest n target hform _ hwhole ih =>
    obtain ⟨span, form⟩ := n
    obtain rfl : form = .rest target := hform
    have htarget := ih false fun h => absurd h (Bool.eq_false_iff.mp hwhole)
    rw [toTarget_mk, withRole_mk]
    exact congrArg (Except.map fun t => mk span (.rest t)) htarget

/-- A pattern with no default of its own is always converted. -/
theorem IsWholePattern.toTarget_eq (h : n.IsWholePattern) :
    n.toTarget false = .ok (n.withRole .target) :=
  h.isPattern.toTarget_eq false fun hdefault => absurd hdefault (Bool.eq_false_iff.mp h.whole)

theorem IsWholePattern.target?_eq (h : n.IsWholePattern) :
    n.target? = some (n.withRole .target) := by
  rw [target?, h.toTarget_eq]
  rfl

/-! ## Node for node -/

/-- A target that is a pattern of a declaration, node for node: with the same keys, the same
defaults in the same places, the same holes and the same rest, in the same order. -/
inductive Mirrors : (pattern target : Node) → Prop
  | name (span : Span) (text : String) :
    Mirrors (mk span (.identifier text)) (mk span (.identifier text))
  | hole (span : Span) : Mirrors (mk span .hole) (mk span .hole)
  | object (span : Span) {ms ts : List Node} : List.Forall₂ Mirrors ms ts →
    Mirrors (mk span (.objectPattern .binding ms)) (mk span (.objectPattern .target ts))
  | array (span : Span) {xs ts : List Node} : List.Forall₂ Mirrors xs ts →
    Mirrors (mk span (.arrayPattern .binding xs)) (mk span (.arrayPattern .target ts))
  | property (span : Span) (key : Node) (computed shorthand : Bool) {value target : Node} :
    Mirrors value target →
    Mirrors (mk span (.patternProperty key value computed shorthand))
      (mk span (.patternProperty key target computed shorthand))
  | defaulted (span : Span) (default : Node) {pattern target : Node} : Mirrors pattern target →
    Mirrors (mk span (.defaulted pattern default)) (mk span (.defaulted target default))
  | rest (span : Span) {pattern target : Node} : Mirrors pattern target →
    Mirrors (mk span (.rest pattern)) (mk span (.rest target))

/-- A name is its own target. -/
theorem mirrors_of_identifier {text : String} (h : n.form = .identifier text) :
    n.Mirrors (n.withRole .target) := by
  rw [withRole_of_identifier h]
  obtain ⟨span, form⟩ := n
  obtain rfl : form = .identifier text := h
  exact .name span text

/-- A pattern of the grammar is mirrored by itself in another role. -/
theorem IsPattern.mirrors (h : n.IsPattern) : n.Mirrors (n.withRole .target) := by
  have hlist : ∀ {xs : List Node}, (∀ x ∈ xs, x.Mirrors (x.withRole .target)) →
      List.Forall₂ Mirrors xs (xs.map (withRole .target)) := fun h =>
    List.forall₂_map_right_iff.mpr (List.forall₂_same.mpr h)
  induction h with
  | @name n text hform => exact mirrors_of_identifier hform
  | @hole n hform =>
    obtain ⟨span, form⟩ := n
    obtain rfl : form = .hole := hform
    rw [withRole_mk]
    exact .hole span
  | @object n ms hform _ _ ih =>
    obtain ⟨span, form⟩ := n
    obtain rfl : form = .objectPattern .binding ms := hform
    rw [withRole_mk]
    exact .object span (hlist ih)
  | @array n xs hform _ ih =>
    obtain ⟨span, form⟩ := n
    obtain rfl : form = .arrayPattern .binding xs := hform
    rw [withRole_mk]
    exact .array span (hlist ih)
  | @property n key value computed hform _ ih =>
    obtain ⟨span, form⟩ := n
    obtain rfl : form = .patternProperty key value computed false := hform
    rw [withRole_mk]
    exact .property span key computed false ih
  | @shorthand n key value text hform hkey hvalue =>
    obtain ⟨span, form⟩ := n
    obtain rfl : form = .patternProperty key value false true := hform
    rw [withRole_mk]
    -- a shorthand is written out, with its default if it has one
    refine .property span key false true ?_
    rcases hvalue with rfl | ⟨default, hdefault⟩
    · exact mirrors_of_identifier hkey
    · obtain ⟨span, form⟩ := value
      obtain rfl : form = .defaulted key default := hdefault
      rw [withRole_mk]
      exact .defaulted span default (mirrors_of_identifier hkey)
  | @defaulted n target value hform _ _ ih =>
    obtain ⟨span, form⟩ := n
    obtain rfl : form = .defaulted target value := hform
    rw [withRole_mk]
    exact .defaulted span value ih
  | @rest n target hform _ _ ih =>
    obtain ⟨span, form⟩ := n
    obtain rfl : form = .rest target := hform
    rw [withRole_mk]
    exact .rest span ih

/-- A pattern can be told from its target: it is the target in the role of a declaration. -/
theorem Mirrors.withRole_binding {target : Node} (h : n.Mirrors target) :
    target.withRole .binding = n := by
  have hlist : ∀ {xs ts : List Node}, List.Forall₂ Mirrors xs ts →
      (∀ x ∈ xs, ∀ {t}, x.Mirrors t → t.withRole .binding = x) →
        ts.map (withRole .binding) = xs := by
    intro xs ts hxs
    induction hxs with
    | nil => exact fun _ => rfl
    | cons hx _ ih =>
      intro h
      obtain ⟨hfirst, hrest⟩ := List.forall_mem_cons.mp h
      rw [List.map_cons, hfirst hx, ih hrest]
  -- a pattern mirrors its target along both trees, so the induction may go along either
  induction n using Node.induction generalizing target with
  | step span form ih =>
    cases h with
    | name _ text => rw [withRole_mk]
    | hole => rw [withRole_mk]
    | object _ hms =>
      rw [withRole_mk]
      exact congrArg (fun ms => mk span (.objectPattern .binding ms)) (hlist hms ih)
    | array _ hxs =>
      rw [withRole_mk]
      exact congrArg (fun xs => mk span (.arrayPattern .binding xs)) (hlist hxs ih)
    | @property _ key computed shorthand value _ hvalue =>
      rw [withRole_mk]
      exact congrArg (fun x => mk span (.patternProperty key x computed shorthand))
        (ih value (List.mem_cons_of_mem _ (List.mem_singleton_self value)) hvalue)
    | @defaulted _ default pattern _ hpattern =>
      rw [withRole_mk]
      exact congrArg (fun x => mk span (.defaulted x default))
        (ih pattern (List.mem_cons_self ..) hpattern)
    | @rest _ pattern _ hpattern =>
      rw [withRole_mk]
      exact congrArg (fun x => mk span (.rest x))
        (ih pattern (List.mem_singleton_self pattern) hpattern)

end Awaitless.Script.Node
