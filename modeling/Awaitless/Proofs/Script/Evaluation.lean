import Awaitless.Script.Waiting

/-!
# What a module body evaluates

Evaluating a module evaluates some of its nodes and only creates others: the body of a function is
not evaluated, whatever it holds. The classifier goes by a recursion over the parts that are
evaluated at once. Here the same is said as a relation, without the recursion, so that it can be
compared with what the language does.

There is one difference. The decorators and computed names of class members are evaluated with the
class, but the classifier passes them over. The relation has a switch for them (`members`), and what
the classifier misses is named by what the switch adds (`Node.BlocksInMember`).

* `Node.Evaluates` — the nodes that are evaluated together with a node: those outside of functions.
  Of a class, the decorators and the heritage count, and with `members` also the decorators and
  computed names of its members.
* `Node.Blocks` — evaluating a node evaluates an `await`, a `for await` or an `await using`; this
  can be computed.
* `Node.waits_iff` — the classifier looks at everything but members.
* `Node.blocks_iff_waits_or` — what it misses stands in the members of classes.
-/

namespace Awaitless.Script

/-! ## Forms -/

namespace Form

/-- The members of a class. -/
def classMembers : Form α → List α
  | classLike _ _ _ _ members => members
  | _ => []

/-- What a member of a class evaluates together with the class: its decorators, and its name if
that is computed. -/
def memberHead : Form α → List α
  | classMethod _ _ decorators key _ computed | classField _ decorators key _ computed =>
    decorators ++ if computed then [key] else []
  | _ => []

variable (f : α → β) (form : Form α)

/-- The members of a mapped class are the mapped members. -/
theorem classMembers_map : (form.map f).classMembers = form.classMembers.map f := by
  cases form <;> rfl

theorem memberHead_map : (form.map f).memberHead = form.memberHead.map f := by
  cases form with
  | classMethod _ _ _ _ _ computed => cases computed <;> simp [memberHead, map]
  | classField _ _ _ _ computed => cases computed <;> simp [memberHead, map]
  | _ => rfl

variable {form} {x : α}

theorem mem_parts_of_mem_classMembers (h : x ∈ form.classMembers) : x ∈ form.parts := by
  unfold classMembers at h
  split at h
  · simp [parts, h]
  · cases h

/-- What is evaluated of a member is a part of the member, and so smaller than the class. -/
theorem mem_parts_of_mem_memberHead (h : x ∈ form.memberHead) : x ∈ form.parts := by
  unfold memberHead at h
  split at h
  all_goals
    first
    | cases h
    | rcases List.mem_append.mp h with h | h
      · simp [parts, h]
      · split at h
        · simp [parts, List.mem_singleton.mp h]
        · cases h

end Form

namespace Node

/-! ## Evaluated parts -/

/-- What all members of a class evaluate together with it. -/
def memberHeads (n : Node) : List Node :=
  n.form.classMembers.flatMap fun m => m.form.memberHead

/-- The parts that are evaluated together with a node. Functions run later; whether the members of
a class are looked at is a choice. -/
def evaluatedParts (members : Bool) (n : Node) : List Node :=
  match n.form with
  | .function _ _ _ _ | .arrow _ _ _ => []
  | .classLike _ decorators _ heritage _ =>
    decorators ++ heritage.toList ++ if members then n.memberHeads else []
  | form => form.parts

/-- Evaluating the first node evaluates the second. -/
inductive Evaluates (members : Bool) : Node → Node → Prop
  | self (n : Node) : Evaluates members n n
  | part {n x y : Node} :
    x ∈ n.evaluatedParts members → Evaluates members x y → Evaluates members n y

/-- Evaluating the node evaluates something that blocks. -/
def Blocks (members : Bool) (n : Node) : Prop :=
  ∃ x, n.Evaluates members x ∧ x.form.isWait = true

/-- Evaluating the node evaluates a class with a member whose decorators or computed name block. -/
def BlocksInMember (n : Node) : Prop :=
  ∃ c, n.Evaluates true c ∧ ∃ x ∈ c.memberHeads, x.Blocks true

variable {members : Bool} {n x y z : Node}

/-- What is evaluated with a node is evaluated with whatever evaluates this node. -/
theorem Evaluates.trans (hxy : x.Evaluates members y) (hyz : y.Evaluates members z) :
    x.Evaluates members z := by
  induction hxy with
  | self => exact hyz
  | part hmem _ ih => exact .part hmem (ih hyz)

/-- A node blocks by itself or in one of its parts. -/
theorem blocks_iff :
    n.Blocks members ↔
      n.form.isWait = true ∨ ∃ x ∈ n.evaluatedParts members, x.Blocks members := by
  constructor
  · rintro ⟨y, hy, hwait⟩
    cases hy with
    | self => exact .inl hwait
    | part hmem hxy => exact .inr ⟨_, hmem, y, hxy, hwait⟩
  · rintro (hwait | ⟨x, hmem, y, hxy, hwait⟩)
    · exact ⟨n, .self n, hwait⟩
    · exact ⟨y, .part hmem hxy, hwait⟩

/-- With members, there are the heads of the members beside the parts that the classifier looks
at. -/
theorem mem_evaluatedParts :
    x ∈ n.evaluatedParts members ↔
      x ∈ n.form.immediateParts ∨ members = true ∧ x ∈ n.memberHeads := by
  obtain ⟨span, form⟩ := n
  cases form with
  | classLike traits decorators name heritage ms =>
    cases members <;> simp [evaluatedParts, memberHeads, Form.immediateParts, or_assoc]
  | _ => exact (or_iff_left fun h => List.not_mem_nil h.2).symm

/-- A node blocks if something does that it evaluates at once. -/
theorem Blocks.of_mem_immediateParts (h : x.Blocks members) (hx : x ∈ n.form.immediateParts) :
    n.Blocks members :=
  blocks_iff.mpr (.inr ⟨x, mem_evaluatedParts.mpr (.inl hx), h⟩)

/-- The heads of members lie two levels below the class. -/
theorem mem_memberHeads :
    x ∈ n.memberHeads ↔ ∃ m ∈ n.form.classMembers, x ∈ m.form.memberHead :=
  List.mem_flatMap

/-! ## The classifier -/

/-- One step of the classifier. -/
theorem waits_mk (span : Span) (form : Form Node) :
    (mk span form).waits = (form.isWait || form.immediateParts.any waits) := by
  rw [waits, fold_mk, Form.isWait_map, Form.immediateParts_map, List.any_map]
  rfl

/-- The classifier sees what blocks outside of members. -/
theorem waits_iff (n : Node) : n.waits = true ↔ n.Blocks false := by
  induction n using Node.induction with
  | step span form ih =>
    rw [waits_mk, blocks_iff, Bool.or_eq_true, List.any_eq_true]
    refine or_congr Iff.rfl ?_
    constructor
    · rintro ⟨x, hx, hwaits⟩
      have hpart := Form.mem_parts_of_mem_immediateParts hx
      exact ⟨x, mem_evaluatedParts.mpr (.inl hx), (ih x hpart).mp hwaits⟩
    · rintro ⟨x, hx, hblocks⟩
      rcases mem_evaluatedParts.mp hx with hx | ⟨hmembers, -⟩
      · exact ⟨x, hx, (ih x (Form.mem_parts_of_mem_immediateParts hx)).mpr hblocks⟩
      · cases hmembers

/-- More is evaluated if members are looked at. -/
theorem Evaluates.with_members (h : x.Evaluates false y) : x.Evaluates true y := by
  induction h with
  | self n => exact .self n
  | part hmem _ ih =>
    rcases mem_evaluatedParts.mp hmem with hmem | ⟨hmembers, -⟩
    · exact .part (mem_evaluatedParts.mpr (.inl hmem)) ih
    · cases hmembers

/-- What blocks and is not seen by the classifier stands in a member of a class. -/
theorem blocks_iff_waits_or (n : Node) : n.Blocks true ↔ n.waits = true ∨ n.BlocksInMember := by
  rw [waits_iff]
  constructor
  · -- along the way to what blocks, the first head of a member that is entered is the one missed
    rintro ⟨y, hy, hwait⟩
    induction hy with
    | self n => exact .inl ⟨n, .self n, hwait⟩
    | @part n x y hmem hxy ih =>
      rcases mem_evaluatedParts.mp hmem with hpart | ⟨-, hhead⟩
      · rcases ih hwait with ⟨z, hz, hwaits⟩ | ⟨c, hc, hclass⟩
        · exact .inl ⟨z, .part (mem_evaluatedParts.mpr (.inl hpart)) hz, hwaits⟩
        · exact .inr ⟨c, .part hmem hc, hclass⟩
      · exact .inr ⟨n, .self n, x, hhead, y, hxy, hwait⟩
  · rintro (⟨y, hy, hwait⟩ | ⟨c, hc, x, hx, y, hxy, hwait⟩)
    · exact ⟨y, hy.with_members, hwait⟩
    · exact ⟨y, hc.trans (.part (mem_evaluatedParts.mpr (.inr ⟨rfl, hx⟩)) hxy), hwait⟩

/-! ## Deciding -/

/-- Whether a form blocks, and whether its head as a member of a class does, from the same about
its parts. -/
def blockingStep (members : Bool) (form : Form (Bool × Bool)) : Bool × Bool :=
  (form.isWait || form.immediateParts.any (·.1) || members && form.classMembers.any (·.2),
    form.memberHead.any (·.1))

def blocking (members : Bool) : Node → Bool × Bool :=
  fold fun _ => blockingStep members

/-- One step of the decision, which carries the heads of a member along for the class around it. -/
theorem blocking_mk (span : Span) (form : Form Node) :
    (mk span form).blocking members =
      (form.isWait || form.immediateParts.any (fun x => (x.blocking members).1) ||
          members && form.classMembers.any fun x => (x.blocking members).2,
        form.memberHead.any fun x => (x.blocking members).1) := by
  rw [blocking, fold_mk, blockingStep, Form.isWait_map, Form.immediateParts_map,
    Form.classMembers_map, Form.memberHead_map, List.any_map, List.any_map, List.any_map]
  rfl

/-- The decision is right about a node, and about the head of the member that it may be. -/
theorem blocking_iff (n : Node) :
    ((n.blocking members).1 = true ↔ n.Blocks members) ∧
      ((n.blocking members).2 = true ↔ ∃ x ∈ n.form.memberHead, x.Blocks members) := by
  induction n using Node.induction with
  | step span form ih =>
    have hhead : (form.memberHead.any fun x => (x.blocking members).1) = true ↔
        ∃ x ∈ form.memberHead, x.Blocks members := by
      rw [List.any_eq_true]
      refine exists_congr fun x => and_congr_right fun hx => ?_
      exact (ih x (Form.mem_parts_of_mem_memberHead hx)).1
    have hparts : (form.immediateParts.any fun x => (x.blocking members).1) = true ↔
        ∃ x ∈ form.immediateParts, x.Blocks members := by
      rw [List.any_eq_true]
      refine exists_congr fun x => and_congr_right fun hx => ?_
      exact (ih x (Form.mem_parts_of_mem_immediateParts hx)).1
    have hmembers : (form.classMembers.any fun x => (x.blocking members).2) = true ↔
        ∃ m ∈ form.classMembers, ∃ x ∈ m.form.memberHead, x.Blocks members := by
      rw [List.any_eq_true]
      refine exists_congr fun x => and_congr_right fun hx => ?_
      exact (ih x (Form.mem_parts_of_mem_classMembers hx)).2
    rw [blocking_mk, Bool.or_eq_true, Bool.or_eq_true, Bool.and_eq_true, hparts, hmembers,
      blocks_iff]
    -- both decisions at once: the one about the class needs the one about its members
    refine ⟨?_, hhead⟩
    simp only [mem_evaluatedParts, mem_memberHeads, form_mk]
    constructor
    · rintro ((hwait | ⟨x, hx, hblocks⟩) | ⟨htrue, m, hm, x, hx, hblocks⟩)
      · exact .inl hwait
      · exact .inr ⟨x, .inl hx, hblocks⟩
      · exact .inr ⟨x, .inr ⟨htrue, m, hm, hx⟩, hblocks⟩
    · rintro (hwait | ⟨x, hx | ⟨htrue, m, hm, hx⟩, hblocks⟩)
      · exact .inl (.inl hwait)
      · exact .inl (.inr ⟨x, hx, hblocks⟩)
      · exact .inr ⟨htrue, m, hm, x, hx, hblocks⟩

instance (n : Node) : Decidable (n.Blocks members) :=
  decidable_of_iff _ n.blocking_iff.1

end Node

end Awaitless.Script
