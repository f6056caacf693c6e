import Awaitless.Proofs.Script.Parsing.Module
import Awaitless.Proofs.Transform.ClosureScope
import Awaitless.Proofs.Transform.Unsupported

/-!
# What the closure does with the statements of a module

Read from left to right, the closure evaluates what the statements of the module evaluate, declares
their other names and assigns the exported ones.

The argument goes statement by statement. Each one turns into a row of pieces, by one of three rules
(`Body.TurnsInto`), and the closure is these rows in a row. What the module and the closure evaluate
and assign is read from their statements in the same way: a declaration evaluates the values in it,
an assignment evaluates its value, and everything else is evaluated as a whole. So what has to be
shown is that no rule changes a reading.

* `Node.evaluated`, `Node.assignedNames` — readings of a statement, in a module or in a closure.
* `Body.Piece`, `Body.TurnsInto` — the statements of the closure, and those that one statement of
  the module turns into.
* `Body.Keeps`, `Body.ofStatements_keeps` — nothing is lost, doubled or put in another order.
-/

namespace Awaitless

namespace Script

variable {n d : Node}

/-- The value of a declarator. -/
def Node.value? (d : Node) : Option Node :=
  match d.form with
  | .declarator _ value => value
  | _ => none

/-- The names that a statement declares itself, and not in another statement. -/
def Node.directNames (s : Node) : List String :=
  match s.form with
  | .bindings _ ds => ds.flatMap declaratorNames
  | _ => (Transform.Items.ownName? s).toList

/-- Those of them that it gives a value. -/
def Node.valuedNames (s : Node) : List String :=
  match s.form with
  | .bindings _ ds => (ds.filter fun d => d.value?.isSome).flatMap declaratorNames
  | _ => (Transform.Items.ownName? s).toList

/-- The target and the value of an assignment, in parentheses or not. -/
def Node.assigned? (e : Node) : Option (Node × Node) :=
  match e.form with
  | .assign none target value => some (target, value)
  | .parenthesized inner =>
    match inner.form with
    | .assign none target value => some (target, value)
    | _ => none
  | _ => none

/-- The target and the value of a statement that assigns. -/
def Node.assignment? (s : Node) : Option (Node × Node) :=
  match s.form with
  | .expression e => e.assigned?
  | _ => none

/-- What a statement evaluates: the values that it gives to names or other targets, or else itself,
a function or class included. -/
def Node.evaluated (s : Node) : List Node :=
  match s.form with
  | .bindings _ ds => ds.filterMap Node.value?
  | _ =>
    match s.assignment? with
    | some (_, value) => [value]
    | none => [s]

/-- The names that a statement assigns to, apart from what it declares. -/
def Node.assignedNames (s : Node) : List String :=
  (s.assignment?.map fun a => a.1.patternNames).getD []

namespace Make

theorem assignment?_assign (target value : Node) :
    (assign target value).assignment? = some (target, value) := by
  unfold assign
  dsimp only
  by_cases htarget : isObjectPattern target = true
  · rw [if_pos htarget]
    rfl
  · rw [if_neg htarget]
    rfl

/-- Of an assignment, only the value is evaluated. -/
theorem evaluated_assign (target value : Node) : (assign target value).evaluated = [value] := by
  show (match (assign target value).assignment? with
    | some (_, value) => [value]
    | none => [assign target value]) = [value]
  rw [assignment?_assign]

theorem assignedNames_assign (target value : Node) :
    (assign target value).assignedNames = target.patternNames := by
  rw [Node.assignedNames, assignment?_assign]
  rfl

/-- A declaration without values evaluates nothing, and assigns to nothing. -/
theorem readings_declare? (names : List String) :
    (declare? names).toList.flatMap Node.evaluated = [] ∧
      (declare? names).toList.flatMap Node.assignedNames = [] := by
  unfold declare?
  by_cases hnames : names.isEmpty = true
  · rw [if_pos hnames]
    exact ⟨rfl, rfl⟩
  · rw [if_neg hnames]
    refine ⟨?_, rfl⟩
    show (names.map fun n => declarator n none).filterMap Node.value? ++ [] = []
    rw [List.append_nil, List.filterMap_eq_nil_iff]
    intro d hd
    obtain ⟨n, -, rfl⟩ := List.mem_map.mp hd
    rfl

end Make

end Script

open Script

namespace Transform

variable {moduleName : String}

namespace Body

variable {exported : List String} {s d : Node} {ds : List Node}

/-! ## Pieces of the closure -/

/-- What the closure does for a statement of the module. -/
inductive Piece where
  /-- Declares names without values. -/
  | declaration (names : List String)
  | assignment (target value : Node)
  | untouched (statement : Node)

namespace Piece

/-- The statements that do it; nothing has to be done to declare no names. -/
def nodes : Piece → List Node
  | declaration names => (Make.declare? names).toList
  | assignment target value => [Make.assign target value]
  | untouched s => [s]

end Piece

/-- A declarator with a value turns into an assignment of this value to the same names. -/
inductive Assigns (d : Node) : Piece → Prop
  | intro (pattern target value : Node) : d.form = .declarator pattern (some value) →
    pattern.target? = some target → target.patternNames = pattern.patternNames →
    Assigns d (.assignment target value)

/-- What a statement of the module turns into. -/
inductive TurnsInto (exported : List String) (s : Node) : List Piece → Prop
  | kept : (∀ x ∈ s.directNames, x ∉ exported) → TurnsInto exported s [.untouched s]
  | split (kind : DeclarationKind) (ds : List Node) (assignments : List Piece) :
    s.form = .bindings kind ds → (∃ x ∈ s.directNames, x ∈ exported) →
    List.Forall₂ Assigns (ds.filter fun d => d.value?.isSome) assignments →
    TurnsInto exported s (.declaration (s.directNames.filter (· ∉ exported)) :: assignments)
  | assigned (name : String) : Items.ownName? s = some name → name ∈ exported →
    TurnsInto exported s [.assignment (Make.name name) s]

/-! ## One statement -/

/-- With a value, a declarator turns into an assignment; without, it is gone. -/
theorem exists_assigns (moduleName : String) (hd : d.IsDeclarator) :
    d.value? = none ∧ assignment? moduleName d = .ok none ∨
      ∃ target value, d.value? = some value ∧ Assigns d (.assignment target value) ∧
        assignment? moduleName d = .ok (some (Make.assign target value)) := by
  obtain ⟨pattern, value, hform, hpattern, -⟩ := hd
  have hvalue : d.value? = value := by rw [Node.value?, hform]
  rw [assignment?_eq hform hpattern]
  cases value with
  | none => exact .inl ⟨hvalue, rfl⟩
  | some value =>
    refine .inr ⟨pattern.withRole .target, value, hvalue, ?_, rfl⟩
    exact .intro pattern _ value hform hpattern.target?_eq (pattern.patternNames_withRole .target)

/-- A row of declarators turns into one assignment for each value. -/
theorem exists_assignments (moduleName : String) (hds : ∀ d ∈ ds, d.IsDeclarator) :
    ∃ assignments options, ds.mapM (assignment? moduleName) = .ok options ∧
      options.filterMap id = assignments.flatMap Piece.nodes ∧
      List.Forall₂ Assigns (ds.filter fun d => d.value?.isSome) assignments := by
  induction ds with
  | nil => exact ⟨[], [], rfl, rfl, .nil⟩
  | cons d ds ih =>
    obtain ⟨hd, hds⟩ := List.forall_mem_cons.mp hds
    obtain ⟨assignments, options, hoptions, hnodes, hassigns⟩ := ih hds
    -- a declarator without a value leaves no assignment
    rcases exists_assigns moduleName hd with ⟨hvalue, hnone⟩ | ⟨target, value, hvalue, hd, hsome⟩
    · refine ⟨assignments, none :: options, ?_, hnodes, ?_⟩
      · rw [List.mapM_cons, hnone, hoptions]
        rfl
      · rw [List.filter_cons_of_neg (by simp [hvalue])]
        exact hassigns
    · refine ⟨.assignment target value :: assignments, some (Make.assign target value) :: options,
        ?_, ?_, ?_⟩
      · rw [List.mapM_cons, hsome, hoptions]
        rfl
      · rw [List.filterMap_cons_some (f := id) rfl, hnodes]
        rfl
      · rw [List.filter_cons_of_pos (by simp [hvalue])]
        exact .cons hd hassigns

/-- Every statement turns into something. -/
theorem exists_turnsInto (moduleName : String) (exported : List String)
    (hs : ∀ d ∈ s.declarators, d.IsDeclarator) :
    ∃ pieces, ofStatement moduleName exported s = .ok (pieces.flatMap Piece.nodes) ∧
      TurnsInto exported s pieces := by
  obtain ⟨xs, hxs⟩ : ∃ xs, ofStatement moduleName exported s = .ok xs :=
    exists_of_failure?_eq_none (failure?_ofStatement hs)
  rw [hxs]
  -- the rule that the closure has followed is the one that the pieces follow
  cases becomes_of_ofStatement hxs with
  | split kind ds xs hform hany hsplit =>
    rw [Node.declarators, hform] at hs
    have hnames : s.directNames = ds.flatMap declaredNames := by
      rw [Node.directNames, hform, flatMap_declaredNames hs]
    obtain ⟨assignments, options, hoptions, hnodes, hassigns⟩ := exists_assignments moduleName hs
    rw [splitVariables, hoptions] at hsplit
    cases hsplit
    -- what is left of the declaration are the names that are not exported
    have hunexported : (ds.flatMap declaredNames).filter (fun n => !exported.contains n) =
        s.directNames.filter (· ∉ exported) := by
      rw [hnames]
      refine List.filter_congr fun x _ => ?_
      rw [decide_not, List.contains_eq_mem]
    refine ⟨_, ?_, .split kind ds assignments hform ?_ hassigns⟩
    · rw [hunexported, hnodes]
      rfl
    · rw [hnames]
      obtain ⟨x, hx, hexported⟩ := List.any_eq_true.mp hany
      exact ⟨x, hx, List.contains_iff_mem.mp hexported⟩
  | assigned name hname hexported => exact ⟨_, rfl, .assigned name hname hexported⟩
  | kept hbindings hname =>
    -- neither a declarator nor a name of its own is exported
    refine ⟨[.untouched s], rfl, .kept fun x hx => ?_⟩
    unfold Node.directNames at hx
    split at hx
    · rename_i kind ds hform
      rw [Node.declarators, hform] at hs
      rw [← flatMap_declaredNames hs] at hx
      exact hbindings kind ds hform x hx
    · exact hname x (Option.mem_toList.mp hx)

/-! ## Readings of the closure -/

/-- The assignments of a declaration evaluate its values, and assign to the names that had them. -/
theorem readings_of_assigns {assignments : List Piece} (h : List.Forall₂ Assigns ds assignments) :
    (assignments.flatMap Piece.nodes).flatMap Node.evaluated = ds.filterMap Node.value? ∧
      (assignments.flatMap Piece.nodes).flatMap Node.assignedNames =
        ds.flatMap Node.declaratorNames := by
  induction h with
  | nil => exact ⟨rfl, rfl⟩
  | @cons d _ _ _ hd _ ih =>
    obtain ⟨pattern, target, value, hform, -, hnames⟩ := hd
    have hvalue : d.value? = some value := by rw [Node.value?, hform]
    have hdeclared : d.declaratorNames = target.patternNames := by
      rw [Node.declaratorNames, hform, hnames]
    rw [List.flatMap_cons, List.flatMap_append, List.flatMap_append, ih.1, ih.2]
    constructor
    · rw [Piece.nodes, List.flatMap_singleton, Make.evaluated_assign,
        List.filterMap_cons_some hvalue]
      rfl
    · rw [Piece.nodes, List.flatMap_singleton, Make.assignedNames_assign, List.flatMap_cons,
        hdeclared]

/-- A name with a value is one of those that are declared. -/
theorem mem_directNames_of_mem_valuedNames {x : String} (h : x ∈ s.valuedNames) :
    x ∈ s.directNames := by
  unfold Node.valuedNames at h
  unfold Node.directNames
  split at h
  · obtain ⟨d, hd, hx⟩ := List.mem_flatMap.mp h
    exact List.mem_flatMap.mpr ⟨d, (List.mem_filter.mp hd).1, hx⟩
  · exact h

namespace TurnsInto

variable {pieces : List Piece}

/-- A function or class that has a name is read as itself, and assigns to nothing. -/
theorem readings_of_ownName? {name : String} (h : Items.ownName? s = some name) :
    s.evaluated = [s] ∧ s.assignedNames = [] ∧ s.valuedNames = [name] := by
  obtain ⟨span, form⟩ := s
  unfold Items.ownName? at h
  split at h
  · rename_i hform
    obtain rfl : form = _ := hform
    exact ⟨rfl, rfl, congrArg Option.toList h⟩
  · rename_i hform
    obtain rfl : form = _ := hform
    exact ⟨rfl, rfl, congrArg Option.toList h⟩
  · cases h

/-- What a statement turns into evaluates what the statement evaluates. -/
theorem evaluated_eq (h : TurnsInto exported s pieces) :
    (pieces.flatMap Piece.nodes).flatMap Node.evaluated = s.evaluated := by
  cases h with
  | kept _ => exact List.append_nil _
  | split kind ds assignments hform _ hassigns =>
    -- declarators without values are gone, and evaluate nothing
    rw [List.flatMap_cons, List.flatMap_append, Piece.nodes, (Make.readings_declare? _).1,
      List.nil_append, (readings_of_assigns hassigns).1, Node.evaluated, hform,
      List.filterMap_filter]
    refine List.filterMap_congr fun d _ => ?_
    cases d.value? <;> rfl
  | assigned name hname _ =>
    rw [(readings_of_ownName? hname).1]
    exact (List.append_nil _).trans (Make.evaluated_assign _ _)

/-- What a statement turns into assigns an exported name as often as the statement assigns it or
gives it a value. -/
theorem count_assigned (h : TurnsInto exported s pieces) {x : String} (hx : x ∈ exported) :
    ((pieces.flatMap Piece.nodes).flatMap Node.assignedNames).count x =
      s.assignedNames.count x + s.valuedNames.count x := by
  cases h with
  | kept hkept =>
    have hnot : x ∉ s.valuedNames := fun hvalued =>
      hkept x (mem_directNames_of_mem_valuedNames hvalued) hx
    rw [List.count_eq_zero.mpr hnot]
    exact congrArg (List.count x) (List.append_nil _)
  | split kind ds assignments hform _ hassigns =>
    have hplain : s.assignedNames = [] := by rw [Node.assignedNames, Node.assignment?, hform]; rfl
    rw [List.flatMap_cons, List.flatMap_append, Piece.nodes, (Make.readings_declare? _).2,
      List.nil_append, (readings_of_assigns hassigns).2, hplain, Node.valuedNames, hform,
      List.count_nil, Nat.zero_add]
  -- the function or class is the value of the assignment
  | assigned name hname _ =>
    obtain ⟨-, hassigned, hvalued⟩ := readings_of_ownName? hname
    have htarget : (Make.name name).patternNames = [name] := Node.patternNames_eq _
    rw [hassigned, hvalued, List.count_nil, Nat.zero_add, ← htarget,
      ← Make.assignedNames_assign (Make.name name) s]
    exact congrArg (List.count x) (List.append_nil _)

end TurnsInto

/-- Statement by statement, the closure evaluates what the module evaluates. -/
theorem evaluated_of_turnsInto {statements : List Node} {pieces : List (List Piece)}
    (h : List.Forall₂ (TurnsInto exported) statements pieces) :
    (pieces.flatten.flatMap Piece.nodes).flatMap Node.evaluated =
      statements.flatMap Node.evaluated := by
  induction h with
  | nil => rfl
  | cons hfirst _ ih =>
    rw [List.flatten_cons, List.flatMap_append, List.flatMap_append, List.flatMap_cons,
      hfirst.evaluated_eq, ih]

/-- Each declaration of an exported name with a value has become one assignment of it. -/
theorem count_assigned_of_turnsInto {statements : List Node} {pieces : List (List Piece)}
    (h : List.Forall₂ (TurnsInto exported) statements pieces) {x : String} (hx : x ∈ exported) :
    ((pieces.flatten.flatMap Piece.nodes).flatMap Node.assignedNames).count x =
      (statements.flatMap Node.assignedNames).count x +
        (statements.flatMap Node.valuedNames).count x := by
  induction h with
  | nil => rfl
  | cons hfirst _ ih =>
    rw [List.flatten_cons, List.flatMap_append, List.flatMap_append, List.count_append, ih,
      hfirst.count_assigned hx, List.flatMap_cons, List.flatMap_cons, List.count_append,
      List.count_append]
    omega

/-! ## All statements -/

/-- How the statements of the closure come from those of the module, by pieces in the order of the
statements. -/
structure Keeps (exported : List String) (statements body : List Node)
    (pieces : List (List Piece)) : Prop where
  turnsInto : List.Forall₂ (TurnsInto exported) statements pieces
  body_eq : body = pieces.flatten.flatMap Piece.nodes
  /-- The closure evaluates what the statements evaluate, in the same order. -/
  evaluated : body.flatMap Node.evaluated = statements.flatMap Node.evaluated
  /-- Names that are not exported are declared in the closure as often as in the module. -/
  declared : ∀ x, x ∉ exported → (bodyScope body).all.count x = (bodyScope statements).all.count x
  /-- Exported names are assigned as often as a statement assigns them, and once more wherever a
  declaration gives them a value. -/
  assigned : ∀ x ∈ exported, (body.flatMap Node.assignedNames).count x =
    (statements.flatMap Node.assignedNames).count x +
      (statements.flatMap Node.valuedNames).count x

/-- What one more statement turns into goes before what the others turn into. -/
theorem exists_pieces (moduleName : String) (exported : List String) {statements : List Node}
    (hs : ∀ s ∈ statements, ∀ d ∈ s.declarators, d.IsDeclarator) :
    ∃ pieces, ofStatements moduleName exported statements =
        .ok (pieces.flatten.flatMap Piece.nodes) ∧
      List.Forall₂ (TurnsInto exported) statements pieces := by
  -- by induction before the lists of all statements are joined
  suffices ∃ pieces, statements.mapM (ofStatement moduleName exported) =
      .ok (pieces.map (·.flatMap Piece.nodes)) ∧
        List.Forall₂ (TurnsInto exported) statements pieces by
    obtain ⟨pieces, hmapM, hturns⟩ := this
    refine ⟨pieces, ?_, hturns⟩
    rw [ofStatements, hmapM, ← List.flatMap_id, List.flatMap_assoc]
    exact congrArg Except.ok List.flatMap_def.symm
  induction statements with
  | nil => exact ⟨[], rfl, .nil⟩
  | cons s statements ih =>
    obtain ⟨hs, hstatements⟩ := List.forall_mem_cons.mp hs
    obtain ⟨first, hfirst, hturns⟩ := exists_turnsInto moduleName exported hs
    obtain ⟨pieces, hpieces, hrest⟩ := ih hstatements
    refine ⟨first :: pieces, ?_, .cons hturns hrest⟩
    rw [List.mapM_cons, hfirst, hpieces]
    rfl

/-- Whatever part of the body of a parsed module the closure is made of, and whatever is exported:
the closure can be made, and read from left to right it evaluates the same pieces in the same order,
each once. Declarations that have an exported name declare their other names and assign all values
to the names that had them; functions and classes are assigned exactly if their names are exported;
everything else stays. -/
theorem ofStatements_keeps {text : String} {p : Program} (hp : Program.parse text false = .ok p)
    {statements : List Node} (hs : ∀ s ∈ statements, ∃ n ∈ p.statements, n.Leaves s)
    (moduleName : String) (exported : List String) :
    ∃ body pieces, ofStatements moduleName exported statements = .ok body ∧
      Keeps exported statements body pieces := by
  have hdeclarators : ∀ s ∈ statements, ∀ d ∈ s.declarators, d.IsDeclarator := by
    intro s hmem
    obtain ⟨n, hn, hleaves⟩ := hs s hmem
    exact hleaves.declarators (Program.isItem_of_parse hp n hn)
  obtain ⟨pieces, hbody, hturns⟩ := exists_pieces moduleName exported hdeclarators
  obtain ⟨-, hdeclared⟩ := bodyScope_ofStatements hdeclarators hbody
  exact ⟨_, pieces, hbody, hturns, rfl, evaluated_of_turnsInto hturns, hdeclared,
    fun x hx => count_assigned_of_turnsInto hturns hx⟩

/-- A module with nested patterns, a hole, a rest, declarators without values, a function and a
class. -/
def mixed : String :=
  "export const { a, b: [, c = 1, ...d], ...e } = f(), g = 2; let h, i = 3; " ++
    "function f() {} export default class K {} { var j = i; } i += j;"

/-- Of its names, `c`, `h`, `f` and `K` are taken to be exported. -/
theorem ofStatements_keeps_mixed :
    ∃ p items, Program.parse mixed false = .ok p ∧
      Items.ofStatements "a.js" mixed p.statements = .ok items ∧
        ∃ body pieces, ofStatements "a.js" ["c", "h", "f", "K"] items.statements = .ok body ∧
          Keeps ["c", "h", "f", "K"] items.statements body pieces ∧
            (bodyScope body).all = ["a", "d", "e", "g", "i", "j"] ∧
              items.statements.flatMap Node.valuedNames =
                ["a", "c", "d", "e", "g", "i", "f", "K"] := by
  have hruns : ((Program.parse mixed false).toOption.bind fun p =>
      (Items.ofStatements "a.js" mixed p.statements).toOption.bind fun items =>
        (ofStatements "a.js" ["c", "h", "f", "K"] items.statements).toOption.filter fun body =>
          (bodyScope body).all = ["a", "d", "e", "g", "i", "j"] ∧
            items.statements.flatMap Node.valuedNames =
              ["a", "c", "d", "e", "g", "i", "f", "K"]).isSome = true := by
    decide +kernel
  obtain ⟨body, hbody⟩ := Option.isSome_iff_exists.mp hruns
  obtain ⟨p, hp, hbody⟩ := Option.bind_eq_some_iff.mp hbody
  obtain ⟨items, hitems, hbody⟩ := Option.bind_eq_some_iff.mp hbody
  obtain ⟨hbody, hnames⟩ := Option.filter_eq_some_iff.mp hbody
  replace hp := eq_ok_of_toOption hp
  replace hitems := eq_ok_of_toOption hitems
  replace hbody := eq_ok_of_toOption hbody
  obtain ⟨hdeclared, hvalued⟩ := of_decide_eq_true hnames
  obtain ⟨body', pieces, hbody', hkeeps⟩ :=
    ofStatements_keeps hp (Items.exists_leaves hitems) "a.js" ["c", "h", "f", "K"]
  rw [hbody] at hbody'
  cases hbody'
  exact ⟨p, items, hp, hitems, body, pieces, hbody, hkeeps, hdeclared, hvalued⟩

end Body

end Transform

end Awaitless
