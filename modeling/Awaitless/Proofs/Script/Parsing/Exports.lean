import Awaitless.Proofs.Script.Parsing.Module
import Awaitless.Script.NodeLaws

/-!
# The exports of a module that could be read

Reading a module collects its exports, inner ones included, and complains about names that repeat.
What stands at the top of the module is a part of that collection, in the same order, so nothing
repeats there either: a sublist of names without repetitions has none, and counting goes the same
way. Defaults have no name and are counted for themselves. Abstract classes count among them, while
an interface does not.

* `Parser.sublist_exportsIn` — among the exports in an item is the item itself.
* `Program.nodup_exportedNames` — no two exports of a module have one name, defaults apart.
* `Program.count_defaults_le_one` — there is one default at most.
-/

namespace Awaitless.Script

namespace Parser

/-- An export is collected behind those inside of it; any other node gives the exports of its parts.
-/
theorem exportsIn_mk (span : Span) (form : Form Node) :
    exportsIn (.mk span form) =
      match form with
      | .exportNames _ _ | .exportAll _ _ | .exportDeclaration _ | .exportDefault _ =>
        form.parts.flatMap exportsIn ++ [.mk span form]
      | _ => form.parts.flatMap exportsIn := by
  have hinner : (form.map fun x => (x, exportsIn x)).parts.flatMap (·.2) =
      form.parts.flatMap exportsIn := by
    rw [Form.parts_map, List.flatMap_map]
  rw [exportsIn, Node.para_mk]
  cases form with
  | exportNames _ _ | exportAll _ _ | exportDeclaration _ | exportDefault _ => rfl
  | _ => exact hinner

/-- Whatever names an item exports are among those of the exports in it. -/
theorem sublist_exportsIn (n : Node) :
    (exportedNames n).Sublist ((exportsIn n).flatMap exportedNames) := by
  obtain ⟨span, form⟩ := n
  rw [exportsIn_mk]
  cases form with
  | exportNames _ _ | exportAll _ _ | exportDeclaration _ =>
    dsimp only
    rw [List.flatMap_append, List.flatMap_singleton]
    exact List.sublist_append_right ..
  | _ => exact List.nil_sublist _

/-- Statement by statement, in the order of the module. -/
theorem sublist_flatMap_exportsIn (statements : List Node) :
    (statements.flatMap exportedNames).Sublist
      ((statements.flatMap exportsIn).flatMap exportedNames) := by
  induction statements with
  | nil => exact .slnil
  | cons n statements ih =>
    rw [List.flatMap_cons, List.flatMap_cons, List.flatMap_append]
    exact (sublist_exportsIn n).append ih

/-- A default value that an item exports is counted among the exports in it. -/
theorem countP_exportsIn_le (n : Node) :
    (if exportsDefault n then 1 else 0) ≤ (exportsIn n).countP exportsDefault := by
  obtain ⟨span, form⟩ := n
  cases form with
  | exportDefault value =>
    rw [exportsIn_mk]
    dsimp only
    rw [List.countP_append, List.countP_singleton]
    exact Nat.le_add_left ..
  | _ => exact Nat.zero_le _

/-- There are no more defaults at the top than in the whole module. -/
theorem countP_flatMap_exportsIn_le (statements : List Node) :
    statements.countP exportsDefault ≤ (statements.flatMap exportsIn).countP exportsDefault := by
  induction statements with
  | nil => exact Nat.le_refl _
  | cons n statements ih =>
    rw [List.countP_cons, List.flatMap_cons, List.countP_append, Nat.add_comm]
    exact Nat.add_le_add (countP_exportsIn_le n) ih

end Parser

namespace Program

open Awaitless.Script.Parser

variable {text : String} {p : Program}

/-- A module is read only if its exports are in order. -/
theorem exportErrors_eq_nil (h : Program.parse text false = .ok p) :
    exportErrors p.statements = [] := by
  have htyped : (initialState text false).2.typed = false := rfl
  unfold Program.parse at h
  dsimp only at h
  split at h
  · rename_i hdiagnostics
    cases h
    rw [State.diagnostics, (P.precedes _ _).typed, htyped,
      if_neg Bool.false_ne_true] at hdiagnostics
    split at hdiagnostics
    · cases hdiagnostics
    · exact List.map_eq_nil_iff.mp (List.append_eq_nil_iff.mp hdiagnostics).2
  · cases h

/-- A module that could be read exports no name twice, except perhaps by default. -/
theorem nodup_exportedNames (h : Program.parse text false = .ok p) :
    (p.statements.flatMap exportedNames).Nodup := by
  have hrepeated := (List.append_eq_nil_iff.mp (exportErrors_eq_nil h)).1
  refine (sublist_flatMap_exportsIn p.statements).nodup ?_
  exact (repeatedAfter_eq_nil.mp (List.map_eq_nil_iff.mp hrepeated)).1

/-- There is one default at most, whether it is a value or a name that is exported as the default.
The grammar looks for defaults at any depth, so those of the module itself are among them. -/
theorem count_defaults_le_one (h : Program.parse text false = .ok p) :
    (p.statements.flatMap exportedNames).count "default" + p.statements.countP exportsDefault ≤
      1 := by
  have hseveral := (List.append_eq_nil_iff.mp (exportErrors_eq_nil h)).2
  have hdeep : ((p.statements.flatMap exportsIn).flatMap exportedNames).count "default" +
      (p.statements.flatMap exportsIn).countP exportsDefault ≤ 1 := by
    refine Nat.le_of_not_lt fun hmore => ?_
    rw [if_pos hmore] at hseveral
    cases hseveral
  have hnames := (sublist_flatMap_exportsIn p.statements).count_le "default"
  have hvalues := countP_flatMap_exportsIn_le p.statements
  omega

end Program

end Awaitless.Script
