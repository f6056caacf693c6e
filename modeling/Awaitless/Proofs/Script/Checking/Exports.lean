import Awaitless.Proofs.Script.Checking.Forms

/-!
# The exports of a checked module

The grammar lets a class without a name stand behind `export`; the rules do not.

* `Reports` — a check that finds something wrong, whatever has been found before.
* `Program.not_isNamelessClass` — a module that keeps all rules exports no class without a name.
-/

namespace Awaitless.Script

/-- A class without a name. -/
def Node.IsNamelessClass (n : Node) : Prop :=
  ∃ traits decorators heritage members,
    n.form = .classLike traits decorators none heritage members

namespace EarlyErrors

/-- A check that finds something wrong, whatever has been found before. -/
def Reports {α : Type} (m : M α) : Prop := ∀ f : Findings, (m.run f).2.errors ≠ []

variable {α β : Type}

namespace Reports

variable {m : M α} {k : α → M β}

theorem bindLeft (hm : Reports m) (hk : ∀ a, Keeps (k a)) : Reports (m >>= k) :=
  fun f h => hm f ((hk _ _).errors h)

theorem bindRight (hk : ∀ a, Reports (k a)) : Reports (m >>= k) := fun _ => hk _ _

/-- One report among the checks of a list is not taken back by the others. -/
theorem forM {xs : List α} {k : α → M Unit} (hk : ∀ x ∈ xs, Keeps (k x)) {x : α} (hx : x ∈ xs)
    (h : Reports (k x)) : Reports (xs.forM k) := by
  induction xs with
  | nil => cases hx
  | cons y ys ih =>
    obtain ⟨-, hys⟩ := List.forall_mem_cons.mp hk
    rcases List.mem_cons.mp hx with rfl | hx
    · exact bindLeft h fun _ => .forM hys
    · exact bindRight fun _ => ih hys hx

end Reports

theorem reports_report (e : EarlyError) : Reports (report e) :=
  fun _ => List.cons_ne_nil _ _

/-- A class that is declared, and not by default, needs a name. -/
theorem reports_checkClass {traits : ClassTraits} {decorators members : List Part}
    {heritage : Option Part} (s : Setting) :
    Reports (checkClass traits decorators none heritage members s true false) := by
  refine .bindRight fun own => .bindRight fun _ => .bindRight fun _ => .bindRight fun _ => ?_
  refine .bindLeft (reports_report _) fun _ => keeps_reportIf ?_
  refine .bind (.forM fun _ _ => keeps_checkRepeatedClass _) fun _ => ?_
  refine .bind (keeps_checkClassName none) fun _ => ?_
  exact .ite (.pure ()) (.forM fun _ _ => keeps_report _)

/-- A class without a name is reported where it is exported. -/
theorem reports_checkNode {n d : Node} (hform : n.form = .exportDeclaration d)
    (hd : d.IsNamelessClass) (s : Setting) : Reports (checkNode n s) := by
  obtain ⟨span, form⟩ := n
  obtain ⟨classSpan, classForm⟩ := d
  obtain ⟨traits, decorators, heritage, members, hclass⟩ := hd
  obtain rfl : form = .exportDeclaration _ := hform
  obtain rfl : classForm = .classLike traits decorators none heritage members := hclass
  have hinside : ∀ s : Setting, s.declares = true → s.isDefault = false →
      Reports
        (checkNode (.mk classSpan (.classLike traits decorators none heritage members)) s) := by
    intro s hdeclares hdefault
    rw [checkNode, Node.para_mk]
    show Reports (checkClass traits _ none _ _ s.inner s.declares s.isDefault)
    rw [hdeclares, hdefault]
    exact reports_checkClass s.inner
  rw [checkNode, Node.para_mk]
  exact .bindLeft (hinside _ rfl rfl) fun _ => keeps_checkItem s _

end EarlyErrors

open EarlyErrors in
/-- A module that keeps all rules exports no class without a name. -/
theorem Program.not_isNamelessClass {p : Program} (h : p.earlyErrors = []) {n d : Node}
    (hn : n ∈ p.statements) (hform : n.form = .exportDeclaration d) : ¬ d.IsNamelessClass := by
  intro hd
  have hall : Reports (do
      p.directives.forM fun d => checkFlaw d.flaw
      p.statements.forM fun n => checkNode n { declares := true, isItem := true } : M Unit) :=
    .bindRight fun _ => .forM (fun n _ => keeps_checkNode n _) hn (reports_checkNode hform hd _)
  have herrors := (List.append_eq_nil_iff.mp (List.append_eq_nil_iff.mp h).1).1
  exact hall {} (List.reverse_eq_nil_iff.mp herrors)

end Awaitless.Script
