import Awaitless.Proofs.Failure
import Awaitless.Proofs.Script.Calls
import Awaitless.Proofs.Script.Evaluation
import Awaitless.Proofs.Script.Searching
import Awaitless.Script.Parse
import Awaitless.Script.Print

/-!
# Trees up to layout

A tree can be written in more than one way. Parentheses and braces may be left out, literals have
several spellings, and a property or a function can be written short or long; the printer decides
all of these anew. What a program means does not depend on them. So two trees are taken for the same
if they agree after everything is forgotten that the layout decides.

The classifier does not look at any of it: it reads forms and their parts, and forgetting keeps both
(`Node.waits_plain`), except where a node only encloses a part, which it waits for exactly
as the part does.

* `Node.plain` — a tree without what only its layout decides.
* `blockingOf_map_plain` — the classifier does not look at the layout.
* `Program.SameTree`, `Program.RoundTrips` — the text of a program reads as the same program.
* `instDecidableEqNode` — trees can be compared.
-/

namespace Awaitless.Script

/-! ## Plain trees -/

/-- A directive without the place and the spelling. -/
def Directive.plain (d : Directive) : Directive :=
  { d with span := .nowhere, raw := "", flaw := .sound }

/-- An entry of an export clause without its place. -/
def ExportSpecifier.plain (x : ExportSpecifier) : ExportSpecifier :=
  { x with start := 0, exportedStart := 0 }

namespace Form

/-- A form without what the printer decides: how a string is quoted, where a function stands in
parentheses or keeps its mark, and which entries of an object or of a pattern are shortened. -/
def plain : Form α → Form α
  | stringLiteral _ _ | template [_] [] => template [""] []
  | function traits name parameters b =>
    function { traits with wrapped := false, pure := false } name parameters b
  | arrow traits parameters b =>
    arrow { traits with wrapped := false, pure := false } parameters b
  | property key value computed _ => property key value computed false
  | body directives statements => body (directives.map Directive.plain) statements
  | patternProperty key value computed _ => patternProperty key value computed false
  | exportNames specifiers source => exportNames (specifiers.map ExportSpecifier.plain) source
  | form => form

/-- What stands in parentheses, or alone in braces. -/
def enclosed? : Form α → Option α
  | parenthesized x | block [x] => some x
  | _ => none

variable {form : Form α} {x : α}

@[simp] theorem isWait_plain (form : Form α) : form.plain.isWait = form.isWait := by
  unfold plain
  split <;> rfl

@[simp] theorem isDynamicImport_plain (form : Form α) :
    form.plain.isDynamicImport = form.isDynamicImport := by
  unfold plain
  split <;> rfl

@[simp] theorem parts_plain (form : Form α) : form.plain.parts = form.parts := by
  unfold plain
  split <;> rfl

/-- The layout changes neither which parts there are nor which are evaluated at once. -/
@[simp] theorem immediateParts_plain (form : Form α) :
    form.plain.immediateParts = form.immediateParts := by
  unfold plain
  split <;> rfl

/-- What encloses one part is nothing but its part. -/
theorem eq_of_enclosed? (h : form.enclosed? = some x) :
    form.isWait = false ∧ form.isDynamicImport = false ∧ form.parts = [x] ∧
      form.immediateParts = [x] := by
  unfold enclosed? at h
  split at h <;> cases h
  · exact ⟨rfl, rfl, rfl, rfl⟩
  · exact ⟨rfl, rfl, rfl, rfl⟩

end Form

namespace Node

/-- A tree without its places, and without parentheses, braces around single statements, and
spellings. -/
def plain : Node → Node :=
  fold fun _ form => form.enclosed?.getD (mk .nowhere form.plain)

/-- A node without its layout is its only part, or its form over plain parts. -/
theorem plain_mk (span : Span) (form : Form Node) :
    (mk span form).plain =
      (form.map plain).enclosed?.getD (mk .nowhere (form.map plain).plain) := by
  rw [plain, fold_mk]

/-- What is computed part by part is found among the plain parts exactly if it is among the parts.
-/
theorem any_map_plain {f : Node → Bool} {xs : List Node} (h : ∀ x ∈ xs, f x.plain = f x) :
    (xs.map plain).any f = xs.any f := by
  rw [List.any_map, Bool.eq_iff_iff, List.any_eq_true, List.any_eq_true]
  refine exists_congr fun x => and_congr_right fun hx => ?_
  rw [Function.comp_apply, h x hx]

/-- By induction on the tree: a node that is left out waits as its only part does. -/
theorem waits_plain (n : Node) : n.plain.waits = n.waits := by
  induction n using Node.induction with
  | step span form ih =>
    have hparts := any_map_plain fun x hx => ih x (Form.mem_parts_of_mem_immediateParts hx)
    rw [plain_mk, waits_mk, ← hparts, ← Form.immediateParts_map, ← Form.isWait_map plain]
    cases h : (form.map plain).enclosed? with
    | none => rw [Option.getD_none, waits_mk, Form.isWait_plain, Form.immediateParts_plain]
    | some x =>
      obtain ⟨hwait, -, -, hpart⟩ := Form.eq_of_enclosed? h
      rw [Option.getD_some, hwait, hpart, List.any_cons, List.any_nil, Bool.or_false,
        Bool.false_or]

/-- The same for dynamic imports. -/
theorem importsDynamically_plain (n : Node) :
    n.plain.importsDynamically = n.importsDynamically := by
  induction n using Node.induction with
  | step span form ih =>
    have hparts := any_map_plain ih
    rw [plain_mk, importsDynamically_mk, ← hparts, ← Form.parts_map,
      ← Form.isDynamicImport_map plain]
    cases h : (form.map plain).enclosed? with
    | none =>
      rw [Option.getD_none, importsDynamically_mk, Form.isDynamicImport_plain, Form.parts_plain]
    | some x =>
      obtain ⟨-, hdynamic, hpart, -⟩ := Form.eq_of_enclosed? h
      rw [Option.getD_some, hdynamic, hpart, List.any_cons, List.any_nil, Bool.or_false,
        Bool.false_or]

end Node

/-- The classifier does not look at the layout. -/
theorem blockingOf_map_plain (statements : List Node) :
    blockingOf (statements.map Node.plain) = blockingOf statements := by
  rw [blockingOf_eq, blockingOf_eq, Node.any_map_plain fun s _ => s.waits_plain,
    Node.any_map_plain fun s _ => s.importsDynamically_plain]

/-! ## The same tree -/

namespace Node

/-- A tree down to a depth; what lies deeper is cut off. -/
def Cut : Nat → Type
  | 0 => Unit
  | depth + 1 => Span × Form (Cut depth)

deriving instance DecidableEq for Form

instance : (depth : Nat) → DecidableEq (Cut depth)
  | 0 => inferInstanceAs (DecidableEq Unit)
  | depth + 1 =>
    let _ := instDecidableEqCut depth
    inferInstanceAs (DecidableEq (Span × Form (Cut depth)))

/-- The tree down to a depth. -/
def cut : (depth : Nat) → Node → Cut depth
  | 0, _ => ()
  | depth + 1, n => (n.span, n.form.map (cut depth))

/-- A tree that has been cut off, with nothing in the place of what is missing. -/
def uncut : (depth : Nat) → Cut depth → Node
  | 0, _ => default
  | depth + 1, (span, form) => mk span (form.map (uncut depth))

/-- At the depth of its size, nothing of a tree is cut off. -/
theorem uncut_cut (n : Node) {depth : Nat} (h : n.size ≤ depth) :
    uncut depth (n.cut depth) = n := by
  induction n using Node.induction generalizing depth with
  | step span form ih =>
    cases depth with
    | zero =>
      rw [size_mk] at h
      cases h
    | succ depth =>
      have hparts : ∀ x ∈ form.parts, uncut depth (x.cut depth) = x := fun x hx =>
        ih x hx (Nat.le_of_lt_succ (Nat.lt_of_lt_of_le (size_lt_of_mem_parts span hx) h))
      show mk span ((form.map (cut depth)).map (uncut depth)) = _
      rw [Form.map_map]
      exact congrArg (mk span) ((Form.map_congr hparts).trans (Form.map_id form))

instance : DecidableEq Node := fun x y =>
  decidable_of_iff (x.cut (x.size + y.size) = y.cut (x.size + y.size)) <| by
    refine ⟨fun h => ?_, fun h => by rw [h]⟩
    rw [← x.uncut_cut (Nat.le_add_right ..), h, y.uncut_cut (Nat.le_add_left ..)]

end Node

namespace Program

/-- Two programs have the same statements, up to layout. -/
def SameTree (p q : Program) : Prop :=
  p.statements.map Node.plain = q.statements.map Node.plain

instance (p q : Program) : Decidable (p.SameTree q) :=
  inferInstanceAs (Decidable (_ = _))

/-- Where the text of a program can be read, it reads as the same program. -/
def RoundTrips (p : Program) (minify : Bool) : Prop :=
  ∀ q, parse (p.text minify) false = .ok q → q.SameTree p

instance (p : Program) (minify : Bool) : Decidable (p.RoundTrips minify) :=
  decidable_of_iff (∀ q ∈ (parse (p.text minify) false).toOption, q.SameTree p)
    ⟨fun h q hq => h q (by rw [hq]; rfl), fun h q hq => h q (eq_ok_of_toOption hq)⟩

/-- Programs with the same tree are classified alike. -/
theorem SameTree.blockingOf_eq {p q : Program} (h : p.SameTree q) :
    blockingOf p.statements = blockingOf q.statements := by
  rw [← blockingOf_map_plain, h, blockingOf_map_plain]

end Program

end Awaitless.Script
