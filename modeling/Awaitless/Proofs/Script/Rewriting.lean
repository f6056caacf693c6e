import Awaitless.Proofs.Script.Evaluation
import Awaitless.Script.Make

/-!
# Rewriting keeps what is evaluated

The transformation makes new syntax around old expressions, and it replaces some subtrees by others.
In both cases it has to be known whether something is evaluated that waits. Of made syntax this is
said by one lemma for each way to make it, all of them for simplification: whether a tree blocks
then computes down to whether its parts do. A function is where this ends, since its body is not
evaluated where it stands; the closure of a module relies on that.

* `Make.blocks_call`, `Make.blocks_arrow` and others — made syntax blocks where its parts do;
  functions never do.
* `Node.blocks_bottomUp` — replacing subtrees by others that block alike changes nothing.
-/

namespace Awaitless.Script

variable {members : Bool}

/-! ## Made syntax -/

namespace Node

/-- Outside of functions and classes, a form that does not wait itself blocks in one of its
parts. -/
theorem blocks_mk_iff {span : Span} {form : Form Node} (xs : List Node)
    (hwait : form.isWait = false) (hparts : form.immediateParts = xs)
    (hclass : form.classMembers = []) :
    (mk span form).Blocks members ↔ ∃ x ∈ xs, x.Blocks members := by
  have hheads : memberHeads (mk span form) = [] := by rw [memberHeads, form_mk, hclass]; rfl
  rw [blocks_iff, form_mk, hwait, or_iff_right Bool.false_ne_true]
  refine exists_congr fun x => and_congr_left fun _ => ?_
  rw [mem_evaluatedParts, form_mk, hparts, hheads]
  exact or_iff_left fun h => List.not_mem_nil h.2

/-- A form without parts that does not wait never blocks. -/
theorem not_blocks_mk {span : Span} {form : Form Node} (hwait : form.isWait = false)
    (hparts : form.immediateParts = []) (hclass : form.classMembers = []) :
    ¬ (mk span form).Blocks members := by
  rw [blocks_mk_iff [] hwait hparts hclass]
  rintro ⟨x, hx, -⟩
  cases hx

/-- A form with one part that does not wait itself blocks if the part does. -/
theorem blocks_mk_singleton_iff {span : Span} {form : Form Node} {x : Node}
    (hwait : form.isWait = false) (hparts : form.immediateParts = [x])
    (hclass : form.classMembers = []) : (mk span form).Blocks members ↔ x.Blocks members := by
  rw [blocks_mk_iff [x] hwait hparts hclass]
  simp only [List.mem_singleton, exists_eq_left]

end Node

namespace Make

variable {x y : Node} {xs : List Node} {text : String}

@[simp] theorem blocks_name : ¬ (name text).Blocks members :=
  Node.not_blocks_mk rfl rfl rfl

@[simp] theorem blocks_member : (member x text).Blocks members ↔ x.Blocks members :=
  Node.blocks_mk_singleton_iff rfl rfl rfl

/-- A call evaluates what is called and what is handed over. -/
@[simp] theorem blocks_call :
    (call x xs).Blocks members ↔ x.Blocks members ∨ ∃ y ∈ xs, y.Blocks members := by
  rw [call, Node.made, Node.blocks_mk_iff (x :: xs) rfl rfl rfl]
  simp only [List.mem_cons, exists_eq_or_imp]

@[simp] theorem blocks_array : (array xs).Blocks members ↔ ∃ y ∈ xs, y.Blocks members :=
  Node.blocks_mk_iff xs rfl rfl rfl

@[simp] theorem blocks_parenthesized :
    (Node.made (.parenthesized x)).Blocks members ↔ x.Blocks members :=
  Node.blocks_mk_singleton_iff rfl rfl rfl

/-- Calling at once evaluates what is called. -/
@[simp] theorem blocks_immediately : (immediately x).Blocks members ↔ x.Blocks members := by
  simp [immediately]

/-- The body of a function runs later. -/
@[simp] theorem blocks_arrow {isAsync : Bool} {parameters : List String} :
    ¬ (arrow isAsync parameters xs).Blocks members :=
  Node.not_blocks_mk rfl rfl rfl

@[simp] theorem blocks_statement : (statement x).Blocks members ↔ x.Blocks members :=
  Node.blocks_mk_singleton_iff rfl rfl rfl

/-- The target is evaluated as well, since it can hold keys and defaults. -/
@[simp] theorem blocks_assign :
    (assign x y).Blocks members ↔ x.Blocks members ∨ y.Blocks members := by
  have hassign : (Node.made (.assign none x y)).Blocks members ↔
      x.Blocks members ∨ y.Blocks members := by
    rw [Node.made, Node.blocks_mk_iff [x, y] rfl rfl rfl]
    simp only [List.mem_cons, List.not_mem_nil, or_false, exists_eq_or_imp, exists_eq_left]
  rw [assign, blocks_statement]
  split
  · rw [blocks_parenthesized, hassign]
  · exact hassign

@[simp] theorem blocks_declarator {value : Option Node} :
    (declarator text value).Blocks members ↔ ∃ y ∈ value, y.Blocks members := by
  rw [declarator, Node.made, Node.blocks_mk_iff (name text :: value.toList) rfl rfl rfl]
  simp only [List.mem_cons, exists_eq_or_imp, blocks_name, false_or, Option.mem_toList,
    Option.mem_def]

/-- Declarations evaluate the values of their declarators. -/
@[simp] theorem blocks_lexical :
    (Node.made (.bindings .lexical xs)).Blocks members ↔ ∃ y ∈ xs, y.Blocks members :=
  Node.blocks_mk_iff xs rfl rfl rfl

@[simp] theorem blocks_declareAs : (declareAs text x).Blocks members ↔ x.Blocks members := by
  simp [declareAs]

/-- A declaration without values evaluates nothing. -/
theorem blocks_of_mem_declare? {names : List String} (h : x ∈ declare? names) :
    ¬ x.Blocks members := by
  unfold declare? at h
  split at h
  · cases h
  · obtain rfl := Option.some.inj h
    simp

/-- Reading a promise that may be missing does not wait for it. -/
@[simp] theorem blocks_guardedRead : ¬ (guardedRead text).Blocks members := by
  simp [guardedRead]

/-- What is chained to promises is evaluated before they settle. -/
@[simp] theorem blocks_afterAll :
    (afterAll x y).Blocks members ↔ x.Blocks members ∨ y.Blocks members := by
  simp [afterAll]

@[simp] theorem blocks_continued : (continued x text).Blocks members ↔ x.Blocks members := by
  simp [continued]

@[simp] theorem blocks_exportNamed {pairs : List (String × String)} :
    ¬ (exportNamed pairs).Blocks members :=
  Node.not_blocks_mk rfl rfl rfl

end Make

namespace Node

/-- An import evaluates nothing where it stands. -/
theorem blocks_importItem {span : Span} {d : ImportDeclaration} :
    ¬ (mk span (.importItem d)).Blocks members :=
  not_blocks_mk rfl rfl rfl

/-! ## Replaced subtrees -/

/-- The head of a member, after subtrees have been replaced. -/
theorem memberHead_bottomUp {f : Node → Node}
    (hhead : ∀ n, (f n).form.memberHead = n.form.memberHead) (m : Node) :
    (m.bottomUp f).form.memberHead = m.form.memberHead.map (bottomUp f) := by
  obtain ⟨span, form⟩ := m
  rw [bottomUp_mk, hhead, form_mk, Form.memberHead_map, form_mk]

/-- Replacing subtrees by others that block alike, and are the same heads of members, keeps what
blocks. -/
theorem blocks_bottomUp {f : Node → Node} (hblocks : ∀ n, (f n).Blocks members ↔ n.Blocks members)
    (hhead : ∀ n, (f n).form.memberHead = n.form.memberHead) (n : Node) :
    (n.bottomUp f).Blocks members ↔ n.Blocks members := by
  -- the parts of a class lie two levels deep, so the heads of members are carried along
  suffices h : ((n.bottomUp f).Blocks members ↔ n.Blocks members) ∧
      ∀ x ∈ n.form.memberHead, (x.bottomUp f).Blocks members ↔ x.Blocks members from h.1
  induction n using Node.induction with
  | step span form ih =>
    refine ⟨?_, fun x hx => (ih x (Form.mem_parts_of_mem_memberHead hx)).1⟩
    rw [bottomUp_mk, hblocks, blocks_iff, blocks_iff, form_mk, form_mk, Form.isWait_map]
    simp only [mem_evaluatedParts, mem_memberHeads, form_mk, Form.immediateParts_map,
      Form.classMembers_map, List.mem_map]
    -- the form is the same, so both trees evaluate the same parts, each of them rewritten
    refine or_congr Iff.rfl ⟨?_, ?_⟩
    · rintro ⟨_, ⟨x, hx, rfl⟩ | ⟨hmembers, _, ⟨m, hm, rfl⟩, hhead'⟩, hxblocks⟩
      · have hpart := Form.mem_parts_of_mem_immediateParts hx
        exact ⟨x, .inl hx, (ih x hpart).1.mp hxblocks⟩
      · rw [memberHead_bottomUp hhead] at hhead'
        obtain ⟨x, hx, rfl⟩ := List.mem_map.mp hhead'
        have hpart := Form.mem_parts_of_mem_classMembers hm
        exact ⟨x, .inr ⟨hmembers, m, hm, hx⟩, ((ih m hpart).2 x hx).mp hxblocks⟩
    · rintro ⟨x, hx | ⟨hmembers, m, hm, hx⟩, hxblocks⟩
      · have hpart := Form.mem_parts_of_mem_immediateParts hx
        exact ⟨x.bottomUp f, .inl ⟨x, hx, rfl⟩, (ih x hpart).1.mpr hxblocks⟩
      · have hpart := Form.mem_parts_of_mem_classMembers hm
        refine ⟨x.bottomUp f, .inr ⟨hmembers, m.bottomUp f, ⟨m, hm, rfl⟩, ?_⟩,
          ((ih m hpart).2 x hx).mpr hxblocks⟩
        rw [memberHead_bottomUp hhead]
        exact List.mem_map_of_mem hx

end Node

end Awaitless.Script
