import Awaitless.Proofs.Transform.Assembly
import Awaitless.Proofs.Transform.Contents

/-!
# Continuations of dynamic imports

A dynamic import of a chunk that is transformed has to wait for the completion promise of that
chunk, so the call is continued: what it gives is handed on after the promise has settled. Rewriting
goes from the leaves up and keeps each call inside of its continuation; hence a tree with
continuations still holds all its calls, and the argument of a call may hold others.

That nothing is left to do is a property of whole trees (`Node.Settled`): a call of the kind that is
asked for stands in a continuation, and everything else is made of settled parts. It is shown of
what is rewritten by induction, and of the syntax that is put around it piece by piece.

* `Node.dynamicTarget?` — the chunk that a dynamic import of a literal leads to.
* `LeadsToUntouched` — the calls that need no continuation.
* `continueImports_mk` — one step of rewriting a tree.
* `continueImports_eq_continuedCall` — a call that leads to a transformed chunk gets its
  continuation.
* `Node.Settled` — no other dynamic import in a tree leads to chunks of a kind.
* `settled_of_mem_assemble`, `exists_contains_assemble` — this holds of a transformed module, and
  all calls of the closure stand in it.
* `length_calls_assemble` — no other calls do.
-/

namespace Awaitless

open Script

namespace Script.Node

/-- The chunk that a dynamic import of a literal leads to. -/
def dynamicTarget? (importer : String) (n : Node) : Option String :=
  match n.form with
  | .dynamicImport _ source _ =>
    match source.form with
    | .stringLiteral value _ => resolve? importer value.toString
    | _ => none
  | _ => none

/-- Every dynamic import that needs it has a continuation, which waits for the promise. -/
inductive Settled (needs : Node → Prop) (promise : String) : Node → Prop
  | continued {n : Node} :
    (∀ x ∈ n.form.parts, Settled needs promise x) → Settled needs promise (Make.continued n promise)
  | other {n : Node} : (n.form.isDynamicImport = true → ¬ needs n) →
    (∀ x ∈ n.form.parts, Settled needs promise x) → Settled needs promise n

variable {needs : Node → Prop} {promise : String} {n x y : Node} {xs : List Node}

/-- Only a dynamic import has a target. -/
theorem isDynamicImport_of_dynamicTarget? {importer target : String}
    (h : n.dynamicTarget? importer = some target) : n.form.isDynamicImport = true := by
  unfold dynamicTarget? at h
  split at h
  · rename_i hform
    rw [hform]
    rfl
  · cases h

/-- Where there is no dynamic import, none needs a continuation. -/
theorem settled_of_importsDynamically_eq_false (h : n.importsDynamically = false) :
    n.Settled needs promise := by
  induction n using Node.induction with
  | step span form ih =>
    rw [importsDynamically_mk, Bool.or_eq_false_iff, List.any_eq_false] at h
    refine .other (fun hdynamic => ?_) fun x hx => ih x hx (Bool.eq_false_iff.mpr (h.2 x hx))
    rw [form_mk, h.1] at hdynamic
    cases hdynamic

/-- What is no call is settled with its parts. -/
theorem Settled.of_parts (hform : n.form.isDynamicImport = false)
    (hparts : ∀ x ∈ n.form.parts, x.Settled needs promise) : n.Settled needs promise :=
  .other (fun h => absurd h (Bool.eq_false_iff.mp hform)) hparts

end Script.Node

/-! ## Made syntax -/

namespace Script.Make

variable {needs : Node → Prop} {promise : String} {x y : Node} {xs : List Node} {text : String}

/-- A call of a function is settled with the function and what it is handed. -/
theorem settled_call (hx : x.Settled needs promise) (hxs : ∀ y ∈ xs, y.Settled needs promise) :
    (call x xs).Settled needs promise :=
  .of_parts rfl (List.forall_mem_cons.mpr ⟨hx, hxs⟩)

theorem settled_member (hx : x.Settled needs promise) : (member x text).Settled needs promise :=
  .of_parts rfl (List.forall_mem_singleton.mpr hx)

theorem settled_statement (hx : x.Settled needs promise) : (statement x).Settled needs promise :=
  .of_parts rfl (List.forall_mem_singleton.mpr hx)

theorem settled_declareAs (hx : x.Settled needs promise) :
    (declareAs text x).Settled needs promise := by
  refine .of_parts rfl (List.forall_mem_singleton.mpr (.of_parts rfl ?_))
  refine List.forall_mem_cons.mpr ⟨?_, List.forall_mem_singleton.mpr hx⟩
  exact Node.settled_of_importsDynamically_eq_false rfl

theorem settled_immediately (hx : x.Settled needs promise) :
    (immediately x).Settled needs promise :=
  settled_call (.of_parts rfl (List.forall_mem_singleton.mpr hx)) nofun

theorem settled_afterAll (hx : x.Settled needs promise) (hy : y.Settled needs promise) :
    (afterAll x y).Settled needs promise := by
  have hname : (name "Promise").Settled needs promise :=
    Node.settled_of_importsDynamically_eq_false rfl
  refine settled_call (settled_member (settled_call (settled_member hname) ?_)) ?_
  · exact List.forall_mem_singleton.mpr hx
  · exact List.forall_mem_singleton.mpr hy

/-- A function is settled with its body, where calls may well stand. -/
theorem settled_arrow (hxs : ∀ x ∈ xs, x.Settled needs promise) :
    (arrow true [] xs).Settled needs promise :=
  .of_parts rfl (List.forall_mem_singleton.mpr (.of_parts rfl hxs))

end Script.Make

namespace Transform

open Script.Node

variable {bundle : Bundle} {importer promise target : String} {n x : Node} {needs : Node → Prop}

/-! ## Rewritten calls -/

/-- Beside its parts, only a dynamic import may change, into a call. -/
theorem form_continueImports (bundle : Bundle) (importer promise : String) (n : Node) :
    (continueImports bundle importer promise n).form =
        n.form.map (continueImports bundle importer promise) ∨
      (∃ phase source options, n.form = .dynamicImport phase source options) ∧
        ∃ callee arguments,
          (continueImports bundle importer promise n).form =
            .call callee arguments false false := by
  obtain ⟨span, form⟩ := n
  rw [continueImports, Node.bottomUp_mk, continueImport]
  split
  · rename_i hform
    cases form with
    | dynamicImport phase source options =>
      split
      · exact .inr ⟨⟨phase, source, options, rfl⟩, _, _, rfl⟩
      · exact .inl rfl
    | _ => cases hform
  · exact .inl rfl

/-- The source of a dynamic import is a literal that leads to a chunk that is left untouched. -/
def LeadsToUntouched (bundle : Bundle) (importer : String) (n : Node) : Prop :=
  ∃ target record, n.dynamicTarget? importer = some target ∧ bundle.get? target = some record ∧
    record.needsTransform = false

/-- Whether a call leads to an untouched chunk can be computed. -/
theorem leadsToUntouched_iff :
    LeadsToUntouched bundle importer n ↔
      (n.dynamicTarget? importer).any fun target =>
        (bundle.get? target).any fun record => !record.needsTransform := by
  simp only [LeadsToUntouched, Option.any_eq_true, Bool.not_eq_true']
  constructor
  · rintro ⟨target, record, htarget, hrecord, hneeds⟩
    exact ⟨target, htarget, record, hrecord, hneeds⟩
  · rintro ⟨target, htarget, record, hrecord, hneeds⟩
    exact ⟨target, record, htarget, hrecord, hneeds⟩

instance : DecidablePred (LeadsToUntouched bundle importer) :=
  fun _ => decidable_of_iff _ leadsToUntouched_iff.symm

/-- All calls need a continuation, except for those that lead to untouched chunks. -/
theorem needsContinuation_iff {phase : Option ImportPhase} {source : Node} {options : Option Node}
    (hform : n.form = .dynamicImport phase source options) :
    needsContinuation bundle importer source = true ↔ ¬ LeadsToUntouched bundle importer n := by
  rw [leadsToUntouched_iff, Node.dynamicTarget?, hform, needsContinuation]
  obtain ⟨span, form⟩ := source
  cases form with
  | stringLiteral value flaw =>
    dsimp only [Node.form_mk]
    cases resolve? importer value.toString with
    | none => exact iff_of_true rfl nofun
    | some target =>
      dsimp only [Option.any_some]
      cases bundle.get? target with
      | none => exact iff_of_true rfl nofun
      | some record => cases record.needsTransform <;> simp
  | _ => exact iff_of_true rfl nofun

/-- A call is continued unless its chunk is known to be untouched; a call without a literal is
continued as well. -/
theorem continueImport_eq (n : Node) :
    continueImport bundle importer promise n =
      if n.form.isDynamicImport = true ∧ ¬ LeadsToUntouched bundle importer n then
        Make.continued n promise
      else n := by
  unfold continueImport
  split
  · rename_i hform
    have hdynamic : n.form.isDynamicImport = true := by rw [hform]; rfl
    simp only [hdynamic, true_and, ← needsContinuation_iff hform]
  · rename_i hother
    have hdynamic : ¬ n.form.isDynamicImport = true := by
      intro h
      obtain ⟨span, form⟩ := n
      cases form with
      | dynamicImport phase source options => exact hother _ _ _ rfl
      | _ => cases h
    rw [if_neg fun h => hdynamic h.1]

/-- A literal is left as it is, and nothing else turns into a literal. So rewriting its parts does
not change where a call leads to. -/
theorem leadsToUntouched_map (span : Span) (form : Form Node) :
    LeadsToUntouched bundle importer
        (.mk span (form.map (continueImports bundle importer promise))) ↔
      LeadsToUntouched bundle importer (.mk span form) := by
  have htarget : (Node.mk span (form.map (continueImports bundle importer promise))).dynamicTarget?
      importer = (Node.mk span form).dynamicTarget? importer := by
    cases form with
    | dynamicImport phase source options =>
      unfold Node.dynamicTarget?
      dsimp only [Form.map, Node.form_mk]
      rcases form_continueImports bundle importer promise source with hform | ⟨hdynamic, hcall⟩
      · rw [hform]
        cases source.form <;> rfl
      · obtain ⟨_, _, _, hdynamic⟩ := hdynamic
        obtain ⟨_, _, hcall⟩ := hcall
        rw [hcall, hdynamic]
    | _ => rfl
  rw [LeadsToUntouched, LeadsToUntouched, htarget]

/-- One step of rewriting a tree: whether a call is continued is a matter of the call as it was. -/
theorem continueImports_mk (span : Span) (form : Form Node) :
    continueImports bundle importer promise (.mk span form) =
      if form.isDynamicImport = true ∧ ¬ LeadsToUntouched bundle importer (.mk span form) then
        Make.continued (.mk span (form.map (continueImports bundle importer promise))) promise
      else .mk span (form.map (continueImports bundle importer promise)) := by
  rw [continueImports, Node.bottomUp_mk, ← continueImports, continueImport_eq]
  simp only [Node.form_mk, Form.isDynamicImport_map, leadsToUntouched_map]

/-- A chunk that is transformed is not untouched. -/
theorem not_leadsToUntouched (htarget : n.dynamicTarget? importer = some target)
    (htransformed : bundle.isTransformed target = true) :
    ¬ LeadsToUntouched bundle importer n := by
  obtain ⟨record, hrecord, hneeds⟩ := (Option.any_eq_true ..).mp htransformed
  rintro ⟨target', record', htarget', hrecord', huntouched⟩
  obtain rfl := Option.some.inj (htarget.symm.trans htarget')
  obtain rfl := Option.some.inj (hrecord.symm.trans hrecord')
  rw [hneeds] at huntouched
  cases huntouched

/-- A dynamic import that leads to a transformed chunk gets a continuation. -/
theorem continueImport_of_target (htarget : n.dynamicTarget? importer = some target)
    (htransformed : bundle.isTransformed target = true) :
    continueImport bundle importer promise n = Make.continued n promise := by
  rw [continueImport_eq, if_pos]
  exact ⟨isDynamicImport_of_dynamicTarget? htarget, not_leadsToUntouched htarget htransformed⟩

/-- A call that leads to a transformed chunk, with everything in it rewritten, and with its
continuation. -/
def continuedCall (bundle : Bundle) (importer promise : String) (n : Node) : Node :=
  Make.continued (.mk n.span (n.form.map (continueImports bundle importer promise))) promise

/-- The literal of such a call is not rewritten, so the call stands in its continuation as it was.
-/
theorem continueImports_eq_continuedCall (h : n.dynamicTarget? importer = some target)
    (htransformed : bundle.isTransformed target = true) :
    continueImports bundle importer promise n = continuedCall bundle importer promise n := by
  obtain ⟨span, form⟩ := n
  rw [continueImports_mk, if_pos]
  · rfl
  · exact ⟨isDynamicImport_of_dynamicTarget? h, not_leadsToUntouched h htransformed⟩

/-- Nothing is put in place of a call, only around it. -/
theorem contains_continueImport (bundle : Bundle) (importer promise : String) (n : Node) :
    (continueImport bundle importer promise n).Contains n := by
  unfold continueImport
  split
  · split
    · exact Make.contains_continued
    · exact .self n
  · exact .self n

/-- A continuation leaves all calls where they are. -/
theorem calls_continueImport (bundle : Bundle) (importer promise : String) (n : Node) :
    (continueImport bundle importer promise n).calls = n.calls := by
  unfold continueImport
  split
  · split
    · exact Make.calls_continued
    · rfl
  · rfl

/-- Rewriting the calls of a tree keeps their number. -/
theorem length_calls_continueImports (bundle : Bundle) (importer promise : String) (n : Node) :
    (continueImports bundle importer promise n).calls.length = n.calls.length := by
  induction n using Node.induction with
  | step span form ih =>
    have hparts :
        (form.parts.map fun x => (continueImports bundle importer promise x).calls.length) =
          form.parts.map fun x => x.calls.length := List.map_congr_left ih
    rw [continueImports, bottomUp_mk, calls_continueImport, calls_mk, calls_mk,
      Form.isDynamicImport_map, Form.parts_map, List.flatMap_map, List.length_append,
      List.length_append, List.length_flatMap, List.length_flatMap]
    refine congrArg₂ (· + ·) ?_ (congrArg List.sum hparts)
    split <;> rfl

/-- Nothing that leads to a transformed chunk is left without a continuation. -/
theorem settled_continueImports (n : Node)
    (hneeds : ∀ x, needs x → ∃ target, x.dynamicTarget? importer = some target ∧
      bundle.isTransformed target = true) :
    (continueImports bundle importer promise n).Settled needs promise := by
  induction n using Node.induction with
  | step span form ih =>
    rw [continueImports, bottomUp_mk]
    have hparts : ∀ x ∈ (Node.mk span (form.map (bottomUp (continueImport bundle importer
        promise)))).form.parts, x.Settled needs promise := by
      rw [form_mk, Form.parts_map]
      exact List.forall_mem_map.mpr ih
    -- the parts are settled by induction; only the node itself may be a call
    by_cases hcall : needs (.mk span (form.map (bottomUp (continueImport bundle importer promise))))
    · obtain ⟨target, htarget, htransformed⟩ := hneeds _ hcall
      rw [continueImport_of_target htarget htransformed]
      exact .continued hparts
    · have hsettled : Settled needs promise _ := .other (fun _ => hcall) hparts
      unfold continueImport
      split
      · split
        · exact .continued hparts
        · exact hsettled
      · exact hsettled

/-! ## The whole module -/

variable {s : Surroundings} {items : Items} {body : List Node}

/-- However a closure is run, it stands in the completion promise. -/
theorem contains_completion (awaited : List String) (closure : Node) :
    (completion awaited closure).Contains closure := by
  unfold completion
  split
  · exact Make.contains_immediately
  · exact Make.contains_afterAll

/-- The completion stands in the end of the module. -/
theorem exists_contains_ending (s : Surroundings) (exports : Exports) (promise : Node) :
    ∃ y ∈ ending s exports promise, y.Contains promise := by
  unfold ending
  split
  · exact ⟨_, List.mem_singleton_self _, Make.contains_statement⟩
  · exact ⟨_, List.mem_cons_self .., Make.contains_declareAs⟩

/-- Every statement of the closure stands in the module. -/
theorem exists_contains_assemble (s : Surroundings) (items : Items) (hx : x ∈ body) :
    ∃ y ∈ assemble s items body,
      y.Contains (continueImports s.bundle s.moduleName s.settings.promiseName x) := by
  obtain ⟨y, hy, hcontains⟩ := exists_contains_ending s items.exports
    (completion (awaitedNames s items) (closure s body))
  refine ⟨y, (ending_suffix_assemble s items body).mem hy, ?_⟩
  exact hcontains.trans ((contains_completion _ _).trans
    (Make.contains_arrow (List.mem_map_of_mem hx)))

/-- Waiting for other promises calls no import. -/
theorem calls_completion (awaited : List String) (closure : Node) :
    (completion awaited closure).calls = closure.calls := by
  unfold completion
  split
  · exact Make.calls_immediately
  · rw [Make.calls_afterAll, Make.calls_array, List.flatMap_map]
    simp

/-- The ending of a module holds the calls of its completion promise, and of nothing else. -/
theorem calls_ending (s : Surroundings) (exports : Exports) (promise : Node) :
    (ending s exports promise).flatMap calls = promise.calls := by
  have hexport : ∀ entries, (Make.exportNamed entries).calls = [] := fun _ => rfl
  unfold ending
  split
  · rw [List.flatMap_singleton, Make.calls_statement]
  · rw [List.flatMap_cons, List.flatMap_singleton, hexport, Make.calls_declareAs, List.append_nil]

/-- A transformed module holds the calls of the closure and no others, rewritten or not. -/
theorem length_calls_assemble (s : Surroundings) (items : Items) (body : List Node) :
    ((assemble s items body).flatMap calls).length = (body.flatMap calls).length := by
  have himports : ∀ next, (PromiseImports.threadFrom s.bundle s.moduleName s.settings next
      items.imports).1.flatMap calls = [] := by
    refine fun next => List.flatMap_eq_nil_iff.mpr fun x hx => ?_
    obtain ⟨d, hd⟩ := PromiseImports.exists_importItem_of_mem_threadFrom hx
    rw [hd]
    rfl
  rw [assemble_eq, List.flatMap_append, List.flatMap_append, PromiseImports.thread, himports,
    Make.calls_declare?, calls_ending, calls_completion, closure, Make.calls_arrow,
    List.flatMap_map, List.nil_append, List.nil_append, List.length_flatMap, List.length_flatMap]
  exact congrArg List.sum (List.map_congr_left fun x _ => length_calls_continueImports _ _ _ x)

/-- Promises of other chunks are read by name. -/
theorem settled_completion {awaited : List String} {closure : Node}
    (h : closure.Settled needs promise) : (completion awaited closure).Settled needs promise := by
  unfold completion
  split
  · exact Make.settled_immediately h
  · refine Make.settled_afterAll (.of_parts rfl (List.forall_mem_map.mpr fun name _ => ?_)) h
    exact settled_of_importsDynamically_eq_false rfl

/-- In the ending, only the completion promise holds anything. -/
theorem settled_of_mem_ending {exports : Exports} {value : Node}
    (hvalue : value.Settled needs promise) (h : x ∈ ending s exports value) :
    x.Settled needs promise := by
  unfold ending at h
  split at h
  · rw [List.mem_singleton.mp h]
    exact Make.settled_statement hvalue
  · rcases List.mem_cons.mp h with rfl | h
    · exact Make.settled_declareAs hvalue
    · rw [List.mem_singleton.mp h]
      exact .of_parts rfl nofun

/-- Nothing in a transformed module leads to transformed chunks without a continuation. -/
theorem settled_of_mem_assemble
    (hneeds : ∀ x, needs x → ∃ target, x.dynamicTarget? s.moduleName = some target ∧
      s.bundle.isTransformed target = true) (h : x ∈ assemble s items body) :
    x.Settled needs s.settings.promiseName := by
  rcases List.mem_append.mp h with h | h
  · rcases List.mem_append.mp h with h | h
    · obtain ⟨d, hd⟩ := PromiseImports.exists_importItem_of_mem_threadFrom h
      rw [hd]
      exact .of_parts rfl nofun
    · have hx := Option.mem_toList.mp h
      unfold Make.declare? at hx
      split at hx
      · cases hx
      · obtain rfl := Option.some.inj hx
        refine .of_parts rfl (List.forall_mem_map.mpr fun name _ => ?_)
        exact settled_of_importsDynamically_eq_false rfl
  · refine settled_of_mem_ending (settled_completion (Make.settled_arrow ?_)) h
    exact List.forall_mem_map.mpr fun y _ => settled_continueImports y hneeds

end Transform

end Awaitless
