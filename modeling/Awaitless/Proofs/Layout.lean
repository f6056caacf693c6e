import Awaitless.Proofs.Outcome
import Awaitless.Proofs.Script.Parsing.Exports
import Awaitless.Proofs.Transform.Assignments
import Awaitless.Proofs.Validity

/-!
# The layout of a transformed module

A transformed module is made of its imports, one declaration of the names that it exports, and an
ending: the completion promise with an export clause, or a bare statement. The clause lists what the
module exported before, in the order of its text. The transformation works from notes that it takes
item by item, so the theorem is reached in two steps: the notes are the pairs of names that can be
read off the module (`Items.exports_eq_exportPairs`), and the layout is made from the notes.

Notes replace each other if they have the same name. That this does not happen is due to the
grammar, which allows each name once; but a default export is not counted there if it is a type, and
the name of a default without a name of its own depends on the notes before it. As there is one
default at most, its name is always the first one that is free.

* `Program.exportPairs` — what a module exports, in source order.
* `Items.exports_eq_exportPairs` — this is what is noted when the module is taken apart.
* `LaidOut` — the statements of the transformed module, in order.
* `program_laidOut` — a module that exports values of its own is laid out like this, and exports
  what it exported before and its completion promise.
-/

namespace Awaitless

namespace Script

variable {n d : Node} {p : Program}

/-! ## Exports of a module -/

/-- The names under which an item exports something, in source order, with the bindings that they
read; a value without a name is bound to `unnamed`. -/
def Node.exportPairs (unnamed : String) (n : Node) : List (String × String) :=
  match n.form with
  | .exportNames specifiers none => specifiers.map fun x => (x.exported.text, x.binding.text)
  | .exportDeclaration d => d.directNames.map fun x => (x, x)
  | .exportDefault value => [("default", (Transform.Items.ownName? value).getD unnamed)]
  | _ => []

/-- What a module with the given text exports. The name for a default value is made of the text. -/
def Program.exportPairs (p : Program) (text : String) : List (String × String) :=
  p.statements.flatMap (Node.exportPairs (NameChain.start text).next.1)

/-- The exported bindings that no import binds, in the order in which they are first exported. -/
def Program.exportedLocals (p : Program) (text : String) : List String :=
  (distinct ((p.exportPairs text).map (·.2))).filter (· ∉ p.statements.flatMap Node.importedNames)

/-- The local names of the promises that a module imports. -/
def Program.promiseNames (p : Program) (bundle : Bundle) (name : String) (settings : Settings) :
    List String :=
  (List.range (p.importDeclarations.countP
    (Transform.PromiseImports.isFromTransformed bundle name))).map settings.importName

/-- The name for a default value only matters where there is one. -/
theorem Node.exportPairs_congr {u v : String}
    (h : "default" ∈ (n.exportPairs u).map (·.1) → v = u) : n.exportPairs v = n.exportPairs u := by
  obtain ⟨span, form⟩ := n
  cases form with
  | exportDefault value => rw [h (List.mem_singleton_self _)]
  | exportNames specifiers source => cases source <;> rfl
  | _ => rfl

/-- A statement exports nothing. -/
theorem Node.exportPairs_of_isStatement (h : n.isStatement = true) (unnamed : String) :
    n.exportPairs unnamed = [] := by
  obtain ⟨span, form⟩ := n
  cases form with
  | exportNames _ _ | exportDeclaration _ | exportDefault _ => cases h
  | _ => rfl

/-- A plain name is the only one that it binds. -/
theorem Node.boundNames_of_identifier {text : String} (h : n.form = .identifier text) :
    n.boundNames = (Transform.Items.declaredName? (some n)).toList := by
  have hname : n.name? = some text := by rw [name?_eq, h]
  rw [boundNames_of_name? hname]
  exact congrArg Option.toList hname.symm

/-- The names of an exported declaration are those that the grammar counts. -/
theorem Node.IsExported.exportedNames_eq (h : d.IsExported) (hn : n.form = .exportDeclaration d) :
    Parser.exportedNames n = d.directNames := by
  rw [Parser.exportedNames, hn]
  dsimp only
  cases h with
  | @bindings kind ds hform hds =>
    rw [directNames, hform]
    dsimp only
    rw [List.flatMap_def, List.flatMap_def]
    refine congrArg List.flatten (List.map_congr_left fun d hd => ?_)
    -- the grammar and the transformation collect names of patterns in different ways
    obtain ⟨target, value, hd, htarget, -⟩ := hds d hd
    rw [declaratorNames, hd]
    exact htarget.isPattern.boundNames_eq_patternNames
  | @function traits name parameters body text hform hname =>
    rw [directNames, Transform.Items.ownName?, hform]
    exact boundNames_of_identifier hname
  | @classLike traits decorators name heritage members hform hname =>
    rw [directNames, Transform.Items.ownName?, hform]
    cases name with
    | none => rfl
    | some name =>
      obtain ⟨text, hname⟩ := hname name rfl
      exact boundNames_of_identifier hname

/-- A default export with a place is one of a value. -/
theorem Node.exportsDefault_of_unsupported? {moduleName : String} {value : Node}
    (hform : n.form = .exportDefault value) (h : n.unsupported? moduleName = none) :
    Parser.exportsDefault n = true := by
  unfold unsupported? at h
  unfold Parser.exportsDefault
  rw [hform] at h ⊢
  obtain ⟨span, form⟩ := value
  cases form with
  | typeDeclaration text => cases h
  | _ => rfl

/-- An item exports what the grammar counts: names, and a default value apart from them. What has no
value is no default there, so the item has to have a place. -/
theorem Node.count_exportPairs_le {moduleName : String} (unnamed : String) (hn : n.IsItem)
    (hplace : n.unsupported? moduleName = none) (x : String) :
    ((n.exportPairs unnamed).map (·.1)).count x ≤
      (Parser.exportedNames n).count x +
        if x = "default" then (if Parser.exportsDefault n then 1 else 0) else 0 := by
  obtain ⟨span, form⟩ := n
  cases form with
  | exportNames specifiers source =>
    cases source with
    | none =>
      show (List.map _ (List.map _ specifiers)).count x ≤ _
      rw [List.map_map]
      exact Nat.le_add_right ..
    | some source => exact Nat.zero_le _
  | exportDeclaration d =>
    have hpairs : ((Node.mk span (.exportDeclaration d)).exportPairs unnamed).map (·.1) =
        d.directNames := by
      show List.map _ (List.map _ d.directNames) = _
      rw [List.map_map]
      exact List.map_id _
    rw [hpairs, (hn.exported d rfl).exportedNames_eq rfl]
    exact Nat.le_add_right ..
  | exportDefault value =>
    show ["default"].count x ≤ _
    by_cases hx : x = "default"
    · -- a default that can be transformed is one that the grammar counts
      have hvalue : Parser.exportsDefault (.mk span (.exportDefault value)) = true :=
        exportsDefault_of_unsupported? rfl hplace
      rw [if_pos hx, if_pos hvalue]
      exact Nat.le_trans List.count_le_length (Nat.le_add_left ..)
    · rw [List.count_eq_zero.mpr fun h => hx (List.mem_singleton.mp h)]
      exact Nat.zero_le _
  | _ => exact Nat.zero_le _

/-- A module exports a name as often as the grammar counts it, at most. -/
theorem Node.count_flatMap_exportPairs_le {moduleName : String} (unnamed : String)
    {statements : List Node} (hitems : ∀ n ∈ statements, n.IsItem)
    (hplaces : ∀ n ∈ statements, n.unsupported? moduleName = none) (x : String) :
    ((statements.flatMap (exportPairs unnamed)).map (·.1)).count x ≤
      (statements.flatMap Parser.exportedNames).count x +
        if x = "default" then statements.countP Parser.exportsDefault else 0 := by
  induction statements with
  | nil => exact Nat.zero_le _
  | cons n statements ih =>
    obtain ⟨hitem, hitems⟩ := List.forall_mem_cons.mp hitems
    obtain ⟨hplace, hplaces⟩ := List.forall_mem_cons.mp hplaces
    have hfirst := n.count_exportPairs_le unnamed hitem hplace x
    have hrest := ih hitems hplaces
    rw [List.flatMap_cons, List.map_append, List.count_append, List.flatMap_cons,
      List.count_append, List.countP_cons]
    by_cases hx : x = "default"
    · rw [if_pos hx] at hfirst hrest ⊢
      omega
    · rw [if_neg hx] at hfirst hrest ⊢
      omega

/-- A module that could be read and exports values only exports no name twice. The grammar counts
the exported names and the default values, and each name that an item exports is one of these. -/
theorem Program.nodup_exportPairs {text moduleName : String}
    (hp : Program.parse text false = .ok p) (unnamed : String)
    (hplaces : ∀ n ∈ p.statements, n.unsupported? moduleName = none) :
    ((p.statements.flatMap (Node.exportPairs unnamed)).map (·.1)).Nodup := by
  have hitems := Program.isItem_of_parse hp
  rw [List.nodup_iff_count_le_one]
  intro x
  refine Nat.le_trans (Node.count_flatMap_exportPairs_le unnamed hitems hplaces x) ?_
  by_cases hx : x = "default"
  · rw [if_pos hx, hx]
    exact Program.count_defaults_le_one hp
  · rw [if_neg hx]
    exact List.nodup_iff_count_le_one.mp (Program.nodup_exportedNames hp) x

end Script

open Script

namespace Transform

variable {moduleName : String} {items items' : Items} {s : Node}

/-! ## Noted exports -/

/-- New names are noted one after the other. -/
theorem Exports.foldl_insert_eq_append {β : Type} {exported binding : β → String} {xs : List β}
    {e : Exports} (h : (e.map (·.1) ++ xs.map exported).Nodup) :
    xs.foldl (fun e x => e.insert (exported x) (binding x)) e =
      e ++ xs.map fun x => (exported x, binding x) := by
  induction xs generalizing e with
  | nil => exact (List.append_nil e).symm
  | cons x xs ih =>
    rw [List.map_cons, List.append_cons] at h
    have hnew : exported x ∉ e.map (·.1) := by
      intro hmem
      have hfirst := (List.nodup_append.mp h).1
      exact (List.nodup_append.mp hfirst).2.2 _ hmem _ (List.mem_singleton_self _) rfl
    have hnext : ((e ++ [(exported x, binding x)]).map (·.1) ++ xs.map exported).Nodup := by
      rw [List.map_append]
      exact h
    rw [List.foldl_cons, insert_of_not_mem hnew, ih hnext, List.map_cons, List.append_assoc]
    rfl

namespace Items

/-- One item notes its exports at the end, if all their names are new. -/
theorem exports_add (h : add moduleName items s = .ok items') (hs : s.IsItem)
    (hnodup : ((items.exports ++ s.exportPairs items.names.next.1).map (·.1)).Nodup) :
    items'.exports = items.exports ++ s.exportPairs items.names.next.1 := by
  rw [List.map_append] at hnodup
  -- both kinds of default values are noted under one name, which has to be new
  have hdefault : ∀ {value : Node} {name : String}, s.form = .exportDefault value →
      (ownName? value).getD items.names.next.1 = name →
        items.exports.insert "default" name =
          items.exports ++ s.exportPairs items.names.next.1 := by
    intro value name hform hname
    have hpairs : s.exportPairs items.names.next.1 = [("default", name)] := by
      rw [Node.exportPairs, hform, ← hname]
    rw [hpairs] at hnodup ⊢
    refine Exports.insert_of_not_mem fun hmem => ?_
    exact (List.nodup_append.mp hnodup).2.2 _ hmem _ (List.mem_singleton_self _) rfl
  -- by what becomes of the item; only exports note something
  cases becomes_of_add h with
  | importItem d hform =>
    rw [Node.exportPairs, hform]
    exact (List.append_nil _).symm
  | exportNames specifiers hform =>
    rw [Node.exportPairs, hform] at hnodup ⊢
    rw [List.map_map] at hnodup
    exact Exports.foldl_insert_eq_append hnodup
  | exportDeclaration d names hform hnames =>
    have hdirect : names = d.directNames := by
      rw [← exportedNames_of_exportDeclaration hform hnames]
      exact (hs.exported d hform).exportedNames_eq hform
    rw [Node.exportPairs, hform] at hnodup ⊢
    rw [List.map_map] at hnodup
    subst hdirect
    exact Exports.foldl_insert_eq_append hnodup
  | namedDefault value name hform hname => exact hdefault hform (by rw [hname]; rfl)
  | unnamedDefault value hform hname => exact hdefault hform (by rw [hname]; rfl)
  | statement hstatement =>
    rw [Node.exportPairs_of_isStatement hstatement]
    exact (List.append_nil _).symm

/-- A name is made only for a default value. -/
theorem names_add (h : add moduleName items s = .ok items') {unnamed : String}
    (hdefault : "default" ∉ (s.exportPairs unnamed).map (·.1)) : items'.names = items.names := by
  cases becomes_of_add h with
  | unnamedDefault value hform _ =>
    rw [Node.exportPairs, hform] at hdefault
    exact absurd (List.mem_singleton_self _) hdefault
  | _ => rfl

/-- What is noted are the exports of the module, if no name is exported twice. -/
theorem exports_eq_exportPairs {text : String} {statements : List Node}
    (hitems : ∀ s ∈ statements, s.IsItem)
    (hnodup : ((statements.flatMap
      (Node.exportPairs (NameChain.start text).next.1)).map (·.1)).Nodup)
    (h : ofStatements moduleName text statements = .ok items) :
    items.exports = statements.flatMap (Node.exportPairs (NameChain.start text).next.1) := by
  -- as long as there is no default, no name has been made
  have hfold := foldlM_eq_ok_induction (fun seen items => (∀ s ∈ seen, s.IsItem) →
    ((seen.flatMap (Node.exportPairs (NameChain.start text).next.1)).map (·.1)).Nodup →
      items.exports = seen.flatMap (Node.exportPairs (NameChain.start text).next.1) ∧
        ("default" ∉ items.exports.map (·.1) → items.names = NameChain.start text))
    ?_ [] (fun _ _ => ⟨rfl, fun _ => rfl⟩) h
  · exact (hfold hitems hnodup).1
  intro seen items s items' ih hadd hitems hnodup
  obtain ⟨hseen, hs⟩ := List.forall_mem_append.mp hitems
  rw [List.flatMap_append, List.flatMap_singleton] at hnodup ⊢
  rw [List.map_append] at hnodup
  obtain ⟨hexports, hnames⟩ := ih hseen (List.nodup_append.mp hnodup).1
  -- at the default, the chain still stands at its start
  have hpairs : s.exportPairs items.names.next.1 =
      s.exportPairs (NameChain.start text).next.1 := by
    refine Node.exportPairs_congr fun hdefault => ?_
    rw [hnames fun hmem => ?_]
    rw [hexports] at hmem
    exact (List.nodup_append.mp hnodup).2.2 _ hmem _ hdefault rfl
  have hadded := exports_add hadd (hs s (List.mem_singleton_self s))
    (by rw [hpairs, hexports, List.map_append]; exact hnodup)
  rw [hpairs, hexports] at hadded
  refine ⟨hadded, fun hdefault => ?_⟩
  rw [hadded, List.map_append, List.mem_append, not_or] at hdefault
  rw [names_add hadd hdefault.2]
  exact hnames (hexports ▸ hdefault.1)

end Items

/-! ## The layout -/

/-- The statements of a transformed module, in order. -/
inductive LaidOut (s : Surroundings) (text : String) (p q : Program) : Prop
  /-- After the imports, the exported bindings are declared; the completion promise is declared next
  and exported after everything else. -/
  | exporting (imports body : List Node) : p.exportPairs text ≠ [] ∨ s.isImported = true →
    (∀ n ∈ imports, n.importDeclaration?.isSome = true) →
    q.statements = imports ++ (Make.declare? (p.exportedLocals text)).toList ++
      [Make.declareAs s.settings.promiseName
          (completion (p.promiseNames s.bundle s.moduleName s.settings) (Make.arrow true [] body)),
        Make.exportNamed ((p.exportPairs text).filter (·.1 ≠ s.settings.promiseName) ++
          [(s.settings.promiseName, s.settings.promiseName)])] →
    LaidOut s text p q
  /-- Nobody can ask for the completion promise. -/
  | silent (imports body : List Node) : p.exportPairs text = [] → s.isImported = false →
    (∀ n ∈ imports, n.importDeclaration?.isSome = true) →
    q.statements = imports ++ [Make.statement
      (completion (p.promiseNames s.bundle s.moduleName s.settings) (Make.arrow true [] body))] →
    LaidOut s text p q

/-- No name that the transformation makes meets another name that stands at the top. -/
structure NamesApart (s : Surroundings) (text : String) (p : Program) : Prop where
  nodup : (s.settings.promiseName :: p.promiseNames s.bundle s.moduleName s.settings).Nodup
  imported : ∀ x ∈ s.settings.promiseName :: p.promiseNames s.bundle s.moduleName s.settings,
    x ∉ p.statements.flatMap Node.importedNames
  exported : ∀ x ∈ s.settings.promiseName :: p.promiseNames s.bundle s.moduleName s.settings,
    x ∉ (p.exportPairs text).map (·.1)
  binding : ∀ x ∈ s.settings.promiseName :: p.promiseNames s.bundle s.moduleName s.settings,
    x ∉ (p.exportPairs text).map (·.2)

/-- The transformed module exports what the module does, and its completion promise. -/
structure ExportsAsBefore (s : Surroundings) (text : String) (p q : Program) : Prop where
  names : q.statements.flatMap Parser.exportedNames =
    if p.exportPairs text ≠ [] ∨ s.isImported = true then
      (p.exportPairs text).map (·.1) ++ [s.settings.promiseName]
    else []
  nodup : (q.statements.flatMap Parser.exportedNames).Nodup
  /-- Whatever is exported is declared once. -/
  declared : ∀ n ∈ q.statements, ∀ specifiers, n.form = .exportNames specifiers none →
    ∀ x ∈ specifiers, (moduleScope q.statements).all.count x.binding.text = 1

section Layout

variable {name text : String} {p : Program} {s : Surroundings} {body : List Node}

/-- The parts of a module, by what stands in it. -/
structure Items.Reads (items : Items) (text : String) (p : Program) : Prop where
  imports : items.imports.map (·.2) = p.importDeclarations
  bindings : items.importBindings = p.statements.flatMap Node.importedNames
  exports : items.exports = p.exportPairs text

/-- In a module that is taken apart, every item has a place. -/
theorem Items.places_of_ofStatements (hp : Source.check name text = .ok p)
    (h : ofStatements name text p.statements = .ok items) :
    ∀ n ∈ p.statements, n.unsupported? name = none := by
  have hfailure : failure? (ofStatements name text p.statements) =
      p.statements.findSome? (Node.unsupported? name) :=
    Items.failure?_ofStatements (Source.isAccepted_of_check hp)
  rw [h] at hfailure
  exact List.findSome?_eq_none_iff.mp hfailure.symm

/-- What is taken apart has been read off the text. -/
theorem Items.reads_of_ofStatements (hp : Source.check name text = .ok p)
    (h : ofStatements name text p.statements = .ok items) : items.Reads text p := by
  have hparse := (Source.check_eq_ok hp).1
  have himports := (ofStatements_eq_ok h).1
  have hplaces := Items.places_of_ofStatements hp h
  refine ⟨himports, ?_, ?_⟩
  · rw [flatMap_importedNames, ← himports, List.flatMap_map]
    rfl
  · exact exports_eq_exportPairs (Program.isItem_of_parse hparse)
      (Program.nodup_exportPairs hparse _ hplaces) h

/-- The promises are those of the imports that lead to transformed chunks. -/
theorem Items.Reads.awaitedNames_eq (h : items.Reads text p) :
    awaitedNames s items = p.promiseNames s.bundle s.moduleName s.settings := by
  have hcount : (PromiseImports.awaited s.bundle s.moduleName items.imports).length =
      p.importDeclarations.countP (PromiseImports.isFromTransformed s.bundle s.moduleName) := by
    rw [← h.imports, List.countP_map, List.countP_eq_length_filter]
    rfl
  rw [awaitedNames, hcount, Program.promiseNames]

/-- The declared names are the exported ones that are not imported. -/
theorem Items.Reads.hoistedNames_eq (h : items.Reads text p) :
    hoistedNames items = p.exportedLocals text := by
  rw [hoistedNames, h.bindings, exportedBindings, h.exports, Program.exportedLocals]
  refine List.filter_congr fun x _ => ?_
  rw [decide_not, List.contains_eq_mem]

/-- A module that is put together again is laid out. -/
theorem laidOut_assemble (h : items.Reads text p) :
    LaidOut s text p { p with statements := assemble s items body } := by
  have himports : ∀ n ∈ (PromiseImports.thread s.bundle s.moduleName s.settings items.imports).1,
      n.importDeclaration?.isSome = true := by
    intro n hn
    obtain ⟨d, hd⟩ := PromiseImports.exists_importItem_of_mem_threadFrom hn
    rw [hd]
    rfl
  have hstatements := assemble_eq s items body
  rw [h.awaitedNames_eq, h.hoistedNames_eq, ending, h.exports] at hstatements
  split at hstatements
  · -- nothing is exported and nobody imports the module
    rename_i hsilent
    obtain ⟨hnone, himported⟩ := (Bool.and_eq_true ..).mp hsilent
    replace hnone := List.isEmpty_iff.mp hnone
    refine .silent _ (body.map (continueImports s.bundle s.moduleName s.settings.promiseName))
      hnone ((Bool.not_eq_true' ..).mp himported) himports ?_
    rw [Program.exportedLocals, hnone] at hstatements
    exact hstatements.trans (congrArg (· ++ _) (List.append_nil _))
  · -- there is something to export, if only the promise
    rename_i hasked
    refine .exporting _ (body.map (continueImports s.bundle s.moduleName s.settings.promiseName))
      ?_ himports hstatements
    rw [Bool.and_eq_true, List.isEmpty_iff, Bool.not_eq_true', not_and_or,
      Bool.not_eq_false] at hasked
    exact hasked

/-- The names that the transformation adds are among those that are apart. -/
theorem NamesApart.generatedNames (h : NamesApart s text p) (hreads : items.Reads text p) :
    (generatedNames s items).Nodup ∧ ∀ x ∈ generatedNames s items,
      x ∈ s.settings.promiseName :: p.promiseNames s.bundle s.moduleName s.settings := by
  have hnodup := h.nodup
  unfold Transform.generatedNames
  rw [hreads.awaitedNames_eq]
  split
  · rw [List.append_nil]
    exact ⟨(List.nodup_cons.mp hnodup).2, fun x hx => List.mem_cons_of_mem _ hx⟩
  · have hperm := List.perm_append_singleton s.settings.promiseName
      (p.promiseNames s.bundle s.moduleName s.settings)
    exact ⟨hperm.nodup_iff.mpr hnodup, fun x hx => hperm.mem_iff.mp hx⟩

/-- Names that are apart can stand beside each other at the top. -/
theorem NamesApart.consistent (h : NamesApart s text p) (hp : p.earlyErrors = [])
    (hreads : items.Reads text p) : (moduleScope (assemble s items body)).Consistent := by
  obtain ⟨hnodup, hmem⟩ := h.generatedNames hreads
  have himports : items.importBindings.Nodup := by
    rw [hreads.bindings]
    exact Program.nodup_importedNames hp
  refine (consistent_moduleScope_iff body himports hnodup).mpr fun x hx => ⟨?_, ?_⟩
  · rw [hreads.bindings]
    exact h.imported x (hmem x hx)
  · rw [exportedBindings, mem_distinct, hreads.exports]
    exact h.binding x (hmem x hx)

/-- With its names apart, nothing that the module exports is lost, and its promise is new. -/
theorem NamesApart.exportsAsBefore (h : NamesApart s text p) (hp : p.earlyErrors = [])
    (hnodup : ((p.exportPairs text).map (·.1)).Nodup) (hreads : items.Reads text p) :
    ExportsAsBefore s text p { p with statements := assemble s items body } := by
  have hpromise := h.exported _ (List.mem_cons_self ..)
  -- the clause leaves out what has the name of the promise, and nothing has
  have hentries : (exportEntries items.exports s.settings.promiseName).map (·.1) =
      (p.exportPairs text).map (·.1) ++ [s.settings.promiseName] := by
    -- no export has the name of the promise, so none is left out
    have hkept : (p.exportPairs text).filter (fun entry => entry.1 ≠ s.settings.promiseName) =
        p.exportPairs text := by
      refine List.filter_eq_self.mpr fun entry hentry => decide_eq_true fun heq => ?_
      exact hpromise (heq ▸ List.mem_map_of_mem (f := Prod.fst) hentry)
    rw [exportEntries, hreads.exports, hkept, List.map_append]
    rfl
  refine ⟨?_, ?_, fun n hn specifiers hform x hx => ?_⟩
  · show (assemble s items body).flatMap Parser.exportedNames = _
    rw [exportedNames_assemble, hentries, hreads.exports]
    cases hpairs : p.exportPairs text with
    | nil => cases himported : s.isImported <;> simp
    | cons pair pairs => simp
  · refine nodup_exportedNames_assemble ?_
    rw [hreads.exports]
    exact hnodup
  · have hdeclared : x.binding.text ∈ (moduleScope (assemble s items body)).single :=
      mem_moduleScope_of_exported hn hform hx
    exact ScopeNames.consistent_iff.mp (h.consistent hp hreads) _ hdeclared

/-- Every module that keeps the rules and exports values of its own only is transformed, and laid
out in this order: imports, declarations of what it exports, its promise, one export clause with
everything in source order. With its names apart, it exports what it exported before and its
promise, each once. -/
theorem program_laidOut (hp : Source.check name text = .ok p)
    (hplaces : ∀ n ∈ p.statements, n.unsupported? name = none) (bundle : Bundle)
    (settings : Settings) :
    ∃ q, program ⟨name, bundle, settings⟩ text p = .ok q ∧
      LaidOut ⟨name, bundle, settings⟩ text p q ∧
        (NamesApart ⟨name, bundle, settings⟩ text p →
          ExportsAsBefore ⟨name, bundle, settings⟩ text p q) := by
  obtain ⟨hparse, hrules⟩ := Source.check_eq_ok hp
  have hfailure := failure?_program ⟨name, bundle, settings⟩ text (Source.isAccepted_of_check hp)
  rw [List.findSome?_eq_none_iff.mpr hplaces] at hfailure
  obtain ⟨q, hq⟩ := exists_of_failure?_eq_none hfailure
  obtain ⟨items, body, hitems, -, rfl⟩ := program_eq_ok_iff.mp hq
  have hreads := Items.reads_of_ofStatements hp hitems
  have hnodup := Program.nodup_exportPairs hparse (NameChain.start text).next.1 hplaces
  exact ⟨_, hq, laidOut_assemble hreads, fun h => h.exportsAsBefore hrules hnodup hreads⟩

end Layout

/-- A module that exports nested names, an import, a name of another name and a default without a
name. -/
def exportsAll : String :=
  "import { z } from './b.js'; export const { a, b: [c] } = z; let d; " ++
    "export { z, d as e }; export default class {}"

/-- The chunk that it imports is transformed. -/
def importsTransformed : Surroundings :=
  ⟨"a.js", (Bundle.ofNames ["a.js", "b.js"]).mark 1, {}⟩

/-- A module with every form of an export that can be transformed. -/
theorem program_laidOut_exportsAll :
    ∃ p q, Source.check "a.js" exportsAll = .ok p ∧
      (p.exportPairs exportsAll).map (·.1) = ["a", "c", "z", "e", "default"] ∧
        p.promiseNames importsTransformed.bundle "a.js" {} = ["__tla_0"] ∧
          program importsTransformed exportsAll p = .ok q ∧
            LaidOut importsTransformed exportsAll p q ∧
              ExportsAsBefore importsTransformed exportsAll p q := by
  have hruns : ((Source.check "a.js" exportsAll).toOption.filter fun p =>
      (∀ n ∈ p.statements, n.unsupported? "a.js" = none) ∧
        (p.exportPairs exportsAll).map (·.1) = ["a", "c", "z", "e", "default"] ∧
          p.promiseNames importsTransformed.bundle "a.js" {} = ["__tla_0"] ∧
            ∀ x ∈ ["__tla", "__tla_0"], x ∉ p.statements.flatMap Node.importedNames ∧
              x ∉ (p.exportPairs exportsAll).map (·.2)).isSome = true := by
    decide +kernel
  obtain ⟨p, hruns⟩ := Option.isSome_iff_exists.mp hruns
  obtain ⟨hp, hfacts⟩ := Option.filter_eq_some_iff.mp hruns
  obtain ⟨hplaces, hpairs, hnames, hapart⟩ := of_decide_eq_true hfacts
  replace hp := eq_ok_of_toOption hp
  obtain ⟨q, hq, hlaid, hexports⟩ := program_laidOut hp hplaces importsTransformed.bundle
    importsTransformed.settings
  refine ⟨p, q, hp, hpairs, hnames, hq, hlaid, hexports ⟨?_, ?_, ?_, ?_⟩⟩
  · show ("__tla" :: p.promiseNames importsTransformed.bundle "a.js" {}).Nodup
    rw [hnames]
    decide
  · show ∀ x ∈ "__tla" :: p.promiseNames importsTransformed.bundle "a.js" {}, _
    rw [hnames]
    exact fun x hx => (hapart x hx).1
  · show ∀ x ∈ "__tla" :: p.promiseNames importsTransformed.bundle "a.js" {}, _
    rw [hnames, hpairs]
    decide
  · show ∀ x ∈ "__tla" :: p.promiseNames importsTransformed.bundle "a.js" {}, _
    rw [hnames]
    exact fun x hx => (hapart x hx).2

/-- A module whose default export is no value. -/
def defaultInterface : String := "export default interface A \x7b\x7d"

/-- It keeps the rules and exports nothing again, and yet it cannot be transformed. -/
theorem exports_declaredTypes :
    ∃ p, Source.check "a.js" defaultInterface = .ok p ∧
      (∀ n ∈ p.statements, n.reExported? = none) ∧
        failure? (program ⟨"a.js", .empty, {}⟩ defaultInterface p) =
          some ⟨"a.js", .defaultExport, "TSInterfaceDeclaration"⟩ := by
  have hruns : ((Source.check "a.js" defaultInterface).toOption.filter fun p =>
      (∀ n ∈ p.statements, n.reExported? = none) ∧
        failure? (program ⟨"a.js", .empty, {}⟩ defaultInterface p) =
          some ⟨"a.js", .defaultExport, "TSInterfaceDeclaration"⟩).isSome = true := by
    decide +kernel
  obtain ⟨p, hruns⟩ := Option.isSome_iff_exists.mp hruns
  obtain ⟨hp, hfails⟩ := Option.filter_eq_some_iff.mp hruns
  exact ⟨p, eq_ok_of_toOption hp, of_decide_eq_true hfails⟩

end Transform

end Awaitless
