import Awaitless.Script.Node

/-!
# Items of a module

The grammar shows in the tree: a pattern has a value, an import has a clause of one of a few forms,
and an exported function has a name. A tree as such knows nothing of this, and the transformation
would have to fail, or to invent something, at trees that no text has. What it relies on is
collected here in one predicate on items, which the parser establishes for every text that it
accepts and which the proofs about the transformation use instead of the parser.

* `Node.IsPattern`, `Node.IsWholePattern` — the patterns of declarations and their pieces.
* `Node.IsDeclarator`, `Node.declarators` — the declarators of a declaration of variables.
* `ImportDeclaration.HasClause` — which entries an import declaration may have.
* `Node.IsExported` — what may stand behind `export`.
* `Node.IsItem` — what this says about one item.
-/

namespace Awaitless.Script

/-- Whether a form is a pattern with a default. -/
def Form.hasDefault : Form α → Bool
  | defaulted _ _ => true
  | _ => false

/-- A pattern of a declaration, or a piece of one. Defaults follow patterns that are elements of a
list or values of members; a member that is written as its name alone repeats its key. -/
inductive Node.IsPattern : Node → Prop
  | name {n : Node} {text : String} : n.form = .identifier text → IsPattern n
  | hole {n : Node} : n.form = .hole → IsPattern n
  | object {n : Node} {members : List Node} :
    n.form = .objectPattern .binding members → (∀ m ∈ members, IsPattern m) →
    (∀ m ∈ members, m.form.hasDefault = false) → IsPattern n
  | array {n : Node} {elements : List Node} :
    n.form = .arrayPattern .binding elements → (∀ e ∈ elements, IsPattern e) → IsPattern n
  | property {n key value : Node} {computed : Bool} :
    n.form = .patternProperty key value computed false → IsPattern value → IsPattern n
  | shorthand {n key value : Node} {text : String} :
    n.form = .patternProperty key value false true → key.form = .identifier text →
    (value = key ∨ ∃ default, value.form = .defaulted key default) → IsPattern n
  | defaulted {n target value : Node} :
    n.form = .defaulted target value → IsPattern target → target.form.hasDefault = false →
    IsPattern n
  | rest {n target : Node} :
    n.form = .rest target → IsPattern target → target.form.hasDefault = false → IsPattern n

/-- A pattern that is no piece of another one: it has no default. -/
structure Node.IsWholePattern (n : Node) : Prop where
  isPattern : n.IsPattern
  whole : n.form.hasDefault = false

/-- A declarator, which gives a value unless it has a plain name. -/
def Node.IsDeclarator (n : Node) : Prop :=
  ∃ target value, n.form = .declarator target value ∧ target.IsWholePattern ∧
    (value = none → ∃ name, target.form = .identifier name)

/-- The declarators of a declaration of variables. -/
def Node.declarators (n : Node) : List Node :=
  match n.form with
  | .bindings _ ds => ds
  | _ => []

/-- The entries are those of an import clause: at most one default in front, and then the whole
module or names. With a phase, there is just one entry, of the kind that the phase takes. -/
def ImportDeclaration.HasClause (d : ImportDeclaration) : Prop :=
  match d.phase with
  | none =>
    ∃ first rest, d.specifiers.getD [] = first ++ rest ∧
      (first = [] ∨ ∃ name, first = [.default name]) ∧
      ((∃ name, rest = [.whole name]) ∨ ∀ x ∈ rest, ∃ imported name, x = .named imported name)
  | some .source => ∃ name, d.specifiers = some [.default name]
  | some .deferred => ∃ name, d.specifiers = some [.whole name]

/-- A declaration behind `export`: variables, a function with a name, or a class. Whether a class
has a name is no matter of the grammar. -/
inductive Node.IsExported (n : Node) : Prop
  | bindings {kind : DeclarationKind} {ds : List Node} :
    n.form = .bindings kind ds → (∀ d ∈ ds, d.IsDeclarator) → IsExported n
  | function {traits : FunctionTraits} {name : Node} {parameters : List Node} {body : Option Node}
    {text : String} :
    n.form = .function traits (some name) parameters body → name.form = .identifier text →
    IsExported n
  | classLike {traits : ClassTraits} {decorators : List Node} {name heritage : Option Node}
    {members : List Node} :
    n.form = .classLike traits decorators name heritage members →
    (∀ x ∈ name, ∃ text, x.form = .identifier text) → IsExported n

/-- The exports that only typed dialects have. -/
def Form.isTypedExport : Form α → Bool
  | exportAssignment _ | exportNamespace _ => true
  | _ => false

/-- An item of a module, as the grammar has it. -/
structure Node.IsItem (n : Node) : Prop where
  declarators : ∀ d ∈ n.declarators, d.IsDeclarator
  exported : ∀ x, n.form = .exportDeclaration x → x.IsExported
  clause : ∀ d, n.form = .importItem d → d.HasClause
  untyped : n.form.isTypedExport = false

/-- Whether the grammar restricts the items of a form: declarations of variables, exported
declarations, imports, and what only typed dialects have. -/
def Form.isConstrained : Form α → Bool
  | bindings _ _ | exportDeclaration _ | importItem _ | exportAssignment _ | exportNamespace _ =>
    true
  | _ => false

namespace Node

variable {n x : Node}

/-- Only a declaration of variables has declarators. -/
theorem declarators_of_form (h : n.form.isConstrained = false) : n.declarators = [] := by
  unfold declarators
  split
  · rename_i hform
    rw [hform] at h
    cases h
  · rfl

/-- A pattern has its shape with a default behind it, too. -/
theorem IsWholePattern.isPattern_of_withDefault (h : x.IsWholePattern)
    (hn : n = x ∨ ∃ default, n.form = .defaulted x default) : n.IsPattern := by
  rcases hn with rfl | ⟨default, hn⟩
  · exact h.isPattern
  · exact .defaulted hn h.isPattern h.whole

/-- Exported variables are declared as the grammar has it. -/
theorem IsExported.declarators (h : n.IsExported) : ∀ d ∈ n.declarators, d.IsDeclarator := by
  cases h with
  | bindings hform hds =>
    rw [Node.declarators, hform]
    exact hds
  | function hform _ =>
    rw [Node.declarators, hform]
    exact nofun
  | classLike hform _ =>
    rw [Node.declarators, hform]
    exact nofun

/-- Of most forms nothing is asked. -/
theorem IsItem.of_form (h : n.form.isConstrained = false) : n.IsItem := by
  refine ⟨?_, fun x hx => ?_, fun d hd => ?_, ?_⟩
  · rw [declarators_of_form h]
    exact nofun
  · rw [hx] at h
    cases h
  · rw [hd] at h
    cases h
  · obtain ⟨span, form⟩ := n
    cases form with
    | exportAssignment _ => cases h
    | exportNamespace _ => cases h
    | _ => rfl

/-- Of a declaration, its declarators are asked. -/
theorem IsItem.of_bindings {kind : DeclarationKind} {ds : List Node}
    (hform : n.form = .bindings kind ds) (h : ∀ d ∈ ds, d.IsDeclarator) : n.IsItem := by
  obtain ⟨span, form⟩ := n
  obtain rfl : form = .bindings kind ds := hform
  exact ⟨h, nofun, nofun, rfl⟩

theorem IsItem.of_exportDeclaration (hform : n.form = .exportDeclaration x) (h : x.IsExported) :
    n.IsItem := by
  obtain ⟨span, form⟩ := n
  obtain rfl : form = .exportDeclaration x := hform
  exact ⟨nofun, fun y hy => Form.exportDeclaration.inj hy ▸ h, nofun, rfl⟩

theorem IsItem.of_importItem {d : ImportDeclaration} (hform : n.form = .importItem d)
    (h : d.HasClause) : n.IsItem := by
  obtain ⟨span, form⟩ := n
  obtain rfl : form = .importItem d := hform
  exact ⟨nofun, nofun, fun d' hd => Form.importItem.inj hd ▸ h, rfl⟩

end Node

end Awaitless.Script
