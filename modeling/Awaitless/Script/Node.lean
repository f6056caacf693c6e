import Awaitless.Decimal.Binary64
import Awaitless.Script.Operator
import Awaitless.Text.Units

/-!
# Syntax trees

A syntax tree has one sort of node: a `Node` is a `Form` over nodes, with the place in the source
where it stands. `Form α` holds its parts as values of `α`, so that whatever treats all parts of a
form alike is said once.

* `Form`, `Form.parts`, `Form.map` — the shapes of the language.
* `Node`, `Node.fold` — trees, and the recursion over them.
-/

namespace Awaitless.Script

open Decimal Text

/-- Where a node stands in the source, counted in characters; nodes that a transformation makes
stand nowhere. -/
structure Span where
  start : Nat
  stop : Nat
deriving Repr, DecidableEq, Inhabited

def Span.nowhere : Span := ⟨0, 0⟩

/-! ## Data inside of forms -/

/-- What is wrong with a literal in strict code. -/
inductive LiteralFlaw where
  | sound
  /-- A number that starts with `0` and has octal digits only, or an escape by octal digits. -/
  | octal
  /-- A number that starts with `0` and has a digit that is not octal. -/
  | leadingZero
  /-- `\8` or `\9`. -/
  | decimalEscape
deriving Repr, DecidableEq, Inhabited

/-- How a function is written, apart from its parts. -/
structure FunctionTraits where
  isAsync : Bool := false
  isGenerator : Bool := false
  /-- Written in parentheses, which it keeps wherever it goes. -/
  wrapped : Bool := false
  /-- Marked as free of side effects. -/
  pure : Bool := false
  /-- Declared without a body. -/
  declared : Bool := false
  /-- The text of the type of its result. -/
  resultType : Option String := none
deriving Repr, DecidableEq, Inhabited

/-- The kinds of members that hold a function. -/
inductive MethodKind where
  | plain
  | getter
  | setter
  | constructor
deriving Repr, DecidableEq, Inhabited

/-- Who may use a member of a class. -/
inductive Access where
  | «public»
  | «private»
  | «protected»
deriving Repr, DecidableEq, Inhabited

def Access.text : Access → String
  | .public => "public"
  | .private => "private"
  | .protected => "protected"

/-- What the mark behind the key of a member says about it. -/
inductive Presence where
  | certain
  /-- `?` -/
  | optional
  /-- `!` -/
  | definite
deriving Repr, DecidableEq, Inhabited

def Presence.text : Presence → String
  | .certain => ""
  | .optional => "?"
  | .definite => "!"

/-- How a member of a class is written, apart from its parts. -/
structure MemberTraits where
  isStatic : Bool := false
  isAccessor : Bool := false
  access : Option Access := none
  isAbstract : Bool := false
  declared : Bool := false
  overrides : Bool := false
  isReadonly : Bool := false
  presence : Presence := .certain
  /-- The text of the type of a field. -/
  type : Option String := none
deriving Repr, DecidableEq, Inhabited

/-- What stands around the name or pattern of a parameter. -/
structure ParameterTraits where
  access : Option Access := none
  overrides : Bool := false
  isReadonly : Bool := false
  isOptional : Bool := false
  /-- The text of the type. -/
  type : Option String := none
deriving Repr, DecidableEq, Inhabited

/-- How a class is written, apart from its parts. -/
structure ClassTraits where
  isAbstract : Bool := false
  /-- Declared without a value. -/
  declared : Bool := false
  /-- The text of the type parameters. -/
  typeParameters : Option String := none
  /-- The texts of the type arguments of what the class extends. -/
  typeArguments : List String := []
  /-- The texts of the types that the class implements. -/
  implemented : List String := []
deriving Repr, DecidableEq, Inhabited

/-- Whether a pattern binds names or assigns to them. -/
inductive PatternRole where
  | binding
  | target
deriving Repr, DecidableEq, Inhabited

/-- The keywords that open a declaration of variables. -/
inductive DeclarationKind where
  | var
  | lexical
  | constant
  /-- `using` -/
  | resource
  /-- `await using` -/
  | awaitedResource
deriving Repr, DecidableEq, Inhabited

/-- `import defer` and `import source`. -/
inductive ImportPhase where
  | deferred
  | source
deriving Repr, DecidableEq, Inhabited

/-- A string in a module item, and what is wrong with the way in which it is written. -/
structure StringText where
  value : Units
  flaw : LiteralFlaw := .sound
deriving Repr, DecidableEq, Inhabited

/-- The string as ordinary text. -/
def StringText.toString (s : StringText) : String := s.value.toString

/-- A name of a binding as it is seen from outside of the module. -/
inductive ModuleName where
  | word (name : String)
  | quoted (text : StringText)
deriving Repr, DecidableEq, Inhabited

def ModuleName.text : ModuleName → String
  | .word name => name
  | .quoted text => text.toString

/-- One entry of an import declaration. -/
inductive ImportSpecifier where
  | whole (binding : String)
  | default (binding : String)
  | named (imported : ModuleName) (binding : String)
deriving Repr, DecidableEq, Inhabited

/-- The name that the entry binds. -/
def ImportSpecifier.binding : ImportSpecifier → String
  | .whole b | .default b | .named _ b => b

/-- The attributes behind a module name. -/
structure ImportAttributes where
  /-- The keyword: `assert` instead of `with`. -/
  asserted : Bool
  entries : List (ModuleName × StringText)
deriving Repr, DecidableEq, Inhabited

/-- The module that an item takes names from. -/
structure ModuleSource where
  name : StringText
  attributes : Option ImportAttributes := none
deriving Repr, DecidableEq, Inhabited

/-- An import declaration; `specifiers` is `none` when there is no clause at all. -/
structure ImportDeclaration where
  phase : Option ImportPhase
  specifiers : Option (List ImportSpecifier)
  source : ModuleSource
deriving Repr, DecidableEq, Inhabited

/-- The names that a declaration binds. -/
def ImportDeclaration.bindings (d : ImportDeclaration) : List String :=
  (d.specifiers.getD []).map (·.binding)

/-- One entry of an export clause. -/
structure ExportSpecifier where
  /-- Where the name of the binding starts. -/
  start : Nat
  binding : ModuleName
  /-- Where the exported name starts. -/
  exportedStart : Nat
  exported : ModuleName
deriving Repr, DecidableEq, Inhabited

/-- A string at the start of a body that stands for a mode, as it was written. -/
structure Directive where
  span : Span
  raw : String
  value : Units
  flaw : LiteralFlaw
deriving Repr, DecidableEq, Inhabited

/-! ## Forms -/

/-- The shapes of expressions, patterns, statements and module items, over their parts. -/
inductive Form (α : Type) where
  -- names and literals
  | identifier (name : String)
  | privateName (name : String)
  | thisValue
  | superValue
  | hole
  | nullLiteral
  | booleanLiteral (value : Bool)
  | numberLiteral (value : Binary64) (flaw : LiteralFlaw)
  | bigintLiteral (value : Nat)
  | stringLiteral (value : Units) (flaw : LiteralFlaw)
  | regexLiteral (pattern flags : String)
  | template (texts : List String) (values : List α)
  -- values that hold parts
  | array (elements : List α)
  | object (members : List α)
  | property (key value : α) (computed shorthand : Bool)
  | method (kind : MethodKind) (key value : α) (computed : Bool)
  | spread (value : α)
  | function (traits : FunctionTraits) (name : Option α) (parameters : List α) (body : Option α)
  | arrow (traits : FunctionTraits) (parameters : List α) (body : α)
  | body (directives : List Directive) (statements : List α)
  | classLike (traits : ClassTraits) (decorators : List α) (name heritage : Option α)
      (members : List α)
  | classMethod (kind : MethodKind) (traits : MemberTraits) (decorators : List α) (key value : α)
      (computed : Bool)
  | classField (traits : MemberTraits) (decorators : List α) (key : α) (value : Option α)
      (computed : Bool)
  | staticBlock (statements : List α)
  -- operators
  | unary (op : UnaryOperator) (operand : α)
  | update (op : UpdateOperator) (before : Bool) (operand : α)
  | binary (op : BinaryOperator) (left right : α)
  | assign (op : AssignmentOperator) (target value : α)
  | conditional (test yes no : α)
  | sequence (values : List α)
  | yieldValue (delegates : Bool) (value : Option α)
  | awaitValue (value : α)
  | parenthesized (value : α)
  -- access and calls
  | member (object : α) (name : String) (isOptional : Bool)
  | privateMember (object : α) (name : String) (isOptional : Bool)
  | index (object key : α) (isOptional : Bool)
  | call (callee : α) (arguments : List α) (isOptional pure : Bool)
  | construct (callee : α) (arguments : List α) (pure : Bool)
  | chain (value : α)
  | tagged (tag text : α)
  | dynamicImport (phase : Option ImportPhase) (source : α) (options : Option α)
  | importMeta
  | newTarget
  -- patterns
  | objectPattern (role : PatternRole) (members : List α)
  | arrayPattern (role : PatternRole) (elements : List α)
  | patternProperty (key value : α) (computed shorthand : Bool)
  | defaulted (target value : α)
  | rest (target : α)
  /-- A parameter with the words of its type. -/
  | annotated (traits : ParameterTraits) (target : α)
  -- statements
  | block (statements : List α)
  | empty
  | expression (value : α)
  | choice (test yes : α) (no : Option α)
  | forLoop (start test step : Option α) (body : α)
  | forIn (head object body : α)
  | forOf (awaits : Bool) (head values body : α)
  | whileLoop (test body : α)
  | doLoop (body test : α)
  | continues (label : Option String)
  | breaks (label : Option String)
  | returns (value : Option α)
  | throws (value : α)
  | guarded (block : α) (handler cleanup : Option α)
  | handler (parameter : Option α) (body : α)
  | switch (subject : α) (cases : List α)
  | switchCase (test : Option α) (statements : List α)
  | labeled (label : String) (statement : α)
  | debugger
  | within (object body : α)
  | bindings (kind : DeclarationKind) (declarators : List α)
  | declarator (target : α) (value : Option α)
  -- module items
  | importItem (declaration : ImportDeclaration)
  | exportDeclaration (declaration : α)
  | exportNames (specifiers : List ExportSpecifier) (source : Option ModuleSource)
  | exportDefault (value : α)
  | exportAll (exported : Option ModuleName) (source : ModuleSource)
  | exportAssignment (value : α)
  | exportNamespace (name : String)
  /-- Declares a type; nothing but its text is kept. -/
  | typeDeclaration (text : String)
deriving Inhabited

namespace Form

/-- The parts of a form, in the order in which they are written. -/
def parts : Form α → List α
  | identifier _ | privateName _ | thisValue | superValue | hole | nullLiteral
  | booleanLiteral _ | numberLiteral _ _ | bigintLiteral _ | stringLiteral _ _
  | regexLiteral _ _ | importMeta | newTarget | empty | continues _ | breaks _ | debugger
  | importItem _ | exportNames _ _ | exportAll _ _ | exportNamespace _ | typeDeclaration _ => []
  | template _ xs | array xs | object xs | body _ xs | staticBlock xs | sequence xs
  | objectPattern _ xs | arrayPattern _ xs | block xs | bindings _ xs => xs
  | property k v _ _ | method _ k v _ | patternProperty k v _ _ => [k, v]
  | spread x | unary _ x | update _ _ x | awaitValue x | parenthesized x | member x _ _
  | privateMember x _ _ | chain x | rest x | annotated _ x | expression x | throws x | labeled _ x
  | exportDeclaration x | exportDefault x | exportAssignment x => [x]
  | function _ n ps b => n.toList ++ ps ++ b.toList
  | arrow _ ps b => ps ++ [b]
  | classLike _ ds n h ms => ds ++ n.toList ++ h.toList ++ ms
  | classMethod _ _ ds k v _ => ds ++ [k, v]
  | classField _ ds k v _ => ds ++ k :: v.toList
  | binary _ l r | assign _ l r | index l r _ | tagged l r | defaulted l r | whileLoop l r
  | doLoop l r | within l r => [l, r]
  | conditional a b c | forIn a b c | forOf _ a b c => [a, b, c]
  | yieldValue _ x | returns x => x.toList
  | call c xs _ _ | construct c xs _ | switch c xs => c :: xs
  | dynamicImport _ s o => s :: o.toList
  | choice a b c => a :: b :: c.toList
  | forLoop a b c d => a.toList ++ b.toList ++ c.toList ++ [d]
  | guarded b h c => b :: (h.toList ++ c.toList)
  | handler p b => p.toList ++ [b]
  | switchCase t xs => t.toList ++ xs
  | declarator t v => t :: v.toList

/-- Whether a form is the given name. -/
def isNamed (form : Form α) (name : String) : Bool :=
  match form with
  | identifier n => n == name
  | _ => false

/-- The same form over other parts. -/
def map (f : α → β) : Form α → Form β
  | identifier name => identifier name
  | privateName name => privateName name
  | thisValue => thisValue
  | superValue => superValue
  | hole => hole
  | nullLiteral => nullLiteral
  | booleanLiteral v => booleanLiteral v
  | numberLiteral v flaw => numberLiteral v flaw
  | bigintLiteral v => bigintLiteral v
  | stringLiteral v flaw => stringLiteral v flaw
  | regexLiteral p fs => regexLiteral p fs
  | template ts xs => template ts (xs.map f)
  | array xs => array (xs.map f)
  | object xs => object (xs.map f)
  | property k v c s => property (f k) (f v) c s
  | method kind k v c => method kind (f k) (f v) c
  | spread x => spread (f x)
  | function t n ps b => function t (n.map f) (ps.map f) (b.map f)
  | arrow t ps b => arrow t (ps.map f) (f b)
  | body ds xs => body ds (xs.map f)
  | classLike t ds n h ms => classLike t (ds.map f) (n.map f) (h.map f) (ms.map f)
  | classMethod kind t ds k v c => classMethod kind t (ds.map f) (f k) (f v) c
  | classField t ds k v c => classField t (ds.map f) (f k) (v.map f) c
  | staticBlock xs => staticBlock (xs.map f)
  | unary op x => unary op (f x)
  | update op b x => update op b (f x)
  | binary op l r => binary op (f l) (f r)
  | assign op t v => assign op (f t) (f v)
  | conditional a b c => conditional (f a) (f b) (f c)
  | sequence xs => sequence (xs.map f)
  | yieldValue d x => yieldValue d (x.map f)
  | awaitValue x => awaitValue (f x)
  | parenthesized x => parenthesized (f x)
  | member o n q => member (f o) n q
  | privateMember o n q => privateMember (f o) n q
  | index o k q => index (f o) (f k) q
  | call c xs q p => call (f c) (xs.map f) q p
  | construct c xs p => construct (f c) (xs.map f) p
  | chain x => chain (f x)
  | tagged t q => tagged (f t) (f q)
  | dynamicImport ph s o => dynamicImport ph (f s) (o.map f)
  | importMeta => importMeta
  | newTarget => newTarget
  | objectPattern r xs => objectPattern r (xs.map f)
  | arrayPattern r xs => arrayPattern r (xs.map f)
  | patternProperty k v c s => patternProperty (f k) (f v) c s
  | defaulted t v => defaulted (f t) (f v)
  | rest t => rest (f t)
  | annotated p t => annotated p (f t)
  | block xs => block (xs.map f)
  | empty => empty
  | expression x => expression (f x)
  | choice a b c => choice (f a) (f b) (c.map f)
  | forLoop a b c d => forLoop (a.map f) (b.map f) (c.map f) (f d)
  | forIn a b c => forIn (f a) (f b) (f c)
  | forOf w a b c => forOf w (f a) (f b) (f c)
  | whileLoop t b => whileLoop (f t) (f b)
  | doLoop b t => doLoop (f b) (f t)
  | continues l => continues l
  | breaks l => breaks l
  | returns x => returns (x.map f)
  | throws x => throws (f x)
  | guarded b h c => guarded (f b) (h.map f) (c.map f)
  | handler p b => handler (p.map f) (f b)
  | switch s cs => switch (f s) (cs.map f)
  | switchCase t xs => switchCase (t.map f) (xs.map f)
  | labeled l x => labeled l (f x)
  | debugger => debugger
  | within o b => within (f o) (f b)
  | bindings k xs => bindings k (xs.map f)
  | declarator t v => declarator (f t) (v.map f)
  | importItem d => importItem d
  | exportDeclaration x => exportDeclaration (f x)
  | exportNames ss s => exportNames ss s
  | exportDefault x => exportDefault (f x)
  | exportAll e s => exportAll e s
  | exportAssignment x => exportAssignment (f x)
  | exportNamespace n => exportNamespace n
  | typeDeclaration text => typeDeclaration text

end Form

/-! ## Trees -/

/-- A syntax tree. -/
inductive Node where
  | mk (span : Span) (form : Form Node)

namespace Node

instance : Inhabited Node := ⟨.mk .nowhere .empty⟩

def span : Node → Span
  | mk s _ => s

def form : Node → Form Node
  | mk _ f => f

/-- A node that a transformation makes. -/
def made (form : Form Node) : Node := mk .nowhere form

@[simp] theorem form_mk (s : Span) (f : Form Node) : (mk s f).form = f := rfl

/-- An expression without the parentheses around it. -/
def bare : Node → Node
  | mk _ (.parenthesized x) => bare x
  | n => n

/-- The name that an expression is, if it is one. -/
def name? (n : Node) : Option String :=
  match n.bare.form with
  | .identifier name => some name
  | _ => none

/-! ## Recursion over trees -/

mutual

/-- Computes a value for every tree from the values of its parts. -/
def fold (alg : Span → Form β → β) : Node → β
  | mk span form => alg span (foldForm alg form)

/-- Replaces the parts of a form by their values. -/
def foldForm (alg : Span → Form β → β) : Form Node → Form β
  | .identifier name => .identifier name
  | .privateName name => .privateName name
  | .thisValue => .thisValue
  | .superValue => .superValue
  | .hole => .hole
  | .nullLiteral => .nullLiteral
  | .booleanLiteral v => .booleanLiteral v
  | .numberLiteral v flaw => .numberLiteral v flaw
  | .bigintLiteral v => .bigintLiteral v
  | .stringLiteral v flaw => .stringLiteral v flaw
  | .regexLiteral p fs => .regexLiteral p fs
  | .template ts xs => .template ts (foldList alg xs)
  | .array xs => .array (foldList alg xs)
  | .object xs => .object (foldList alg xs)
  | .property k v c s => .property (fold alg k) (fold alg v) c s
  | .method kind k v c => .method kind (fold alg k) (fold alg v) c
  | .spread x => .spread (fold alg x)
  | .function t n ps b => .function t (foldOption alg n) (foldList alg ps) (foldOption alg b)
  | .arrow t ps b => .arrow t (foldList alg ps) (fold alg b)
  | .body ds xs => .body ds (foldList alg xs)
  | .classLike t ds n h ms =>
    .classLike t (foldList alg ds) (foldOption alg n) (foldOption alg h) (foldList alg ms)
  | .classMethod kind t ds k v c =>
    .classMethod kind t (foldList alg ds) (fold alg k) (fold alg v) c
  | .classField t ds k v c => .classField t (foldList alg ds) (fold alg k) (foldOption alg v) c
  | .staticBlock xs => .staticBlock (foldList alg xs)
  | .unary op x => .unary op (fold alg x)
  | .update op b x => .update op b (fold alg x)
  | .binary op l r => .binary op (fold alg l) (fold alg r)
  | .assign op t v => .assign op (fold alg t) (fold alg v)
  | .conditional a b c => .conditional (fold alg a) (fold alg b) (fold alg c)
  | .sequence xs => .sequence (foldList alg xs)
  | .yieldValue d x => .yieldValue d (foldOption alg x)
  | .awaitValue x => .awaitValue (fold alg x)
  | .parenthesized x => .parenthesized (fold alg x)
  | .member o n q => .member (fold alg o) n q
  | .privateMember o n q => .privateMember (fold alg o) n q
  | .index o k q => .index (fold alg o) (fold alg k) q
  | .call c xs q p => .call (fold alg c) (foldList alg xs) q p
  | .construct c xs p => .construct (fold alg c) (foldList alg xs) p
  | .chain x => .chain (fold alg x)
  | .tagged t q => .tagged (fold alg t) (fold alg q)
  | .dynamicImport ph s o => .dynamicImport ph (fold alg s) (foldOption alg o)
  | .importMeta => .importMeta
  | .newTarget => .newTarget
  | .objectPattern r xs => .objectPattern r (foldList alg xs)
  | .arrayPattern r xs => .arrayPattern r (foldList alg xs)
  | .patternProperty k v c s => .patternProperty (fold alg k) (fold alg v) c s
  | .defaulted t v => .defaulted (fold alg t) (fold alg v)
  | .rest t => .rest (fold alg t)
  | .annotated p t => .annotated p (fold alg t)
  | .block xs => .block (foldList alg xs)
  | .empty => .empty
  | .expression x => .expression (fold alg x)
  | .choice a b c => .choice (fold alg a) (fold alg b) (foldOption alg c)
  | .forLoop a b c d =>
    .forLoop (foldOption alg a) (foldOption alg b) (foldOption alg c) (fold alg d)
  | .forIn a b c => .forIn (fold alg a) (fold alg b) (fold alg c)
  | .forOf w a b c => .forOf w (fold alg a) (fold alg b) (fold alg c)
  | .whileLoop t b => .whileLoop (fold alg t) (fold alg b)
  | .doLoop b t => .doLoop (fold alg b) (fold alg t)
  | .continues l => .continues l
  | .breaks l => .breaks l
  | .returns x => .returns (foldOption alg x)
  | .throws x => .throws (fold alg x)
  | .guarded b h c => .guarded (fold alg b) (foldOption alg h) (foldOption alg c)
  | .handler p b => .handler (foldOption alg p) (fold alg b)
  | .switch s cs => .switch (fold alg s) (foldList alg cs)
  | .switchCase t xs => .switchCase (foldOption alg t) (foldList alg xs)
  | .labeled l x => .labeled l (fold alg x)
  | .debugger => .debugger
  | .within o b => .within (fold alg o) (fold alg b)
  | .bindings k xs => .bindings k (foldList alg xs)
  | .declarator t v => .declarator (fold alg t) (foldOption alg v)
  | .importItem d => .importItem d
  | .exportDeclaration x => .exportDeclaration (fold alg x)
  | .exportNames ss s => .exportNames ss s
  | .exportDefault x => .exportDefault (fold alg x)
  | .exportAll e s => .exportAll e s
  | .exportAssignment x => .exportAssignment (fold alg x)
  | .exportNamespace n => .exportNamespace n
  | .typeDeclaration text => .typeDeclaration text

def foldList (alg : Span → Form β → β) : List Node → List β
  | [] => []
  | x :: xs => fold alg x :: foldList alg xs

def foldOption (alg : Span → Form β → β) : Option Node → Option β
  | none => none
  | some x => some (fold alg x)

end

/-- Computes a value for every tree from its parts and from their values. -/
def para (alg : Span → Form (Node × β) → β) (n : Node) : β :=
  (fold (fun span form => (mk span (form.map (·.1)), alg span form)) n).2

/-- Replaces every subtree, the innermost first. -/
def bottomUp (f : Node → Node) : Node → Node :=
  fold fun span form => f (mk span form)

/-- The sum of some numbers. -/
def total : List Nat → Nat
  | [] => 0
  | n :: ns => n + total ns

/-- The number of nodes of a tree. -/
def size : Node → Nat :=
  fold fun _ form => total form.parts + 1

end Node

end Awaitless.Script
