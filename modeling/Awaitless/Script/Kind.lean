import Awaitless.Script.Node

/-!
# Kinds of module items

* `ItemKind`, `Node.itemKind` — the sort of a statement at the top of a module, as reports name it.
-/

namespace Awaitless.Script

/-- The sort of a statement at the top of a module. -/
inductive ItemKind where
  | importDeclaration
  | namedExport
  | defaultExport
  | exportAll
  | exportAssignment
  | namespaceExport
  | bindings
  | function
  | classLike
  | expression
  | other
deriving Repr, DecidableEq, Inhabited

/-- The name of the kind in a report. -/
def ItemKind.text : ItemKind → String
  | .importDeclaration => "ImportDeclaration"
  | .namedExport => "ExportNamedDeclaration"
  | .defaultExport => "ExportDefaultDeclaration"
  | .exportAll => "ExportAllDeclaration"
  | .exportAssignment => "TSExportAssignment"
  | .namespaceExport => "TSNamespaceExportDeclaration"
  | .bindings => "VariableDeclaration"
  | .function => "FunctionDeclaration"
  | .classLike => "ClassDeclaration"
  | .expression => "ExpressionStatement"
  | .other => "Statement"

/-- The sort of a statement. -/
def Node.itemKind (n : Node) : ItemKind :=
  match n.form with
  | .importItem _ => .importDeclaration
  | .exportDeclaration _ | .exportNames _ _ => .namedExport
  | .exportDefault _ => .defaultExport
  | .exportAll _ _ => .exportAll
  | .exportAssignment _ => .exportAssignment
  | .exportNamespace _ => .namespaceExport
  | .bindings _ _ => .bindings
  | .function _ _ _ _ => .function
  | .classLike _ _ _ _ _ => .classLike
  | .expression _ => .expression
  | _ => .other

end Awaitless.Script
