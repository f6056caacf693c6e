/-!
# What makes a module wait

* `Blocking` — the constructs that make a module asynchronous, by severity.
* `Blocking.highest` — the most severe of several findings.
-/

namespace Awaitless

/-- A construct that makes a module asynchronous. -/
inductive Blocking where
  /-- A call to `import()` at any depth. -/
  | dynamicImport
  /-- `await`, `for await` or `await using`, evaluated while the module body runs. -/
  | topLevelAwait
deriving Repr, DecidableEq, Inhabited

namespace Blocking

/-- The name of the finding in records. -/
def name : Blocking → String
  | .dynamicImport => "DynamicImport"
  | .topLevelAwait => "TopLevelAwait"

/-- The finding with the given name. -/
def ofName? : String → Option Blocking
  | "DynamicImport" => some .dynamicImport
  | "TopLevelAwait" => some .topLevelAwait
  | _ => none

/-- The finding in running text. -/
def label : Blocking → String
  | .dynamicImport => "dynamic-import"
  | .topLevelAwait => "top-level-await"

/-- The more severe of two findings. -/
def worse : Option Blocking → Option Blocking → Option Blocking
  | some .topLevelAwait, _ => some .topLevelAwait
  | _, some .topLevelAwait => some .topLevelAwait
  | some .dynamicImport, _ => some .dynamicImport
  | none, b => b

/-- The most severe of several findings. -/
def highest (findings : List (Option Blocking)) : Option Blocking :=
  findings.foldl worse none

theorem ofName?_name (b : Blocking) : ofName? b.name = some b := by
  cases b <;> rfl

end Blocking

end Awaitless
