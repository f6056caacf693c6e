import Awaitless.Text.Quoted

/-!
# Settings of a build

* `SettingsRequest` — what a caller asks for; whatever is left out keeps its default.
* `Settings` — the settings that a build runs with.
-/

namespace Awaitless

/-- The settings that a build runs with. -/
structure Settings where
  /-- The name under which a transformed chunk exports its completion promise. -/
  promiseName : String := "__tla"
  /-- The local name of the completion promise that is imported at the given place. -/
  importName : Nat → String := fun i => "__tla_" ++ toString i
  /-- Whether transformed chunks are printed without insignificant white space. -/
  minify : Bool := false

instance : Inhabited Settings := ⟨{}⟩

/-- What a caller asks for. -/
structure SettingsRequest where
  promiseName : Option String := none
  importName : Option (Nat → String) := none
  minify : Option Bool := none

instance : Inhabited SettingsRequest := ⟨{}⟩

/-- Local names that number the imported promises after a common beginning and before a common
end. -/
def numbered (before after : String) (i : Nat) : String :=
  before ++ toString i ++ after

namespace SettingsRequest

/-- Fills in the defaults. -/
def settings (r : SettingsRequest) : Settings :=
  let defaults : Settings := {}
  { promiseName := r.promiseName.getD defaults.promiseName
    importName := r.importName.getD defaults.importName
    minify := r.minify.getD defaults.minify }

def flag (b : Bool) : String := if b then "true" else "false"

/-- An optional value in a description. -/
def optional (value : Option String) : String :=
  match value with
  | none => "None"
  | some text => "Some(" ++ text ++ ")"

/-- The request in words, for logs. -/
def describe (r : SettingsRequest) : String :=
  "TlaOptions \x7b promise_export_name: " ++ optional (r.promiseName.map Text.Quoted.encode) ++
    ", promise_import_name: " ++
      optional (r.importName.map fun _ => Text.Quoted.encode "Fn(usize) -> String") ++
    ", minify: " ++ optional (r.minify.map flag) ++ " \x7d"

end SettingsRequest

/-- The settings in words, for logs; the naming function cannot be shown. -/
def Settings.describe (s : Settings) : String :=
  "NormalizedTlaOptions \x7b promise_export_name: " ++ Text.Quoted.encode s.promiseName ++
    ", minify: " ++ SettingsRequest.flag s.minify ++ ", .. \x7d"

end Awaitless
