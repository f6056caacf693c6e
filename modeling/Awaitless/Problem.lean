import Awaitless.Text.Quoted

/-!
# What can go wrong in a build

* `UnsupportedShape` — a module that is not a flat row of imports, exports and statements.
* `MissingModule` — a static import of a module that is not part of the bundle; only a warning.
* `Problem` — everything that is reported, with `Problem.message` and `Problem.causes`.
-/

namespace Awaitless

open Text

/-- Where an unsupported node stands. -/
inductive Place where
  | topLevelStatement
  | reExport
  | exportDeclaration
  | defaultExport
  | destructuringPattern
  | unspecified
deriving Repr, DecidableEq, Inhabited

namespace Place

/-- The place in running text. -/
def text : Place → String
  | .topLevelStatement => "top-level statement"
  | .reExport => "re-export"
  | .exportDeclaration => "export declaration"
  | .defaultExport => "default export"
  | .destructuringPattern => "destructuring pattern"
  | .unspecified => ""

def all : List Place :=
  [.topLevelStatement, .reExport, .exportDeclaration, .defaultExport, .destructuringPattern,
    .unspecified]

/-- The place with the given text. -/
def ofText? (text : String) : Option Place :=
  all.find? fun p => p.text == text

theorem ofText?_text (p : Place) : ofText? p.text = some p := by
  cases p <;> decide

end Place

/-- A module that does not have the flat layout of bundled output. -/
structure UnsupportedShape where
  moduleName : String
  place : Place
  nodeKind : String
deriving Repr, DecidableEq, Inhabited

def UnsupportedShape.message (u : UnsupportedShape) : String :=
  "Unexpected " ++ u.place.text ++ " \"" ++ u.nodeKind ++ "\" in output chunk " ++
    Quoted.encode u.moduleName ++
    ". Only flat import declarations, named exports and plain statements are supported."

/-- A static import of a module that is not part of the bundle. -/
structure MissingModule where
  importer : String
  imported : String
deriving Repr, DecidableEq, Inhabited

def MissingModule.message (m : MissingModule) : String :=
  "Non-existing module " ++ Quoted.encode m.imported ++ " imported by " ++
    Quoted.encode m.importer ++ ", ignoring."

/-- Everything that a build can report. -/
inductive Problem where
  | unsupported (shape : UnsupportedShape)
  | missing (warning : MissingModule)
  | repeatedName (name : String)
  /-- The text of a chunk, or a nameless text, is not a module. -/
  | syntaxError (name : Option String) (diagnostics : List String)
  /-- The text is a module that breaks a rule beyond the grammar. -/
  | earlyError (name : String) (diagnostics : List String)
  /-- A message from outside of the build. -/
  | note (text : String)
deriving Repr, DecidableEq, Inhabited

namespace Problem

/-- The diagnostics of a parse in one line. -/
def parseFailure (diagnostics : List String) : String :=
  "Failed to parse, got: " ++ String.intercalate "; " diagnostics

/-- The outermost text. -/
def message : Problem → String
  | .unsupported u => u.message
  | .missing m => m.message
  | .repeatedName name => "Chunk " ++ Quoted.encode name ++ " is provided more than once"
  | .syntaxError none ds => parseFailure ds
  | .syntaxError (some name) _ => "In " ++ Quoted.encode name
  | .earlyError name ds =>
    "Failed to parse " ++ Quoted.encode name ++ ", got: " ++ String.intercalate "; " ds
  | .note text => text

/-- The texts below the outermost one. -/
def causes : Problem → List String
  | .syntaxError (some _) ds => [parseFailure ds]
  | _ => []

/-- All texts, from the outermost to the innermost. -/
def chain (p : Problem) : String :=
  String.intercalate ": " (p.message :: p.causes)

end Problem

end Awaitless
