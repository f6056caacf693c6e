import Awaitless.Bundle.Propagation
import Awaitless.Transform.Module
import Awaitless.Script.Waiting
import Awaitless.Source

/-!
# Transforming the chunks of a build

* `Module` — a chunk that has been read.
* `Bundle.ofModules`, `missingModules` — what the modules say about each other.
* `scan` — reads all chunks.
* `transform` — transforms the chunks that wait, and keeps the text of the others.
-/

namespace Awaitless

open Script

/-- A chunk of a build. -/
structure Chunk where
  name : String
  text : String
deriving Repr, DecidableEq, Inhabited

/-- A chunk of the output. -/
structure OutputChunk where
  name : String
  text : String
  /-- Whether the chunk was transformed. -/
  transformed : Bool
deriving Repr, DecidableEq, Inhabited

/-- A chunk that has been read. -/
structure Module where
  name : String
  source : String
  program : Program
deriving Inhabited

namespace Module

/-- The chunks that the module imports by a declaration, in order of first occurrence; some may be
missing. -/
def imports (m : Module) : List String :=
  distinct <| m.program.statements.filterMap fun s =>
    match s.form with
    | .importItem d => resolve? m.name d.source.name.toString
    | _ => none

def blocking (m : Module) : Option Blocking :=
  blockingOf m.program.statements

end Module

/-! ## Scanning -/

/-- Notes what the module at a position says about itself and about others. -/
def Bundle.record (b : Bundle) (position : Nat) (m : Module) : Bundle :=
  (m.imports.foldl (fun b target => b.addEdge position target) b).setBlocking position m.blocking

/-- The records of all modules. -/
def Bundle.ofModules (modules : List Module) : Bundle :=
  modules.zipIdx.foldl (fun b (m, i) => b.record i m) (Bundle.ofNames (modules.map (·.name)))

/-- The static imports of modules that are not part of the build. -/
def missingModules (modules : List Module) : List MissingModule :=
  let names := modules.map (·.name)
  modules.flatMap fun m =>
    (m.imports.filter fun target => !names.contains target).map (⟨m.name, ·⟩)

/-- The values of all successes, or the causes of all failures. -/
def gather : List (Except ε α) → Except (List ε) (List α)
  | [] => .ok []
  | .ok a :: rest => (gather rest).map (a :: ·)
  | .error e :: rest =>
    match gather rest with
    | .ok _ => .error [e]
    | .error es => .error (e :: es)

/-- A chunk that has been read, or the problem with it. -/
def Chunk.read (c : Chunk) : Except Problem Module :=
  (Source.check c.name c.text).map fun program => ⟨c.name, c.text, program⟩

/-- All chunks that have been read. Names that occur again are reported before anything else. -/
def readAll (chunks : List Chunk) : Except (List Problem) (List Module) :=
  match repeated (chunks.map (·.name)) with
  | [] => gather (chunks.map Chunk.read)
  | names => .error (names.map .repeatedName)

/-- The records of the chunks before waiting spreads, and the imports that lead nowhere. -/
structure Scan where
  bundle : Bundle
  warnings : List MissingModule
deriving Repr, Inhabited

def scanModules (modules : List Module) : Scan :=
  ⟨Bundle.ofModules modules, missingModules modules⟩

def scan (chunks : List Chunk) : Except (List Problem) Scan :=
  (readAll chunks).map scanModules

/-! ## Generating -/

/-- The chunk that a module turns into. -/
def Module.generate (settings : Settings) (bundle : Bundle) (m : Module) :
    Except UnsupportedShape OutputChunk :=
  if bundle.isTransformed m.name then do
    let program ← Transform.program ⟨m.name, bundle, settings⟩ m.source m.program
    return ⟨m.name, program.text settings.minify, true⟩
  else .ok ⟨m.name, m.source, false⟩

/-- What a build results in. -/
structure Output where
  chunks : List OutputChunk
  bundle : Bundle
  warnings : List MissingModule
deriving Repr, Inhabited

/-- The output of a build from modules that have been read. -/
def transformModules (settings : Settings) (modules : List Module) :
    Except (List UnsupportedShape) Output := do
  let bundle := (Bundle.ofModules modules).propagate
  let chunks ← gather (modules.map (Module.generate settings bundle))
  return ⟨chunks, bundle, missingModules modules⟩

/-- The output of a build, or all problems of its first stage that has any. -/
def transform (settings : Settings) (chunks : List Chunk) : Except (List Problem) Output := do
  let modules ← readAll chunks
  (transformModules settings modules).mapError fun shapes => shapes.map .unsupported

end Awaitless
