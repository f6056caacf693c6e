import Awaitless.Settings
import Awaitless.Text.Raw

/-!
# Arguments of the command

Arguments are bytes, and so are the paths among them. The names of options are texts, and so are the
values that end up in the names of bindings.

* `Invocation` — what a run is asked to do.
* `Command` — a run, or one of the texts that the command can show.
* `Refusal` — why arguments are not understood.
* `Command.ofArguments` — reads arguments; each one takes effect where it stands, so the first
  refusal or request for a text decides.
-/

namespace Awaitless.CommandLine

/-- What a run is asked to do. -/
structure Invocation where
  /-- The folder that holds the chunks. -/
  folder : RawText
  /-- The folder that receives the chunks, if it is another one. -/
  target : Option RawText := none
  /-- The file that receives the records. -/
  report : Option RawText := none
  promiseName : Option String := none
  /-- What the local names of imported promises start with. -/
  importStart : Option String := none
  minify : Bool := false
  /-- Whether only the end of the run is told. -/
  silent : Bool := false
deriving Repr, DecidableEq, Inhabited

/-- The settings of the build. -/
def Invocation.settings (i : Invocation) : Settings :=
  SettingsRequest.settings
    { promiseName := i.promiseName
      importName := i.importStart.map fun start => numbered start ""
      minify := some i.minify }

/-- A run, or one of the texts that the command can show. -/
inductive Command where
  | run (invocation : Invocation)
  | showHelp
  | showVersion
deriving Repr, DecidableEq, Inhabited

/-! ## Options -/

/-- The options that take a value. -/
inductive Setting where
  | folder
  | target
  | report
  | promiseName
  | importStart
deriving Repr, DecidableEq, Inhabited

/-- The options that stand alone. -/
inductive Switch where
  | minify
  | silent
  | help
  | version
deriving Repr, DecidableEq, Inhabited

inductive Flag where
  | setting (s : Setting)
  | switch (s : Switch)
deriving Repr, DecidableEq, Inhabited

/-- The option of a long name. -/
def Flag.ofName? : String → Option Flag
  | "dir" => some (.setting .folder)
  | "out-dir" => some (.setting .target)
  | "report" => some (.setting .report)
  | "promise-export-name" => some (.setting .promiseName)
  | "promise-import-prefix" => some (.setting .importStart)
  | "minify" => some (.switch .minify)
  | "silent" => some (.switch .silent)
  | "help" => some (.switch .help)
  | "version" => some (.switch .version)
  | _ => none

/-- The option of a letter. -/
def Flag.ofLetter? : Char → Option Flag
  | 'd' => some (.setting .folder)
  | 'o' => some (.setting .target)
  | 'm' => some (.switch .minify)
  | 's' => some (.switch .silent)
  | 'h' => some (.switch .help)
  | 'V' => some (.switch .version)
  | _ => none

def Setting.name : Setting → String
  | .folder => "--dir <DIR>"
  | .target => "--out-dir <OUT_DIR>"
  | .report => "--report <REPORT>"
  | .promiseName => "--promise-export-name <PROMISE_EXPORT_NAME>"
  | .importStart => "--promise-import-prefix <PROMISE_IMPORT_PREFIX>"

def Switch.name : Switch → String
  | .minify => "--minify"
  | .silent => "--silent"
  | .help => "--help"
  | .version => "--version"

/-- Whether the value of an option is a path, which cannot be empty. All other values are texts. -/
def Setting.isPath : Setting → Bool
  | .folder | .target | .report => true
  | .promiseName | .importStart => false

/-! ## Reading -/

/-- Why arguments are not understood. -/
inductive Refusal where
  | unknown (argument : String)
  | missingValue (option : String)
  | unwantedValue (option : String) (value : String)
  | givenTwice (option : String)
  | required (option : String)
  | notText
deriving Repr, DecidableEq, Inhabited

def Refusal.message : Refusal → String
  | .unknown argument => "error: unexpected argument '" ++ argument ++ "' found"
  | .missingValue option =>
    "error: a value is required for '" ++ option ++ "' but none was supplied"
  | .unwantedValue option value =>
    "error: unexpected value '" ++ value ++ "' for '" ++ option ++ "' found; no more were expected"
  | .givenTwice option => "error: the argument '" ++ option ++ "' cannot be used multiple times"
  | .required option => "error: the following required arguments were not provided: " ++ option
  | .notText => "error: invalid UTF-8 was detected in one or more arguments"

/-- The options that have been read. -/
structure Options where
  values : List (Setting × RawText) := []
  switches : List Switch := []
deriving Repr, DecidableEq, Inhabited

namespace Options

def value? (o : Options) (s : Setting) : Option RawText :=
  o.values.lookup s

/-- The options with a value that was given. -/
def give (o : Options) (s : Setting) (value : RawText) : Except Refusal Options :=
  if s.isPath ∧ value = [] then .error (.missingValue s.name)
  else if ¬ s.isPath ∧ value.text? = none then .error .notText
  else if (o.value? s).isSome then .error (.givenTwice s.name)
  else .ok { o with values := (s, value) :: o.values }

/-- The options with a switch turned on. -/
def turnOn (o : Options) (s : Switch) : Except Refusal Options :=
  if s ∈ o.switches then .error (.givenTwice s.name)
  else .ok { o with switches := s :: o.switches }

/-- The run that complete options ask for. -/
def invocation (o : Options) : Except Refusal Invocation :=
  match o.value? .folder with
  | none => .error (.required Setting.folder.name)
  | some folder =>
    .ok
      { folder
        target := o.value? .target
        report := o.value? .report
        promiseName := (o.value? .promiseName).bind RawText.text?
        importStart := (o.value? .importStart).bind RawText.text?
        minify := o.switches.contains .minify
        silent := o.switches.contains .silent }

end Options

/-- What one argument leads to. -/
inductive Step where
  /-- The options so far. -/
  | next (options : Options)
  /-- An option whose value is the next argument. -/
  | awaiting (setting : Setting) (options : Options)
  /-- A text to show, whatever follows. -/
  | done (command : Command)
deriving Repr, DecidableEq, Inhabited

/-- Takes a switch. -/
def Options.switch (o : Options) : Switch → Except Refusal Step
  | .help => .ok (.done .showHelp)
  | .version => .ok (.done .showVersion)
  | s => (o.turnOn s).map .next

/-- What stands before the value of a long option. -/
def equals : UInt8 := 0x3D

/-- Reads what follows the two dashes of a long option. -/
def Options.readLong (o : Options) (argument : RawText) : Except Refusal Step :=
  let name := argument.takeWhile (· ≠ equals)
  match (RawText.text? name).bind Flag.ofName?, argument.drop name.length with
  | none, _ => .error (.unknown ("--" ++ RawText.shown name))
  | some (.setting s), _ :: value => (o.give s value).map .next
  | some (.setting s), [] => .ok (.awaiting s o)
  | some (.switch s), _ :: value => .error (.unwantedValue s.name (RawText.shown value))
  | some (.switch s), [] => o.switch s

/-- The first character of short options that are not understood, or all that is no text. -/
def unknownLetter (letters : RawText) : String :=
  match letters.pieces.head? with
  | some (.char c) => String.ofList ['-', c]
  | _ => "-" ++ letters.shown

/-- Reads the letters of short options; what follows the letter of a setting is its value. -/
def Options.readLetters (o : Options) : RawText → Except Refusal Step
  | [] => .ok (.next o)
  | b :: rest =>
    match Flag.ofLetter? (Char.ofNat b.toNat) with
    | none => .error (.unknown (unknownLetter (b :: rest)))
    | some (.setting s) =>
      match rest with
      | [] => .ok (.awaiting s o)
      | first :: value =>
        if first = equals then (o.give s value).map .next
        else (o.give s (first :: value)).map .next
    | some (.switch s) => do
      match ← o.switch s with
      | .next o => readLetters o rest
      | step => return step

/-- What an argument looks like. -/
inductive Shape where
  /-- Two dashes alone: no option follows. -/
  | terminator
  | long (argument : RawText)
  | letters (argument : RawText)
  | plain
deriving Repr, DecidableEq, Inhabited

def dash : UInt8 := 0x2D

def Shape.ofArgument : RawText → Shape
  | first :: second :: rest =>
    if first ≠ dash then .plain
    else if second ≠ dash then .letters (second :: rest)
    else if rest = [] then .terminator
    else .long rest
  | _ => .plain

/-- Reads the first of some arguments. -/
def Options.readArgument (o : Options) (argument : RawText) (rest : List RawText) :
    Except Refusal Step :=
  match Shape.ofArgument argument with
  | .terminator =>
    match rest with
    | [] => .ok (.next o)
    | extra :: _ => .error (.unknown extra.shown)
  | .long text => o.readLong text
  | .letters text => o.readLetters text
  | .plain => .error (.unknown argument.shown)

/-- Reads the arguments after some options. -/
def Options.readAll (o : Options) : List RawText → Except Refusal Command
  | [] => o.invocation.map .run
  | argument :: rest => do
    match ← o.readArgument argument rest with
    | .done command => return command
    | .next o => readAll o rest
    | .awaiting s o =>
      match rest with
      | [] => .error (.missingValue s.name)
      | value :: rest =>
        match Shape.ofArgument value with
        | .plain => readAll (← o.give s value) rest
        | _ => .error (.missingValue s.name)

/-- The command that arguments ask for. -/
def Command.ofArguments (arguments : List RawText) : Except Refusal Command :=
  Options.readAll {} arguments

/-! ## Texts -/

def versionText : String := "tla_cli 0.1.0\n"

def helpText : String :=
  String.join
    ["tla_cli\n\nUsage: tla [OPTIONS] --dir <DIR>\n\nOptions:\n",
      "  -d, --dir <DIR>\n",
      "          Directory holding the emitted chunks. ",
      "Every `.js` and `.mjs` file below it is read\n",
      "  -o, --out-dir <OUT_DIR>\n",
      "          Where to write the rewritten chunks. ",
      "Defaults to rewriting `--dir` in place\n",
      "      --report <REPORT>\n",
      "          Write the module records as JSON to this file\n",
      "      --promise-export-name <PROMISE_EXPORT_NAME>\n          \n",
      "      --promise-import-prefix <PROMISE_IMPORT_PREFIX>\n",
      "          Local names of imported promises become `<PREFIX>0`, `<PREFIX>1`, ...\n",
      "  -m, --minify\n          \n",
      "  -s, --silent\n          \n",
      "  -h, --help\n          Print help\n",
      "  -V, --version\n          Print version\n"]

end Awaitless.CommandLine
