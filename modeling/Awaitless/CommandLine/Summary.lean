import Awaitless.Decimal.Fixed
import Awaitless.Transform

/-!
# What a run tells

* `Paint` — how a piece of text is shown.
* `chunkLines` — a line for each chunk, with what happened to it and its size.
* `errorLine`, `warningLine`, `finishLine` — the other lines.
-/

namespace Awaitless.CommandLine

/-- How a piece of text is shown. -/
inductive Paint where
  | red
  | green
  | yellow
  | cyan
  | dim
  | bold
deriving Repr, DecidableEq, Inhabited

namespace Paint

/-- The parameters of the escape sequence that starts the piece. -/
def code : Paint → String
  | .red => "31"
  | .green => "32"
  | .yellow => "33"
  | .cyan => "36"
  | .dim => "2;37"
  | .bold => "1;37"

/-- The painted text. -/
def apply (p : Paint) (text : String) : String :=
  "\x1b[" ++ p.code ++ "m" ++ text ++ "\x1b[0m"

end Paint

/-- A row of spaces. -/
def spaces (n : Nat) : String :=
  String.ofList (List.replicate n ' ')

/-- The size of a text in units of 1024 bytes, at least eight columns wide. -/
def sizeText (text : String) : String :=
  let size := Decimal.Fixed.text text.utf8ByteSize 1024
  spaces (8 - size.length) ++ size

/-- The line of a chunk; the name takes at least `width` bytes. -/
def chunkLine (width : Nat) (c : OutputChunk) : String :=
  Paint.dim.apply "<DIR>/" ++ Paint.cyan.apply c.name ++ spaces (width - c.name.utf8ByteSize) ++
    " " ++ (if c.transformed then Paint.green.apply "rewritten" else Paint.dim.apply "unchanged") ++
    Paint.dim.apply " │ size: " ++ sizeText c.text ++ " kB\n"

/-- The lines of all chunks, aligned. -/
def chunkLines (chunks : List OutputChunk) : List String :=
  let width := (chunks.map (·.name.utf8ByteSize)).foldl max 0
  chunks.map (chunkLine width)

def errorLine (message : String) : String :=
  Paint.red.apply "Error:" ++ " " ++ message ++ "\n"

def warningLine (message : String) : String :=
  Paint.yellow.apply "Warning:" ++ " " ++ message ++ "\n"

def finishLine (elapsed : String) : String :=
  "\n" ++ Paint.green.apply "✔" ++ " Finished in " ++ Paint.bold.apply (elapsed ++ " ms") ++ "\n"

end Awaitless.CommandLine
