import Awaitless.CommandLine.Run

/-!
# The command

The command works on the files whose paths stand on standard input, one to a line, as seen from the
working directory: `find . -type f | awaitless --dir dist`. It reads them into a tree, runs on the
tree, and writes back every file that is new or has changed.
-/

namespace Awaitless.CommandLine

/-- The lines of a stream. -/
partial def readLines (input : IO.FS.Stream) : IO (List String) := do
  let line ← input.getLine
  if line.isEmpty then return []
  return String.ofList (line.toList.takeWhile (· ≠ '\n')) :: (← readLines input)

/-- The files with the given paths. -/
def loadFiles (paths : List String) : IO FileTree := do
  let files ← paths.mapM fun (path : String) => return (path, ← IO.FS.readBinFile path)
  return FileTree.ofFiles files

/-- Writes a file and creates the folders on the way to it. -/
def saveFile (path : String) (content : ByteArray) : IO Unit := do
  let folder := FileTree.pathTo (RawText.ofString path).steps.dropLast
  if folder ≠ [] then IO.FS.createDirAll folder.shown
  IO.FS.writeBinFile path content

/-- Writes the files of a tree that another tree does not hold. -/
def saveChanges (before after : FileTree) : IO Unit := do
  let known := before.listing
  for (path, content) in after.listing do
    if known.all fun (p, c) => p ≠ path || c.toList ≠ content.toList then
      saveFile path content

end Awaitless.CommandLine

open Awaitless.CommandLine in
def main (arguments : List String) : IO UInt32 := do
  let start ← IO.monoNanosNow
  let paths := (← readLines (← IO.getStdin)).filter (· ≠ "")
  let before ← loadFiles paths
  let (answer, after) := run arguments before
  saveChanges before after
  let stop ← IO.monoNanosNow
  let elapsed := Awaitless.Decimal.Fixed.text (stop - start) 1000000
  IO.print (answer.output elapsed)
  if let some complaint := answer.complaint? then IO.eprintln complaint
  return answer.exitCode.toUInt32
