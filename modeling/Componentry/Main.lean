/-
The command line: the dialogue held over the terminal, on the files of the disk.

Before each step the paths that it looks at are read into a file tree, and afterwards the changes to the tree are
written back.
-/
import Componentry.Console.Dialogue
import Componentry.FileTree.Changes

namespace Componentry.Main

/-- a path of the disk from the root -/
def diskPath (l : Location) : String := String.ofList ('/' :: FileTree.nameOf l)

/-- what the disk holds at a location -/
def look (l : Location) : IO (Option Entry) := do
  try
    let path ← IO.FS.realPath (diskPath l)
    if ← path.isDir then return some .dir
    let bytes ← IO.FS.readBinFile path
    return some (.file bytes.toList)
  catch _ => return none

/-- the tree with what the disk holds at a path and on the way to it -/
def addPath (t : FileTree) (p : Path) : IO FileTree := do
  let l := (t.absolute p).names
  let mut tree := t
  for place in FileTree.ancestorsOf l ++ [l] do
    match ← look place with
    | some entry => tree := if place = [] then tree else tree.set place entry
    | none => pure ()
  return tree

/-- the part of the disk that some paths lead to -/
def view (current : Location) (paths : List Path) : IO FileTree := do
  let digits ← IO.rand 10000000 99999999
  let empty : FileTree := ⟨current, Text.ofNat digits, []⟩
  (⟨.here, []⟩ :: paths).foldlM addPath empty

/-- the changes from one tree to another, made on the disk -/
def writeBack (before after : FileTree) : IO Unit := do
  let c := FileTree.changes [] before after
  for name in c.dirsAdded do
    IO.FS.createDirAll (diskPath [name])
  for (name, content) in c.files do
    match content with
    | some bytes => IO.FS.writeBinFile (diskPath [name]) ⟨bytes.toArray⟩
    | none => IO.FS.removeFile (diskPath [name])
  for name in c.dirsRemoved.reverse do
    IO.FS.removeDir (diskPath [name])

/-- the next line that is typed, none at the end of the input -/
def readLine : IO (Option Text) := do
  let line ← (← IO.getStdin).getLine
  if line.isEmpty then return none
  return (Console.inputLines line.toList).head?

/-- the dialogue from a reply on; its result is the exit code -/
partial def converse (current : Location) (r : Console.Reply) : IO UInt32 := do
  let output ← IO.getStdout
  output.putStr (String.ofList r.shown)
  output.flush
  match r.next with
  | .ask q =>
    let line ← readLine
    let tree ← view current (q.sights (line.getD []))
    let step := Console.answer .usual tree q line
    writeBack tree step.tree
    converse current step
  | .leave code => return UInt32.ofNat code
  | .broken f =>
    IO.eprintln (String.ofList f.message)
    return 1
  | .unsettled f =>
    IO.eprintln (String.ofList f.message)
    return 1
  | .escaped e =>
    IO.eprintln (String.ofList e.message)
    return 1

end Componentry.Main

/-- makes a component, or shows the version -/
def main (args : List String) : IO UInt32 := do
  let current := (Componentry.Path.ofText (← IO.currentDir).toString.toList).names
  let texts := args.map String.toList
  let empty : Componentry.FileTree := ⟨current, [], []⟩
  let tree ← Componentry.Main.view current (Componentry.Console.sightsAtStart empty texts)
  Componentry.Main.converse current (Componentry.Console.start .usual tree texts)
