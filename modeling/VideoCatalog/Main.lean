import VideoCatalog.CommandLine.Run

/-!
# The program

Reads the files below the current directory and below the arguments, runs the program on them,
prints what it says and writes what it changed.

* `gather`: the files below a place.
* `store`: writes what a run changed.
* `main`: the program.
-/

namespace VideoCatalog.CommandLine

/-- How deep directories are read. -/
def readingDepth : Nat := 64

/-- The text of a place. -/
def placeText (place : Place) : String := "/" ++ String.intercalate "/" place

/-- The time of a change in seconds. -/
def modifiedOf (m : IO.FS.Metadata) : Binary64 :=
  let nanos : Int := m.modified.sec * 1000000000 + m.modified.nsec.toNat
  .ofRatio (decide (nanos < 0)) nanos.natAbs 1000000000

/-- The files below a place. What cannot be read is left out. -/
def gather : Nat → Place → FileTree → IO FileTree
  | 0, _, tree => return tree
  | depth + 1, place, tree => do
    try
      let path := (← IO.currentDir) / placeText place
      if ← path.isDir then
        let mut tree := if place.isEmpty then tree else tree.put place .directory
        for entry in ← path.readDir do
          tree ← gather depth (place ++ [entry.fileName]) tree
        return tree
      else
        let content ← IO.FS.readBinFile path
        return tree.put place (.file content.toList (modifiedOf (← path.metadata)))
    catch _ => return tree

/-- The directories above a place. -/
def holdersOf (place : Place) : List Place :=
  (List.range place.length).filterMap fun n => if n = 0 then none else some (place.take n)

/-- Writes what a run changed. -/
def store (before after : FileTree) : IO Unit := do
  for (place, node) in after.nodes do
    if before.nodes.lookup place ≠ some node then
      match node with
      | .directory => IO.FS.createDirAll (placeText place)
      | .file content _ => IO.FS.writeBinFile (placeText place) ⟨content.toArray⟩
      | .link _ => pure ()
  for (place, node) in before.nodes do
    if (after.nodes.lookup place).isNone then
      match node with
      | .file .. => IO.FS.removeFile (placeText place)
      | _ => pure ()

/-- The line that reports why a run has no code. -/
def Stop.line : Stop → String
  | .exit _ => "the arguments do not fit"
  | .failure f => f.report

/-- The code of the program. -/
def Stop.code : Stop → Nat
  | .exit e => e.code
  | .failure _ => 1

/-- No program for decoding is started. -/
def noProgram : ProgramRun := { missing := true }

end VideoCatalog.CommandLine

open VideoCatalog VideoCatalog.CommandLine in
/-- The program. -/
def main (args : List String) : IO UInt32 := do
  let directory := Path.ofText (← IO.currentDir).toString
  let empty : FileTree := { nodes := [], start := directory.names }
  let mut tree := empty
  for place in holdersOf directory.names do
    tree := tree.put place .directory
  tree ← gather readingDepth directory.names tree
  for arg in args do
    let path := directory.join (.ofText arg)
    if !directory.names.isPrefixOf path.names then
      for place in holdersOf path.names do
        tree := tree.put place .directory
      tree ← gather readingDepth path.names tree
  let home := (← IO.getEnv "HOME").getD "/"
  let settings ← IO.getEnv "VIDEO_LIBRARY_CONFIG"
  let world : World :=
    { around := { directory := directory, homes := [("", home)], settings := settings },
      source := .tools [] (fun _ => noProgram) (fun _ => noProgram) }
  let done := run world tree args
  for r in done.log do
    IO.eprintln (LogSettings.line r.source r.level r.text)
  for line in done.err do
    IO.eprintln line
  for line in done.out do
    IO.println line
  store tree done.tree
  match done.code with
  | .ok code => return code.toUInt32
  | .error stop =>
    IO.eprintln stop.line
    return stop.code.toUInt32
