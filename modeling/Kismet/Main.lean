import Kismet.Session
set_option autoImplicit false

/-!
# Main: the command line program

The program copies the directories that a command names into a file tree, runs
the session on it, and writes what has changed back to the disk.
-/

namespace Kismet.Main

open FileTree (Node)

/-- A place as the text of an absolute path. -/
def placeText (here : Location) : String :=
  "/" ++ "/".intercalate here

/-- The places that a path leads through, from its start to its end. -/
def trail (here : Location) : List String → List Location
  | [] => [here]
  | segment :: rest =>
    here :: trail (if segment = ".." then here.dropLast else here ++ [segment]) rest

/-- The place itself, if something stands there. -/
def readPlace (here : Location) : IO (List (Location × Node)) := do
  let path := (← IO.currentDir) / placeText here
  if here.isEmpty then return []
  else if ← path.isDir then return [(here, .directory)]
  else if ← path.pathExists then return [(here, .file (← IO.FS.readBinFile path))]
  else return []

/-- All that stands below a place. -/
partial def readBelow (here : Location) : IO (List (Location × Node)) := do
  let path := (← IO.currentDir) / placeText here
  if ← path.isDir then
    let mut found := []
    for entry in ← path.readDir do
      let place := here ++ [entry.fileName]
      found := found ++ (← readPlace place) ++ (← readBelow place)
    return found
  else return []

/-- The part of the disk that a path leads to. -/
def readPath (workingDirectory : Location) (p : Path) : IO (List (Location × Node)) := do
  let places := trail (if p.isAbsolute then [] else workingDirectory) p.segments
  let onTheWay ← places.mapM readPlace
  return onTheWay.flatten ++ (← readBelow (places.getLast?.getD []))

/-- The part of the disk that a run with the given options concerns. -/
def readTree (o : Options) : IO FileTree := do
  let workingDirectory := (Path.ofText (← IO.currentDir).toString).segments
  let above ← (trail [] workingDirectory).mapM readPlace
  let root ← readPath workingDirectory o.root
  let out ← o.out.toList.mapM (readPath workingDirectory)
  return { workingDirectory, nodes := above.flatten ++ root ++ out.flatten }

/-- The same stands at a place. -/
def isSame : Option Node → Node → Bool
  | some .directory, .directory => true
  | some (.file a), .file b => a.data == b.data
  | _, _ => false

/-- Writes what has changed, directories before what they hold. -/
def writeTree (before after : FileTree) : IO Unit := do
  let changed := after.nodes.filter fun e => !isSame (before.node? e.1) e.2
  for (here, node) in changed.mergeSort fun a b => a.1.length ≤ b.1.length do
    match node with
    | .directory => IO.FS.createDirAll (placeText here)
    | .file content => IO.FS.writeBinFile (placeText here) content

/-- Milliseconds as seconds with two places. -/
def secondsText (ms : Nat) : String :=
  let hundredths := (ms + 5) / 10
  let fraction := toString (hundredths % 100)
  toString (hundredths / 100) ++ "." ++ (if fraction.length < 2 then "0" ++ fraction else fraction)

/-- How the program is called. -/
def usage : String :=
  "usage: kismet [-h] [--list] [--dump] [--verbose] asset_root asset_match output_dir"

/-- What the switches do. -/
def helpLines : List String :=
  [usage, "",
   "  --list     write the matching asset paths to " ++ Workspace.listName,
   "  --dump     dump the matching assets (the default when no operation is given)",
   "  --verbose  enable debug logging"]

/-- Runs a session on the disk. -/
def runSession (o : Options) (verbose : Bool) : IO UInt32 := do
  let started ← IO.monoMsNow
  let tree ← readTree o
  let session := Session.run tree o
  session.printed.forM IO.println
  (session.logLines verbose).forM IO.eprintln
  writeTree tree session.workspace.tree
  match session.ending with
  | .completed =>
    IO.println ("total execution time: " ++ secondsText ((← IO.monoMsNow) - started) ++ "s")
    return 0
  | .misunderstood => return 2
  | .rootMissing message =>
    IO.eprintln message
    return 1
  | .stopped fault =>
    IO.eprintln fault.logText
    return 1

end Kismet.Main

/-- Reads the command and does what it asks for. -/
def main (args : List String) : IO UInt32 := do
  match Kismet.CommandLine.parse args with
  | .run options verbose => Kismet.Main.runSession options verbose
  | .help =>
    Kismet.Main.helpLines.forM IO.println
    return 0
  | .misunderstood =>
    IO.eprintln Kismet.Main.usage
    return 2
