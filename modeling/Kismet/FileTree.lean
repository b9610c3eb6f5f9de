import Kismet.Fault
import Kismet.Path
set_option autoImplicit false

/-!
# FileTree: files and directories as data

A file tree is a flat table of places with a directory or a file at each, seen
from a working directory.  A path is followed step by step, and every step but
the last has to lead through a directory that exists.
-/

namespace Kismet

/-- A place in a file tree: the names on the way from the root. -/
abbrev Location := List String

/-- What stands at a place. -/
inductive FileTree.Node where
  | directory
  | file (content : ByteArray)
  deriving Inhabited

/-- A file tree.  The root is always a directory and has no entry. -/
structure FileTree where
  workingDirectory : Location
  nodes : List (Location × FileTree.Node)
  deriving Inhabited

namespace FileTree

/-- The rest of a place as seen from another one above it. -/
def below? : Location → Location → Option Location
  | [], rest => some rest
  | _ :: _, [] => none
  | a :: base, b :: rest => if a = b then below? base rest else none

/-- What stands at a place. -/
def node? (t : FileTree) (here : Location) : Option Node :=
  if here = [] then some .directory
  else (t.nodes.find? fun e => e.1 == here).map (·.2)

/-- Puts something at a place, instead of what stood there. -/
def put (t : FileTree) (here : Location) (n : Node) : FileTree :=
  { t with nodes := (here, n) :: t.nodes.filter fun e => e.1 != here }

/-- All that stands below a place, as seen from it. -/
def entriesBelow (t : FileTree) (base : Location) : List (Location × Node) :=
  t.nodes.filterMap fun e =>
    match below? base e.1 with
    | some (name :: rest) => some (name :: rest, e.2)
    | _ => none

/-! ## Following paths -/

/-- The step from a place, which has to be a directory, along one segment. -/
def step (t : FileTree) (here : Location) (segment : String) : Except Fault Location :=
  match t.node? here with
  | none => .error .noEntry
  | some (.file _) => .error .notDirectory
  | some .directory => .ok (if segment = ".." then here.dropLast else here ++ [segment])

/-- The steps from a place along segments. -/
def follow (t : FileTree) (here : Location) : List String → Except Fault Location
  | [] => .ok here
  | segment :: rest =>
    match t.step here segment with
    | .error f => .error f
    | .ok next => t.follow next rest

/-- The place where a path starts. -/
def start (t : FileTree) (p : Path) : Location :=
  if p.isAbsolute then [] else t.workingDirectory

/-- A name that no file system can hold. -/
def hasNull (segment : String) : Bool :=
  segment.toList.any fun c => c.toNat == 0

/-- The place that a path leads to; nothing needs to stand there. -/
def resolve (t : FileTree) (p : Path) : Except Fault Location :=
  if p.segments.any hasNull then .error .badValue else t.follow (t.start p) p.segments

/-- A directory stands at the path. -/
def isDirectory (t : FileTree) (p : Path) : Bool :=
  match t.resolve p with
  | .ok here =>
    match t.node? here with
    | some .directory => true
    | _ => false
  | .error _ => false

/-! ## Operations -/

/-- The content of the file at a path. -/
def contentAt (t : FileTree) (p : Path) : Except Fault ByteArray :=
  match t.resolve p with
  | .error f => .error f
  | .ok here =>
    match t.node? here with
    | none => .error .noEntry
    | some .directory => .error .isDirectory
    | some (.file content) => .ok content

/-- Stores a file, in place of one that stood there. -/
def store (t : FileTree) (p : Path) (content : ByteArray) : Except Fault FileTree :=
  match t.resolve p with
  | .error f => .error f
  | .ok here =>
    match t.node? here with
    | some .directory => .error .isDirectory
    | _ => .ok (t.put here (.file content))

/-- Makes one directory, where nothing may stand. -/
def makeDirectory (t : FileTree) (p : Path) : Except Fault FileTree :=
  match t.resolve p with
  | .error f => .error f
  | .ok here =>
    match t.node? here with
    | some _ => .error .alreadyExists
    | none => .ok (t.put here .directory)

/-- Makes one directory unless it is there. -/
def ensureDirectory (t : FileTree) (p : Path) : FileTree × Except Fault Unit :=
  match t.makeDirectory p with
  | .ok made => (made, .ok ())
  | .error f => if t.isDirectory p then (t, .ok ()) else (t, .error f)

/-- Makes the directory with the given segments, last one first, after the
directories on the way to it. -/
def ensureAll (t : FileTree) (root : String) : List String → FileTree × Except Fault Unit
  | [] => t.ensureDirectory ⟨root, []⟩
  | segment :: front =>
    match t.makeDirectory ⟨root, (segment :: front).reverse⟩ with
    | .ok made => (made, .ok ())
    | .error .noEntry =>
      match t.ensureAll root front with
      | (made, .error f) => (made, .error f)
      | (made, .ok ()) => made.ensureDirectory ⟨root, (segment :: front).reverse⟩
    | .error _ => t.ensureDirectory ⟨root, (segment :: front).reverse⟩

/-- Makes a directory and those on the way to it, unless they are there.  What
was made stays, even if the rest fails. -/
def makeDirectories (t : FileTree) (p : Path) : FileTree × Except Fault Unit :=
  t.ensureAll p.root p.segments.reverse

end FileTree

end Kismet
