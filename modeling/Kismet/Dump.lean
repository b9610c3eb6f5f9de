import Kismet.Catalog
import Kismet.Report.Export
set_option autoImplicit false

/-!
# Dump: writing the reports of an asset

Every export of an asset gets a report of its own.  Event graphs come last, so
that their listings can note the events found in the other functions.  An export
that fails is logged and skipped; a fault in writing ends the dump.
-/

namespace Kismet

/-- The files, and the log of what was done with them. -/
structure Workspace where
  tree : FileTree
  log : List Log.Entry := []
  deriving Inhabited

/-- Adds an entry to the log. -/
def Workspace.note (w : Workspace) (level : Log.Level) (source : Log.Source) (message : String) :
    Workspace :=
  { w with log := w.log ++ [⟨level, source, message⟩] }

/-- What was done for an asset. -/
structure DumpSummary where
  asset : Document
  written : List Path := []
  failed : List Document := []
  deriving Inhabited

/-- What the work on an asset carries from one export to the next. -/
structure Progress where
  summary : DumpSummary
  /-- The event links found so far. -/
  links : List EventLink := []
  /-- The event graphs met so far, which wait for the links. -/
  graphs : List Export := []
  deriving Inhabited

namespace Progress

/-- Adds the name of an export that failed. -/
def addFailed (p : Progress) (name : Document) : Progress :=
  { p with summary := { p.summary with failed := p.summary.failed ++ [name] } }

/-- Adds the path of a report that was written. -/
def addWritten (p : Progress) (path : Path) : Progress :=
  { p with summary := { p.summary with written := p.summary.written ++ [path] } }

/-- Adds a link, if there is one. -/
def addLink (p : Progress) (link : Option EventLink) : Progress :=
  { p with links := p.links ++ link.toList }

/-- Sets an event graph aside. -/
def defer (p : Progress) (e : Export) : Progress :=
  { p with graphs := p.graphs ++ [e] }

end Progress

namespace Workspace

/-- Makes a directory and those on the way to it. -/
def makeDirectories (w : Workspace) (p : Path) : Workspace × Except Fault Unit :=
  match w.tree.makeDirectories p with
  | (tree, result) => ({ w with tree }, result)

/-- The log message for an export that failed. -/
def failureText (name asset : Document) (f : Fault) : String :=
  "Error processing export \"" ++ name.display ++ "\" from asset \"" ++ asset.display
    ++ "\". Output may be missing or incomplete.\n" ++ f.logText

/-- Makes the report of an export and writes it into a directory, keeping the link
found in it; or logs the fault that prevents the report. -/
def process (w : Workspace) (a : Asset) (target : Path) (index : EventIndex) (p : Progress)
    (e : Export) : Workspace × Except Fault Progress :=
  match e.report a index with
  | .error f => (w.note .error .dumper (failureText e.name a.name f), .ok (p.addFailed e.name))
  | .ok (report, link) =>
    let path := target.child report.fileName
    match w.tree.store path report.text.toUTF8 with
    | .error f => (w, .error f)
    | .ok tree =>
      (({ w with tree } : Workspace).note .debug .dumper ("wrote " ++ path.display),
        .ok ((p.addLink link).addWritten path))

/-- Processes exports in order, setting the event graphs aside, until the first fault
in writing. -/
def processPlain (w : Workspace) (a : Asset) (target : Path) (p : Progress) :
    List Export → Workspace × Except Fault Progress
  | [] => (w, .ok p)
  | e :: rest =>
    if e.isGraph then w.processPlain a target (p.defer e) rest
    else
      match w.process a target {} p e with
      | (w', .error f) => (w', .error f)
      | (w', .ok p') => w'.processPlain a target p' rest

/-- Processes event graphs in order with the links in `index`, until the first fault
in writing. -/
def processGraphs (w : Workspace) (a : Asset) (target : Path) (index : EventIndex)
    (p : Progress) : List Export → Workspace × Except Fault Progress
  | [] => (w, .ok p)
  | e :: rest =>
    match w.process a target index p e with
    | (w', .error f) => (w', .error f)
    | (w', .ok p') => w'.processGraphs a target index p' rest

/-- Writes the reports of an asset into its directory. -/
def dumpInto (w : Workspace) (a : Asset) (target : Path) : Workspace × Except Fault DumpSummary :=
  match w.processPlain a target { summary := { asset := a.name } } a.exports with
  | (w', .error f) => (w', .error f)
  | (w', .ok p) =>
    match EventIndex.ofLinks p.links with
    | .error f => (w', .error f)
    | .ok index =>
      match w'.processGraphs a target index p p.graphs with
      | (w'', .error f) => (w'', .error f)
      | (w'', .ok p') => (w'', .ok p'.summary)

/-- Writes the reports of an asset into a directory of its name below `out`. -/
def dump (w : Workspace) (a : Asset) (out : Path) : Workspace × Except Fault DumpSummary :=
  match a.name with
  | .text name =>
    match w.makeDirectories (out.child name) with
    | (w', .error f) => (w', .error f)
    | (w', .ok ()) => (w'.note .info .dumper a.path.display).dumpInto a (out.child name)
  | _ => (w, .error .wrongKind)

/-- The name of the file that lists assets. -/
def listName : String := "AssetList.txt"

/-- Writes the list of the paths that contain `needle` into `out`, and gives
back these paths. -/
def list (w : Workspace) (paths : List String) (needle : String) (out : Path) :
    Workspace × Except Fault (List String) :=
  let selected := Catalog.select needle paths
  match w.makeDirectories out with
  | (w', .error f) => (w', .error f)
  | (w', .ok ()) =>
    let noted := selected.foldl (fun w path => w.note .info .dumper path) w'
    let text := String.join (selected.map (· ++ "\n"))
    match noted.tree.store (out.child listName) text.toUTF8 with
    | .error f => (noted, .error f)
    | .ok tree => ({ noted with tree }, .ok selected)

end Workspace

end Kismet
