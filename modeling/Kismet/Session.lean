import Kismet.CommandLine
import Kismet.Dump
set_option autoImplicit false

/-!
# Session: a run from start to end

A run lists or dumps the assets that match.  An asset that cannot be loaded is
logged and counted; faults that are not about the asset's document end the run.
-/

namespace Kismet

/-- A fault in loading an asset that lets the run go on. -/
def Fault.isSkippable : Fault → Bool
  | .missingKey _ | .missingShape _ | .missingRoot _ | .notJson | .isDirectory | .notDirectory
  | .alreadyExists | .noEntry | .unsupported _ _ | .scriptNotLoaded _ => true
  | f => f.isMalformed

namespace Workspace

/-- The log message for an asset that cannot be loaded. -/
def loadFailureText (path : String) (f : Fault) : String :=
  "Error loading asset \"" ++ path ++ "\".\n" ++ f.logText

/-- Dumps one asset and counts its failures.  The output directory has to be known
only for an asset that can be loaded. -/
def dumpPath (w : Workspace) (c : Catalog) (out : Option Path) (path : String) :
    Workspace × Except Fault Nat :=
  match c.load w.tree path with
  | (log, .error f) =>
    let w' : Workspace := { w with log := w.log ++ log }
    if f.isSkippable then (w'.note .error .program (loadFailureText path f), .ok 1)
    else (w', .error f)
  | (log, .ok asset) =>
    let w' : Workspace := { w with log := w.log ++ log }
    match out with
    | none => (w', .error .wrongKind)
    | some out =>
      match w'.dump asset out with
      | (w'', .error f) => (w'', .error f)
      | (w'', .ok summary) => (w'', .ok summary.failed.length)

/-- Dumps the assets of some paths in order and counts the failures. -/
def dumpPaths (w : Workspace) (c : Catalog) (out : Option Path) :
    List String → Workspace × Except Fault Nat
  | [] => (w, .ok 0)
  | path :: rest =>
    match w.dumpPath c out path with
    | (w', .error f) => (w', .error f)
    | (w', .ok n) =>
      match w'.dumpPaths c out rest with
      | (w'', .error f) => (w'', .error f)
      | (w'', .ok m) => (w'', .ok (n + m))

/-- Dumps the assets that match and counts the failures. -/
def dumpMatching (w : Workspace) (c : Catalog) (o : Options) : Workspace × Except Fault Nat :=
  match o.needle with
  | none => (w, .error .noMember)
  | some needle => w.dumpPaths c o.out (Catalog.select needle c.paths)

end Workspace

/-- How a run ends. -/
inductive Ending where
  | completed
  /-- The command was not understood. -/
  | misunderstood
  /-- The directory of the documents is missing. -/
  | rootMissing (message : String)
  /-- A fault ended the run. -/
  | stopped (fault : Fault)
  deriving Inhabited

/-- What a run leaves: files and log, what it printed, and how it ended. -/
structure Session where
  workspace : Workspace
  printed : List String := []
  ending : Ending := .completed
  deriving Inhabited

namespace Session

/-- Lists the assets that match. -/
def list (s : Session) (c : Catalog) (o : Options) : Session :=
  match o.needle, o.out with
  | some needle, some out =>
    match s.workspace.list c.paths needle out with
    | (w, .error f) => { s with workspace := w, ending := .stopped f }
    | (w, .ok selected) =>
      { s with
        workspace := w
        printed := s.printed ++ [toString selected.length ++ " assets listed in "
          ++ (out.child Workspace.listName).display] }
  | _, _ => { s with ending := .stopped .noMember }

/-- Logs the number of failures, if there are any. -/
def warn (w : Workspace) (failures : Nat) : Workspace :=
  if failures = 0 then w
  else w.note .warning .program
    (toString failures ++ " exports or assets could not be processed")

/-- Dumps the assets that match. -/
def dump (s : Session) (c : Catalog) (o : Options) : Session :=
  match s.workspace.dumpMatching c o with
  | (w, .error f) => { s with workspace := w, ending := .stopped f }
  | (w, .ok failures) => { s with workspace := warn w failures }

/-- Goes on unless the session has ended. -/
def andThen (s : Session) (next : Session → Session) : Session :=
  match s.ending with
  | .completed => next s
  | _ => s

/-- Logs that the work is done. -/
def finish (s : Session) : Session :=
  { s with workspace := s.workspace.note .info .program "Completed." }

/-- A run with options. -/
def run (t : FileTree) (o : Options) : Session :=
  let opened : Session := { workspace := { tree := t }, printed := o.describe }
  match Catalog.ofTree t o.root with
  | .error f => { opened with ending := .rootMissing (f.message.getD "") }
  | .ok c =>
    let listed := if o.list then opened.list c o else opened
    let dumped := listed.andThen fun s => if o.dump then s.dump c o else s
    dumped.andThen finish

/-- The log lines of a session; `verbose` shows debugging entries too. -/
def logLines (s : Session) (verbose : Bool) : List String :=
  (if verbose then s.workspace.log else Log.withoutDebug s.workspace.log).map (·.text)

end Session

end Kismet
