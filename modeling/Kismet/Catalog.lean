import Kismet.Asset.Basic
import Kismet.Document.Parser
import Kismet.FileTree
import Kismet.Text.Lowercase
set_option autoImplicit false

/-!
# Catalog: the asset documents below a directory

Every entry whose name ends like a document is listed under the path of its
asset.  The catalog is made once; documents are read when they are loaded.
-/

namespace Kismet

/-- Asset paths with the paths of their documents, each asset path once, and the limits
within which documents are read. -/
structure Catalog where
  entries : List (String × Path) := []
  limits : Limits := {}
  deriving Inhabited

namespace Catalog

/-- The ending of document names. -/
def documentSuffix : String := ".json"

/-- The ending of asset paths. -/
def assetSuffix : String := ".uasset"

/-- The name ends like a document. -/
def isDocumentName (name : String) : Bool :=
  documentSuffix.toList.isSuffixOf name.toList

/-- The order of places: by their names, from the first one on. -/
def precedes : Location → Location → Bool
  | [], _ => true
  | _ :: _, [] => false
  | a :: as, b :: bs => if a = b then precedes as bs else decide (a < b)

/-- The entries below a place that are named like documents, in order. -/
def documentsBelow (t : FileTree) (base : Location) : List Location :=
  let found := (t.entriesBelow base).filterMap fun e =>
    if isDocumentName (e.1.getLast?.getD "") then some e.1 else none
  found.mergeSort precedes

/-- The asset path of a document. -/
def assetPath (document : Location) : String :=
  ((Path.mk "" document).withSuffix assetSuffix).display

/-- The document of an asset path. -/
def find? (c : Catalog) (path : String) : Option Path :=
  (c.entries.find? fun e => e.1 == path).map (·.2)

/-- Adds a document; an earlier one with the same asset path gives way. -/
def insert (c : Catalog) (path : String) (document : Path) : Catalog :=
  { c with entries := (path, document) :: c.entries.filter fun e => e.1 != path }

/-- The catalog of documents below a root, the last one of an asset path
counting. -/
def ofDocuments (root : Path) (documents : List Location) : Catalog :=
  documents.foldl (fun c d => c.insert (assetPath d) (root.join ⟨"", d⟩)) {}

/-- The catalog of a directory. -/
def ofTree (t : FileTree) (root : Path) (limits : Limits := {}) : Except Fault Catalog :=
  if t.isDirectory root then
    match t.resolve root with
    | .ok here => .ok { ofDocuments root (documentsBelow t here) with limits }
    | .error f => .error f
  else .error (.missingRoot root.display)

/-- The asset paths, in order. -/
def paths (c : Catalog) : List String :=
  (c.entries.map (·.1)).mergeSort fun a b => decide (a ≤ b)

/-- The text of a file. -/
def textOf (content : ByteArray) : Except Fault String :=
  match String.fromUTF8? content with
  | some s => .ok s
  | none => .error .notUtf8

/-- The document at a path. -/
def readDocument (t : FileTree) (p : Path) (limits : Limits := {}) : Except Fault Document :=
  match t.contentAt p with
  | .error f => .error f
  | .ok content =>
    match textOf content with
    | .error f => .error f
    | .ok s => Document.parse s limits

/-- Loads the asset of an asset path, with the log of its decoding. -/
def load (c : Catalog) (t : FileTree) (path : String) : List Log.Entry × Except Fault Asset :=
  match c.find? path with
  | none => ([], .error (.missingKey path))
  | some document =>
    match readDocument t document c.limits with
    | .error f => ([], .error f)
    | .ok d => Asset.decode d path c.limits

/-- The path contains the text, without regard to case. -/
def isMatch (needle path : String) : Bool :=
  Text.occurs (Text.lower needle).toList (Text.lower path).toList

/-- The paths that contain the text, without regard to case. -/
def select (needle : String) (paths : List String) : List String :=
  paths.filter (isMatch needle)

end Catalog

end Kismet
