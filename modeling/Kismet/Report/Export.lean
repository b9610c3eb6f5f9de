import Kismet.Asset.Basic
import Kismet.Report.Basic
import Kismet.Value.Render
set_option autoImplicit false

/-!
# Report: exports

Every export has one report or a fault that prevents it.  The report of a function shows its
flags, its fields by role, and the listing of its script.

The report of a class shows its properties with their default values.  Defaults of properties
that the class does not declare belong to its parent and have a section of their own.
-/

namespace Kismet

/-! ## Functions -/

/-- What a function is: an event graph, a delegate, or else a plain function. -/
inductive FunctionKind where
  | function
  | delegate
  | graph
  deriving DecidableEq, Repr, Inhabited

/-- The word for a kind of function. -/
def FunctionKind.title : FunctionKind → String
  | .function => "Function"
  | .delegate => "Delegate"
  | .graph => "Graph"

namespace FunctionExport

/-- The function is an event graph. -/
def isGraph (f : FunctionExport) : Bool :=
  f.flags.isUbergraph

/-- The kind of a function; a graph that is also a delegate counts as a graph. -/
def kind (f : FunctionExport) : FunctionKind :=
  if f.flags.isUbergraph then .graph
  else if f.flags.isDelegate then .delegate
  else .function

/-- What stands between the name of a delegate and the mark of its signature. -/
def signatureMark : String := "__"

/-- The name of a delegate without the mark of its signature and what follows
it. -/
def delegateName (name : Document) : Except Fault Document :=
  match name.mentions signatureMark with
  | .error e => .error e
  | .ok false => .ok name
  | .ok true =>
    match name with
    | .text s =>
      match Text.beforeLast? signatureMark.toList s.toList with
      | some front => .ok (.text (String.ofList front))
      | none => .ok name
    | _ => .error .noMember

/-- The name of an event graph without the name of its asset. -/
def graphName (asset name : Document) : Except Fault Document :=
  match name with
  | .text s => .ok (.text (Text.removeAll ("_" ++ asset.display) s))
  | _ => .error .noMember

/-- The name under which a function is filed. -/
def filedName (f : FunctionExport) (asset : Document) : Except Fault Document :=
  match (if f.flags.isDelegate then delegateName f.name else .ok f.name) with
  | .error e => .error e
  | .ok name => if f.flags.isUbergraph then graphName asset name else .ok name

/-- The file name of a function's report. -/
def fileName (f : FunctionExport) (asset : Document) : Except Fault String :=
  match f.filedName asset with
  | .error e => .error e
  | .ok name => (Report.sanitizeDocument name).map (Report.fileNameFor f.kind.title)

/-- A text without the line breaks at its end. -/
def trimBreaks (s : String) : String :=
  String.ofList (s.toList.reverse.dropWhile (· == '\n')).reverse

/-- The section about the fields of one role. -/
def roleSection (fields : List Descriptor) (role : Role) : List String :=
  Report.fieldsSection role.title (fields.filter fun d => Role.ofFlags d.propertyFlags == role)

/-- The lines of a function's report. -/
def reportLines (f : FunctionExport) (fields : List Descriptor) (listing : Listing) :
    List String :=
  ["Function: " ++ f.name.display, "Flags: " ++ functionFlags.format true f.flags.toInt]
    ++ roleSection fields .input ++ roleSection fields .output ++ roleSection fields .localVariable
    ++ Report.header "Code" ++ [trimBreaks listing.text]

/-- The report of a function of an asset, with notes for the events in `index`,
and the event link found in its script. -/
def report (f : FunctionExport) (asset : Asset) (index : EventIndex) :
    Except Fault (Report × Option EventLink) :=
  match Field.describeAll f.fields with
  | .error e => .error e
  | .ok fields =>
    match f.disassemble asset.encoding index with
    | .error e => .error e
    | .ok listing =>
      (f.fileName asset.name).map fun file =>
        (.ofLines file (f.reportLines fields listing), listing.link)

end FunctionExport

/-! ## Classes -/

namespace Report

/-- The default value of a property of some name. -/
abbrev DefaultTag := Document × Value

/-- The rendered value of a tag, if it has one. -/
def tagText (tag : DefaultTag) : Option String :=
  Value.render "" tag.2

/-- One of the fields has the name. -/
def declares (fields : List Descriptor) (name : Document) : Bool :=
  fields.any fun d => d.name.sameKey name

/-- Sets the default of the last field of a name. -/
def setDefault (name : Document) (text : Option String) : List Descriptor → List Descriptor
  | [] => []
  | d :: rest =>
    if d.name.sameKey name && !declares rest name then { d with defaultText := text } :: rest
    else d :: setDefault name text rest

/-- The fields with the defaults of the tags; a later tag of a name counts. -/
def withDefaults (fields : List Descriptor) : List DefaultTag → List Descriptor
  | [] => fields
  | tag :: rest => withDefaults (setDefault tag.1 (tagText tag) fields) rest

/-- The tags for properties that are not declared. -/
def overrides (fields : List Descriptor) (tags : List DefaultTag) : List DefaultTag :=
  tags.filter fun tag => !declares fields tag.1

/-- The line of an overridden property. -/
def overrideLine (tag : DefaultTag) : String :=
  tag.1.display ++ " = " ++ (tagText tag).getD ""

/-- The type of the field that holds the state of the event graph. -/
def graphFrameType : String := "PointerToUberGraphFrame"

/-- The fields that a report shows. -/
def shownFields (fields : List Descriptor) : List Descriptor :=
  fields.filter fun d => !d.type.isText graphFrameType

/-- A name without the ending of class names. -/
def classStem (name : String) : String :=
  match name.toList.reverse with
  | 'C' :: '_' :: front => String.ofList front.reverse
  | _ => name

end Report

namespace ClassExport

open Report

/-- The default values of a class; none if they were not loaded. -/
def tags (c : ClassExport) : List DefaultTag :=
  c.defaults.getD []

/-- The lines of a class's report. -/
def reportLines (c : ClassExport) (fields : List Descriptor) : List String :=
  ["Class: " ++ c.name.display, "Parent: " ++ c.superName.display,
   "Flags: " ++ classFlags.format true c.flags.toInt, "Config: " ++ c.configName.display]
    ++ fieldsSection "Properties" (shownFields (withDefaults fields c.tags))
    ++ header "Parent property overrides" ++ (overrides fields c.tags).map overrideLine

/-- The report of a class.  The names of its fields and tags have to be keys. -/
def report (c : ClassExport) : Except Fault Report :=
  match Field.describeAll c.fields with
  | .error e => .error e
  | .ok fields =>
    if fields.all (·.name.isKey) && c.tags.all (·.1.isKey) then
      match c.name with
      | .text name =>
        .ok (.ofLines (fileNameFor "Class" (sanitize (classStem name))) (c.reportLines fields))
      | _ => .error .noMember
    else .error .wrongKind

end ClassExport

/-! ## Exports -/

namespace Export

/-- The export is an event graph. -/
def isGraph : Export → Bool
  | .function f => f.isGraph
  | .generatedClass _ => false

/-- The report of an export of an asset, and the event link found in it. -/
def report (e : Export) (asset : Asset) (index : EventIndex) :
    Except Fault (Report × Option EventLink) :=
  match e with
  | .function f => f.report asset index
  | .generatedClass c => c.report.map fun r => (r, none)

end Export

end Kismet
