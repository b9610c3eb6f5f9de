import Kismet.Encoding
import Kismet.Field.Basic
import Kismet.Instr.Decode
import Kismet.Listing.Walk
import Kismet.Log
import Kismet.Path
import Kismet.Value.Basic
set_option autoImplicit false

/-!
# Asset: decoded asset documents

An asset document holds the file versions of a package and its exports.  Of the
exports only functions and generated classes matter; others are skipped.
-/

namespace Kismet

/-- A function of an asset.  Its script is `none` when it was not loaded. -/
structure FunctionExport where
  name : Document
  flags : Word
  fields : List (Option Field)
  script : Option (List Instr)
  deriving Inhabited

/-- A class of an asset, with the default values of its properties. -/
structure ClassExport where
  name : Document
  superName : Document
  flags : Word
  configName : Document
  fields : List (Option Field)
  defaults : Option (List (Document × Value))
  deriving Inhabited

/-- An export that matters. -/
inductive Export where
  | function (f : FunctionExport)
  | generatedClass (c : ClassExport)
  deriving Inhabited

/-- The name of an export. -/
def Export.name : Export → Document
  | .function f => f.name
  | .generatedClass c => c.name

/-- An asset. -/
structure Asset where
  name : Document
  path : Document
  encoding : Encoding
  exports : List Export
  deriving Inhabited

/-- The functions of an asset. -/
def Asset.functions (a : Asset) : List FunctionExport :=
  a.exports.filterMap fun
    | .function f => some f
    | .generatedClass _ => none

/-- The classes of an asset. -/
def Asset.classes (a : Asset) : List ClassExport :=
  a.exports.filterMap fun
    | .function _ => none
    | .generatedClass c => some c

/-! ## Decoding -/

/-- The fields of an export. -/
def Export.decodeFields (fields : Fields) (limits : Limits := {}) :
    Except Fault (List (Option Field)) :=
  Value.decodeParts (fun d => Field.decodeWithin (d.room limits) d)
    ((Fields.get? fields "fields").getD (.list []))

/-- A function. -/
def FunctionExport.decode (fields : Fields) (declared : List (Option Field))
    (limits : Limits := {}) : Except Fault FunctionExport := do
  let name ← Document.item (.object fields) "name"
  let flags ← functionFlags.parse (Fields.getOrNull fields "flags")
  let script ← match Fields.getOrNull fields "bytecode" with
    | .null => pure none
    | d => (Instr.decodeScript d limits).map some
  return { name, flags, script, fields := declared }

/-- A class. -/
def ClassExport.decode (fields : Fields) (declared : List (Option Field))
    (limits : Limits := {}) : Except Fault ClassExport := do
  let name ← Document.item (.object fields) "name"
  let flags ← classFlags.parse (Fields.getOrNull fields "flags")
  let defaults ← match Fields.getOrNull fields "defaults" with
    | .null => pure none
    | d =>
      let member := Value.decodeMember fun v => Value.decodeWithin (v.room limits) v
      (Value.decodeParts member d).map some
  return {
    name, flags, defaults, fields := declared
    superName := (Fields.get? fields "super").getD (.text "")
    configName := (Fields.get? fields "config").getD (.text "") }

/-- An export; `none` if it is of another type.  The fields are read before the
type is looked at. -/
def Export.decode (d : Document) (limits : Limits := {}) : Except Fault (Option Export) := do
  let fields ← d.fields
  let type := Fields.getOrNull fields "type"
  let declared ← Export.decodeFields fields limits
  if type.isText "Function" then
    return some (.function (← FunctionExport.decode fields declared limits))
  else if type.isText "BlueprintGeneratedClass" then
    return some (.generatedClass (← ClassExport.decode fields declared limits))
  else return none

namespace Asset

/-- The log entry for an export that is skipped. -/
def skipped (d : Document) : Log.Entry :=
  let fields := match d with
    | .object fs => fs
    | _ => []
  ⟨.debug, .provider, "skipping export " ++ (Fields.getOrNull fields "name").display
    ++ " of type " ++ (Fields.getOrNull fields "type").display⟩

/-- The exports of an asset, together with the log entries made until the first
fault. -/
def decodeExports (entries : List Document) (limits : Limits := {}) :
    List Log.Entry × Except Fault (List Export) :=
  match entries with
  | [] => ([], .ok [])
  | d :: rest =>
    match Export.decode d limits with
    | .error f => ([], .error f)
    | .ok none =>
      let (log, result) := decodeExports rest limits
      (skipped d :: log, result)
    | .ok (some e) =>
      let (log, result) := decodeExports rest limits
      (log, result.map (e :: ·))

/-- The fault of a document in which `f` arose.  Faults in the use of single
pieces of data become faults of the document. -/
def inDocument (path : String) (f : Fault) : Fault :=
  if f.concernsData then .badAsset path f else f

/-- The asset of an object. -/
def decodeObject (fields : Fields) (path : String) (limits : Limits := {}) :
    List Log.Entry × Except Fault Asset :=
  let given := Fields.getOrNull fields "name"
  let name : Document := if given.holds then given else .text (Path.ofText path).stem
  let place : Document := if path.isEmpty then name else .text path
  match Encoding.ofVersions (Fields.getOrNull fields "file_version_ue4")
      (Fields.getOrNull fields "file_version_ue5") with
  | .error f => ([], .error f)
  | .ok encoding =>
    match ((Fields.get? fields "exports").getD (.list [])).parts with
    | .error f => ([], .error f)
    | .ok entries =>
      let (log, exports) := decodeExports entries limits
      (log, exports.map fun es => ⟨name, place, encoding, es⟩)

/-- The asset that a document at `path` holds, with the log of its decoding. -/
def decode (d : Document) (path : String) (limits : Limits := {}) :
    List Log.Entry × Except Fault Asset :=
  match d with
  | .object fields =>
    let (log, result) := decodeObject fields path limits
    (log, result.mapError (inDocument path))
  | _ => ([], .error .notAnAsset)

end Asset

/-! ## Listings of functions -/

/-- Lists the script of a function, with notes for the events in `index`. -/
def FunctionExport.disassemble (f : FunctionExport) (e : Encoding) (index : EventIndex) :
    Except Fault Listing :=
  match f.script with
  | none => .error (.scriptNotLoaded f.name)
  | some script =>
    Kismet.disassemble e ⟨index.find?, f.name, f.flags.isEvent⟩ (script.map .instr)

end Kismet
