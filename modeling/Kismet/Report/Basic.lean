import Kismet.Field.Label
set_option autoImplicit false

/-!
# Report: text files about exports

A report is a text with the name of the file that it belongs in.  It consists of
lines; sections start with a header, and the fields of a section are separated by
empty lines.  Names of exports become file names; characters that file systems refuse
become underscores.
-/

namespace Kismet

/-- A report. -/
structure Report where
  fileName : String
  text : String
  deriving DecidableEq, Repr, Inhabited

namespace Report

/-! ## Lines -/

/-- The line above and below the title of a section. -/
def divider : String := String.ofList (List.replicate 80 '=')

/-- The lines that start a section. -/
def header (title : String) : List String :=
  ["", divider, title, divider]

/-- The line with the default of a field, if it has one. -/
def defaultLines : Option String → List String
  | some text => ["Default: " ++ text]
  | none => []

/-- The line with the flags of a field, unless none is set. -/
def flagLines : Option Word → List String
  | some flags =>
    if flags.toInt = 0 then [] else ["Flags: " ++ propertyFlags.format true flags.toInt]
  | none => []

/-- The lines about a field. -/
def fieldLines (d : Descriptor) : List String :=
  ["Name: " ++ d.name.display, "Type: " ++ d.type.display]
    ++ defaultLines d.defaultText ++ flagLines d.propertyFlags

/-- Groups of lines, with an empty line between two groups. -/
def paragraphs : List (List String) → List String
  | [] => []
  | [p] => p
  | p :: rest => p ++ "" :: paragraphs rest

/-- A section about fields. -/
def fieldsSection (title : String) (fields : List Descriptor) : List String :=
  header title ++ paragraphs (fields.map fieldLines)

/-- The report with the given lines. -/
def ofLines (fileName : String) (lines : List String) : Report :=
  ⟨fileName, "\n".intercalate lines ++ "\n"⟩

/-! ## File names -/

/-- The character cannot be part of a file name. -/
def isRefused (c : Char) : Bool :=
  c.toNat < 32 || ['<', '>', ':', '"', '/', '\\', '|', '?', '*'].contains c

/-- The name with an underscore for each refused character. -/
def sanitize (name : String) : String :=
  String.ofList (name.toList.map fun c => if isRefused c then '_' else c)

/-- One part of a name; a part that is a single refused character is
replaced. -/
def sanitizePart (s : String) : String :=
  match s.toList with
  | [c] => if isRefused c then "_" else s
  | _ => s

/-- The file name for a document: its parts, of which each has to be a text. -/
def sanitizeDocument : Document → Except Fault String
  | .text s => .ok (sanitize s)
  | d =>
    match d.parts with
    | .error f => .error f
    | .ok ps => (Document.texts ps).map fun ss => String.join (ss.map sanitizePart)

/-- The name of the file for an export of a kind. -/
def fileNameFor (kind name : String) : String :=
  kind ++ "_" ++ name ++ ".txt"

end Report

/-- The descriptions of fields, in order; a missing field has none. -/
def Field.describeAll : List (Option Field) → Except Fault (List Descriptor)
  | [] => .ok []
  | none :: _ => .error .noMember
  | some f :: rest =>
    match f.describe with
    | .error e => .error e
    | .ok d => (describeAll rest).map (d :: ·)

end Kismet
