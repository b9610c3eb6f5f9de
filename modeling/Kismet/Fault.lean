import Kismet.Document.Display
import Kismet.Opcode.Shape
set_option autoImplicit false

/-!
# Fault: why something failed

Every failure has a cause; its kind and its message are derived from the cause
alone.  Causes that concern the form of a script or document share one kind,
"MalformedStream".  Causes that concern the use of a single piece of data have a
kind but no message of their own.
-/

namespace Kismet

/-- The cause of a failure. -/
inductive Fault where
  /-- An operand that has to be there is absent. -/
  | missingOperand (offset : Int)
  /-- Instructions are nested more than `limit` deep. -/
  | tooDeep (limit : Nat) (offset : Int)
  /-- A terminator stands on its own. -/
  | strayTerminator (op : Opcode) (offset : Int)
  /-- The operands of an instruction are not those of its opcode. -/
  | wrongShape (op : Opcode) (shape : Shape) (offset : Int)
  /-- A text constant is stored in an unknown way, shown as `kind`. -/
  | unexpectedText (kind : String) (offset : Int)
  /-- A call does not forward one constant. -/
  | notForwarding (event : Document)
  /-- An instruction has no tag. -/
  | untagged (node : Document)
  /-- The object that describes `owner` lacks an operand. -/
  | lacksOperand (owner operand : String)
  /-- The name of a text storage is unknown. -/
  | unknownTextType (given : String)
  /-- The name is not a member of the enumeration. -/
  | unknownMember (enumeration given : String)
  /-- An object is not in any form of a property value. -/
  | unrecognisedValue (keys : List String)
  /-- An asset document is not an object. -/
  | notAnAsset
  /-- Some part of an asset document is badly formed. -/
  | badAsset (path : String) (cause : Fault)
  /-- An instruction cannot be listed. -/
  | unsupported (shown : String) (offset : Int)
  /-- The script of a function was not loaded. -/
  | scriptNotLoaded (function : Document)
  /-- An object lacks a key. -/
  | missingKey (key : String)
  /-- An opcode is not in the table of shapes. -/
  | missingShape (op : Opcode)
  /-- The name is not a flag of the flag set. -/
  | unknownFlag (flagSet : String) (given : String)
  /-- The directory of the asset documents is missing. -/
  | missingRoot (root : String)
  /-- The data is of a kind that does not allow the operation. -/
  | wrongKind
  /-- The data is of the right kind and still cannot be used. -/
  | badValue
  /-- The data has no such part. -/
  | noMember
  /-- A number is too large. -/
  | tooLarge
  /-- A document is nested deeper than it can be read. -/
  | tooNested
  /-- A file does not hold a document. -/
  | notJson
  /-- A string of a document has half of a surrogate pair in it, so it is no text. -/
  | unpaired
  /-- A file does not hold text. -/
  | notUtf8
  /-- A directory stands where a file is needed. -/
  | isDirectory
  /-- A file stands where a directory is needed on the way. -/
  | notDirectory
  /-- A file stands where a directory is to be made. -/
  | alreadyExists
  /-- There is nothing at the path. -/
  | noEntry
  deriving Repr, Inhabited

namespace Fault

/-- The kind of a failure, as it shows in logs. -/
def kind : Fault → String
  | .missingOperand _ | .tooDeep _ _ | .strayTerminator _ _ | .wrongShape _ _ _
  | .unexpectedText _ _ | .notForwarding _ | .untagged _ | .lacksOperand _ _
  | .unknownTextType _ | .unknownMember _ _ | .unrecognisedValue _ | .notAnAsset
  | .badAsset _ _ => "MalformedStream"
  | .unsupported _ _ => "UnsupportedOpcode"
  | .scriptNotLoaded _ => "BytecodeUnavailable"
  | .missingKey _ | .missingShape _ => "KeyError"
  | .unknownFlag _ _ => "ValueError"
  | .missingRoot _ => "FileNotFoundError"
  | .wrongKind => "TypeError"
  | .badValue => "ValueError"
  | .noMember => "AttributeError"
  | .tooLarge => "OverflowError"
  | .tooNested => "RecursionError"
  | .notJson => "JSONDecodeError"
  | .unpaired => "UnicodeEncodeError"
  | .notUtf8 => "UnicodeDecodeError"
  | .isDirectory => "IsADirectoryError"
  | .notDirectory => "NotADirectoryError"
  | .alreadyExists => "FileExistsError"
  | .noEntry => "FileNotFoundError"

/-- The failure concerns the form of a script or document. -/
def isMalformed : Fault → Bool
  | .missingOperand _ | .tooDeep _ _ | .strayTerminator _ _ | .wrongShape _ _ _
  | .unexpectedText _ _ | .notForwarding _ | .untagged _ | .lacksOperand _ _
  | .unknownTextType _ | .unknownMember _ _ | .unrecognisedValue _ | .notAnAsset
  | .badAsset _ _ => true
  | _ => false

/-- The failure concerns the use of a single piece of data. -/
def concernsData : Fault → Bool
  | .missingKey _ | .missingShape _ | .unknownFlag _ _ | .wrongKind | .badValue
  | .noMember => true
  | _ => false

/-- Where in a script something was found. -/
def atOffset (offset : Int) : String :=
  " at 0x" ++ Text.hex 0 offset

/-- The message of a failure, if it has one of its own. -/
def message : Fault → Option String
  | .missingOperand o => some ("missing operand expression" ++ atOffset o)
  | .tooDeep limit o =>
    some ("expression nesting exceeds " ++ toString limit ++ " levels" ++ atOffset o)
  | .strayTerminator op o => some ("unexpected " ++ op.name ++ atOffset o)
  | .wrongShape op shape o =>
    some (op.name ++ atOffset o ++ " carries a " ++ shape.title ++ " record")
  | .unexpectedText kind o => some ("unexpected text literal type " ++ kind ++ atOffset o)
  | .notForwarding event =>
    some ("event " ++ event.display ++ " does not forward a constant ubergraph offset")
  | .untagged node => some ("instruction object without 'inst': " ++ node.inspect)
  | .lacksOperand owner operand => some (owner ++ " is missing operand '" ++ operand ++ "'")
  | .unknownTextType given => some ("unknown text literal type " ++ Text.quoted given)
  | .unknownMember enumeration given =>
    some ("unknown " ++ enumeration ++ " value " ++ Text.quoted given)
  | .unrecognisedValue keys =>
    some ("unrecognised property value: [" ++ ", ".intercalate (keys.map Text.quoted) ++ "]")
  | .notAnAsset => some "asset document must be a JSON object"
  | .badAsset path cause =>
    let place := if path.isEmpty then "asset" else path
    some (place ++ ": " ++ cause.kind ++ (match cause.message with
      | some m => ": " ++ m
      | none => ""))
  | .unsupported shown o =>
    some ("opcode " ++ shown ++ atOffset o ++ " is not supported by the disassembler")
  | .scriptNotLoaded function =>
    some ("script bytecode of " ++ function.display ++ " is not loaded")
  | .missingKey key => some (Text.quoted key)
  | .missingShape op =>
    some ("<ExprToken." ++ op.name ++ ": " ++ toString op.code ++ ">")
  | .unknownFlag flagSet given => some ("unknown " ++ flagSet ++ " value: " ++ Text.quoted given)
  | .missingRoot root =>
    some ("asset root " ++ root ++ " does not exist or is not a directory")
  | _ => none

/-- A failure as it is logged. -/
def logText (f : Fault) : String :=
  "[" ++ f.kind ++ "] " ++ f.message.getD ""

end Fault

end Kismet
