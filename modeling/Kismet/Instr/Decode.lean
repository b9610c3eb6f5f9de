import Kismet.Enumeration
import Kismet.Instr.Basic
set_option autoImplicit false

/-!
# Instr: decoding

Documents describe an instruction by an object with its tag under `inst` and
each operand under its name.  Operands are read in a fixed order, so the first
one that is missing or badly formed decides the fault.  A tag without a known
shape decodes whatever the object holds besides.
-/

namespace Kismet.Instr

/-! ## Operands by kind -/

/-- An object that describes an instruction, together with the reader of the
instructions inside it. -/
structure Node where
  op : Opcode
  fields : Fields
  self : Document → Except Fault Instr

namespace Node

/-- An operand that has to be there. -/
def required (n : Node) (name : String) : Except Fault Document :=
  match Fields.get? n.fields name with
  | some d => .ok d
  | none => .error (.lacksOperand n.op.name name)

/-- A nested instruction, which may be absent. -/
def readOperand (self : Document → Except Fault Instr) : Document → Except Fault Operand
  | .null => .ok .missing
  | d => (self d).map .instr

/-- Nested instructions, of which none may be absent. -/
def readOperands (self : Document → Except Fault Instr) (d : Document) :
    Except Fault Operands :=
  match d.parts with
  | .error f => .error f
  | .ok ps => (ps.mapM fun p => (self p).map .instr).map .list

/-- A nested instruction under a name. -/
def operand (n : Node) (name : String) : Except Fault Operand := do
  readOperand n.self (← n.required name)

/-- A nested instruction under a name that may be left out. -/
def operandOr (n : Node) (name : String) : Except Fault Operand :=
  readOperand n.self (Fields.getOrNull n.fields name)

/-- Nested instructions under a name that may be left out. -/
def operandsOr (n : Node) (name : String) : Except Fault Operands :=
  readOperands n.self ((Fields.get? n.fields name).getD (.list []))

/-- A property under a name. -/
def property (n : Node) (name : String) : Except Fault (Slot PropertyPath) := do
  return .ofOption (← PropertyPath.decode (← n.required name))

/-- A property under a name that may be left out. -/
def propertyOr (n : Node) (name : String) : Except Fault (Slot PropertyPath) := do
  return .ofOption (← PropertyPath.decode (Fields.getOrNull n.fields name))

/-- An object under a name. -/
def object (n : Node) (name : String) : Except Fault (Slot ObjectRef) := do
  return .ofOption (← ObjectRef.decode (← n.required name))

/-- Real numbers under a name. -/
def reals (n : Node) (name : String) : Except Fault Datum := do
  return .tuple (← (← (← n.required name).parts).mapM fun d =>
    d.toReal.map fun x => .document (.real x))

/-- A member of an enumeration under a name, as a number. -/
def member (n : Node) (e : Enumeration) (name : String) : Except Fault Document := do
  return .int (← e.decode (← n.required name))

/-- A scalar under a name that may be left out. -/
def scalarOr (n : Node) (name : String) : Document :=
  Fields.getOrNull n.fields name

end Node

/-! ## Texts and choices -/

/-- An operand of an object that says itself what it describes. -/
def ownOperand (d : Document) (name : String) : Except Fault Document :=
  match d with
  | .object fields =>
    match Fields.get? fields name with
    | some v => .ok v
    | none => .error (.lacksOperand (Fields.getOrNull fields "inst").display name)
  | _ => .error .wrongKind

/-- How a text is stored, by name or number. -/
def textKind : Document → Except Fault Int
  | .text s =>
    match textLiteralTypes.value? s with
    | some n => .ok n
    | none => .error (.unknownTextType s)
  | d => d.toInt

/-- The operands of a text constant. -/
def decodeText (n : Node) : Except Fault Body := do
  let kind ← textKind (← ownOperand (.object n.fields) "literal_type")
  let space ← n.operandOr "namespace"
  let key ← n.operandOr "key"
  let source ← n.operandOr "source"
  let tableId ← n.operandOr "table_id"
  let table ← ObjectRef.decode (Fields.getOrNull n.fields "table")
  return .textConst (.mk (.document (.int kind)) space key source tableId (.ofOption table))

/-- One case of a choice. -/
def decodeCase (self : Document → Except Fault Instr) (d : Document) :
    Except Fault SwitchCase := do
  let value ← self (← ownOperand d "value")
  let next ← (← ownOperand d "next_offset").toInt
  let term ← self (← ownOperand d "term")
  return .mk (.instr value) (.document (.int next)) (.instr term)

/-- The operands of a choice. -/
def decodeSwitch (n : Node) : Except Fault Body := do
  let index ← n.self (← ownOperand (.object n.fields) "index_term")
  let finish ← (← ownOperand (.object n.fields) "end_offset").toInt
  let cases ← (← ((Fields.get? n.fields "cases").getD (.list [])).parts).mapM (decodeCase n.self)
  let fallback ← n.self (← ownOperand (.object n.fields) "default_term")
  return .switchValue (.instr index) (.document (.int finish)) (.list cases) (.instr fallback)

/-! ## Shapes -/

/-- The operands of a shape. -/
def decodeBody (n : Node) : Shape → Except Fault Body
  | .bare => return .bare
  | .unknown => return .unknown .null
  | .marker => return .marker
  | .variable => return .variable (← n.property "variable")
  | .propertyConst => return .propertyConst (← n.property "property")
  | .primitiveCast =>
    return .primitiveCast (← n.member castTokens "conversion") (← n.operand "target")
  | .classCast => return .classCast (← n.object "class_ref") (← n.operand "target")
  | .assignment =>
    return .assignment (← n.operand "variable") (← n.operand "assignment")
      (← n.propertyOr "property")
  | .persistentAssignment =>
    return .persistentAssignment (← n.property "destination") (← n.operand "assignment")
  | .memberContext =>
    return .memberContext (← n.property "member") (← n.operand "struct_expression")
  | .virtualCall =>
    return .virtualCall (← n.required "function_name") (← n.operandsOr "parameters")
  | .finalCall => return .finalCall (← n.object "function") (← n.operandsOr "parameters")
  | .delegateCall =>
    return .delegateCall (← n.object "function") (← n.operand "delegate")
      (← n.operandsOr "parameters")
  | .unary => return .unary (← n.operand "operand")
  | .computedJump => return .computedJump (← n.operand "offset_expression")
  | .jump => return .jump (← n.required "code_offset")
  | .jumpIfNot => return .jumpIfNot (← n.required "code_offset") (← n.operand "condition")
  | .context =>
    return .context (← n.operand "object_expression") (← n.required "skip_offset")
      (← n.property "rvalue") (← n.operand "context_expression")
  | .literal => return .literal (← n.required "value")
  | .textConst => decodeText n
  | .objectConst => return .objectConst (← n.object "value")
  | .rotationConst =>
    return .rotationConst (← n.required "pitch") (← n.required "yaw") (← n.required "roll")
  | .vectorConst => return .vectorConst (← n.required "x") (← n.required "y") (← n.required "z")
  | .transformConst =>
    return .transformConst (← n.reals "rotation") (← n.reals "translation") (← n.reals "scale")
  | .structConst =>
    return .structConst (← n.object "struct") (← n.required "struct_size")
      (← n.operandsOr "properties")
  | .setArray =>
    return .setArray (← n.operandsOr "elements") (← n.operandOr "assigning_property")
      (n.scalarOr "inner_property")
  | .arrayConst => return .arrayConst (← n.property "inner_property") (← n.operandsOr "elements")
  | .setSet => return .setSet (← n.operand "set_property") (← n.operandsOr "elements")
  | .setConst => return .setConst (← n.property "inner_property") (← n.operandsOr "elements")
  | .setMap => return .setMap (← n.operand "map_property") (← n.operandsOr "elements")
  | .mapConst =>
    return .mapConst (← n.property "key_property") (← n.property "value_property")
      (← n.operandsOr "elements")
  | .assertion =>
    return .assertion (← n.required "line_number") (← n.required "debug_mode")
      (← n.operand "expression")
  | .skip => return .skip (← n.required "code_offset") (← n.operand "expression")
  | .instanceDelegate => return .instanceDelegate (← n.required "function_name")
  | .multicastDelegate =>
    return .multicastDelegate (← n.operand "delegate") (← n.operand "delegate_to_add")
  | .bindDelegate =>
    return .bindDelegate (← n.required "function_name") (← n.operand "delegate")
      (← n.operand "object_term")
  | .pushFlow => return .pushFlow (← n.required "pushing_address")
  | .instrumentation =>
    return .instrumentation (← n.member instrumentationTypes "event_type")
      (n.scalarOr "event_name")
  | .switchValue => decodeSwitch n
  | .arrayGetByRef =>
    return .arrayGetByRef (← n.operand "array_variable") (← n.operand "array_index")

/-! ## Instructions -/

/-- The opcode that a document names, by name or code. -/
def opcodeOf? : Document → Option Opcode
  | .text s => Opcode.ofName? s
  | .int n => Opcode.ofCode? n
  | .bool b => Opcode.ofCode? (truthInt b)
  | _ => none

/-- The code of a tag that is not an opcode. -/
def strayCode : Document → Int
  | .int n => n
  | _ => -1

/-- An instruction whose operands are not known. -/
def uncharted (code : Int) (raw : Document) : Instr :=
  .mk (.code code) (.unknown (.document (.text raw.display)))

/-- One level of an instruction, the instructions inside it read by `self`. -/
def decodeStep (self : Document → Except Fault Instr) (d : Document) : Except Fault Instr :=
  match d with
  | .object fields =>
    match Fields.get? fields "inst" with
    | none => .error (.untagged d)
    | some raw =>
      match opcodeOf? raw with
      | none => .ok (uncharted (strayCode raw) raw)
      | some op =>
        match op.shape? with
        | none => .ok (uncharted op.code raw)
        | some shape => (decodeBody ⟨op, fields, self⟩ shape).map (.mk (.code op.code))
  | _ => .error (.untagged d)

/-- The instruction of a document, looking at most `bound` levels deep. -/
def decodeWithin : Nat → Document → Except Fault Instr
  | 0, _ => .error .tooNested
  | bound + 1, d => decodeStep (decodeWithin bound) d

/-- The instruction that a document describes. -/
def decode (d : Document) : Except Fault Instr :=
  decodeWithin (d.depth + 1) d

/-- The instructions of a script. -/
def decodeScript (d : Document) (limits : Limits := {}) : Except Fault (List Instr) :=
  match d.parts with
  | .error f => .error f
  | .ok ps => ps.mapM fun p => decodeWithin (p.room limits) p

end Kismet.Instr
