import Kismet.Instr.Basic
import Kismet.Record
set_option autoImplicit false

/-!
# Instr: trees put together by hand

A tree may be given as nested records instead of documents.  Records are taken
as they are: what does not fit its place is kept, and is a fault only where a
listing uses it.
-/

namespace Kismet

/-! ## References -/

/-- The place of a property.  Only a record with a `path` can serve as one. -/
def PropertyPath.slotOf : Datum → Slot PropertyPath
  | .null => .empty
  | .record _ fields =>
    match Record.get? fields "path" with
    | none => .unusable .noMember
    | some path =>
      match path.parts.bind Datum.texts with
      | .ok segments => .given ⟨segments⟩
      | .error f => .unusable f
  | _ => .unusable .noMember

/-- The place of an object.  Only a record with a `name` can serve as one. -/
def ObjectRef.slotOf : Datum → Slot ObjectRef
  | .null => .empty
  | .record _ fields =>
    match Record.get? fields "name" with
    | none => .unusable .noMember
    | some name => .given ⟨name, (Record.get? fields "outer").getD .null⟩
  | _ => .unusable .noMember

namespace Instr

/-! ## Operands by kind -/

/-- The fields of a record, together with what assembles the instructions inside
it. -/
structure Piece where
  fields : List (String × Datum)
  self : Datum → Operand

namespace Piece

/-- A field as it is. -/
def datum (p : Piece) (name : String) : Datum :=
  (Record.get? p.fields name).getD .null

/-- A nested instruction. -/
def operand (p : Piece) (name : String) : Operand :=
  p.self (p.datum name)

/-- Nested instructions. -/
def operands (p : Piece) (name : String) : Operands :=
  match (p.datum name).parts with
  | .ok ds => .list (ds.map p.self)
  | .error _ => .unusable

/-- A property. -/
def property (p : Piece) (name : String) : Slot PropertyPath :=
  PropertyPath.slotOf (p.datum name)

/-- An object. -/
def object (p : Piece) (name : String) : Slot ObjectRef :=
  ObjectRef.slotOf (p.datum name)

/-- The text of a text constant. -/
def text (p : Piece) (name : String) : ScriptText :=
  match p.datum name with
  | .record _ fields =>
    match Record.get? fields "literal_type" with
    | none => .foreign
    | some kind =>
      let inner : Piece := ⟨fields, p.self⟩
      .mk kind (inner.operand "namespace") (inner.operand "key") (inner.operand "source")
        (inner.operand "table_id") (inner.object "table")
  | _ => .foreign

/-- One case of a choice. -/
def switchCase (self : Datum → Operand) : Datum → SwitchCase
  | .record _ fields =>
    match Record.get? fields "value", Record.get? fields "next_offset",
      Record.get? fields "term" with
    | some value, some next, some term => .mk (self value) next (self term)
    | some value, _, _ => .valued (self value)
    | none, _, _ => .foreign
  | _ => .foreign

/-- The cases of a choice. -/
def cases (p : Piece) (name : String) : Cases :=
  match (p.datum name).parts with
  | .ok ds => .list (ds.map (switchCase p.self))
  | .error _ => .unusable

end Piece

/-! ## Shapes -/

/-- The operands of a shape. -/
def assembleBody (p : Piece) : Shape → Body
  | .bare => .bare
  | .unknown => .unknown (p.datum "label")
  | .marker => .marker
  | .variable => .variable (p.property "variable")
  | .propertyConst => .propertyConst (p.property "property")
  | .primitiveCast => .primitiveCast (p.datum "conversion") (p.operand "target")
  | .classCast => .classCast (p.object "class_ref") (p.operand "target")
  | .assignment =>
    .assignment (p.operand "variable") (p.operand "assignment") (p.property "property")
  | .persistentAssignment =>
    .persistentAssignment (p.property "destination") (p.operand "assignment")
  | .memberContext => .memberContext (p.property "member") (p.operand "struct_expression")
  | .virtualCall => .virtualCall (p.datum "function_name") (p.operands "parameters")
  | .finalCall => .finalCall (p.object "function") (p.operands "parameters")
  | .delegateCall =>
    .delegateCall (p.object "function") (p.operand "delegate") (p.operands "parameters")
  | .unary => .unary (p.operand "operand")
  | .computedJump => .computedJump (p.operand "offset_expression")
  | .jump => .jump (p.datum "code_offset")
  | .jumpIfNot => .jumpIfNot (p.datum "code_offset") (p.operand "condition")
  | .context =>
    .context (p.operand "object_expression") (p.datum "skip_offset") (p.property "rvalue")
      (p.operand "context_expression")
  | .literal => .literal (p.datum "value")
  | .textConst => .textConst (p.text "text")
  | .objectConst => .objectConst (p.object "value")
  | .rotationConst => .rotationConst (p.datum "pitch") (p.datum "yaw") (p.datum "roll")
  | .vectorConst => .vectorConst (p.datum "x") (p.datum "y") (p.datum "z")
  | .transformConst =>
    .transformConst (p.datum "rotation") (p.datum "translation") (p.datum "scale")
  | .structConst =>
    .structConst (p.object "struct") (p.datum "struct_size") (p.operands "properties")
  | .setArray =>
    .setArray (p.operands "elements") (p.operand "assigning_property") (p.datum "inner_property")
  | .arrayConst => .arrayConst (p.property "inner_property") (p.operands "elements")
  | .setSet => .setSet (p.operand "set_property") (p.operands "elements")
  | .setConst => .setConst (p.property "inner_property") (p.operands "elements")
  | .setMap => .setMap (p.operand "map_property") (p.operands "elements")
  | .mapConst =>
    .mapConst (p.property "key_property") (p.property "value_property") (p.operands "elements")
  | .assertion =>
    .assertion (p.datum "line_number") (p.datum "debug_mode") (p.operand "expression")
  | .skip => .skip (p.datum "code_offset") (p.operand "expression")
  | .instanceDelegate => .instanceDelegate (p.datum "function_name")
  | .multicastDelegate => .multicastDelegate (p.operand "delegate") (p.operand "delegate_to_add")
  | .bindDelegate =>
    .bindDelegate (p.datum "function_name") (p.operand "delegate") (p.operand "object_term")
  | .pushFlow => .pushFlow (p.datum "pushing_address")
  | .instrumentation => .instrumentation (p.datum "event_type") (p.datum "event_name")
  | .switchValue =>
    .switchValue (p.operand "index_term") (p.datum "end_offset") (p.cases "cases")
      (p.operand "default_term")
  | .arrayGetByRef => .arrayGetByRef (p.operand "array_variable") (p.operand "array_index")

/-! ## Instructions -/

/-- One level of an instruction, the instructions inside it assembled by
`self`. -/
def assembleStep (self : Datum → Operand) : Datum → Operand
  | .null => .missing
  | .record title fields =>
    match Shape.ofTitle? title with
    | none => .foreign
    | some shape =>
      let p : Piece := ⟨fields, self⟩
      .instr (.mk (.ofDatum (p.datum "token")) (assembleBody p shape))
  | _ => .foreign

/-- What stands in the place of an instruction, looking at most `bound` levels
deep. -/
def assembleWithin : Nat → Datum → Operand
  | 0 => assembleStep fun _ => .foreign
  | bound + 1 => assembleStep (assembleWithin bound)

/-- What stands in the place of an instruction where a datum is given. -/
def assemble (d : Datum) : Operand :=
  assembleWithin d.depth d

/-- The instructions of a script. -/
def assembleScript (d : Datum) : Except Fault (List Operand) :=
  d.parts.map (List.map assemble)

end Instr

end Kismet
