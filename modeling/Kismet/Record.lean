import Kismet.Datum
set_option autoImplicit false

/-!
# Record: the fields of records

A record is made from a title and some of its fields.  The title decides which
fields there are and in which order; a field that may be left out has a datum
that stands for it then.
-/

namespace Kismet.Record

/-- Field names in order, each with what stands for it if it is left out. -/
abbrev Schema := List (String × Option Datum)

/-- Fields that have to be given. -/
def needed (names : List String) : Schema :=
  names.map fun n => (n, none)

/-- Fields that are absent unless given. -/
def optional (names : List String) : Schema :=
  names.map fun n => (n, some .null)

/-- A field for a sequence, which is empty unless given. -/
def sequence (name : String) : Schema :=
  [(name, some (.tuple []))]

/-- The operands of a shape. -/
def operandSchema : Shape → Schema
  | .bare | .marker => []
  | .unknown => optional ["label"]
  | .variable => needed ["variable"]
  | .propertyConst => needed ["property"]
  | .primitiveCast => needed ["conversion", "target"]
  | .classCast => needed ["class_ref", "target"]
  | .assignment => needed ["variable", "assignment"] ++ optional ["property"]
  | .persistentAssignment => needed ["destination", "assignment"]
  | .memberContext => needed ["member", "struct_expression"]
  | .virtualCall => needed ["function_name"] ++ sequence "parameters"
  | .finalCall => needed ["function"] ++ sequence "parameters"
  | .delegateCall => needed ["function", "delegate"] ++ sequence "parameters"
  | .unary => needed ["operand"]
  | .computedJump => needed ["offset_expression"]
  | .jump => needed ["code_offset"]
  | .jumpIfNot => needed ["code_offset", "condition"]
  | .context => needed ["object_expression", "skip_offset", "rvalue", "context_expression"]
  | .literal => needed ["value"]
  | .textConst => needed ["text"]
  | .objectConst => needed ["value"]
  | .rotationConst => needed ["pitch", "yaw", "roll"]
  | .vectorConst => needed ["x", "y", "z"]
  | .transformConst => needed ["rotation", "translation", "scale"]
  | .structConst => needed ["struct", "struct_size"] ++ sequence "properties"
  | .setArray => sequence "elements" ++ optional ["assigning_property", "inner_property"]
  | .arrayConst => needed ["inner_property"] ++ sequence "elements"
  | .setSet => needed ["set_property"] ++ sequence "elements"
  | .setConst => needed ["inner_property"] ++ sequence "elements"
  | .setMap => needed ["map_property"] ++ sequence "elements"
  | .mapConst => needed ["key_property", "value_property"] ++ sequence "elements"
  | .assertion => needed ["line_number", "debug_mode", "expression"]
  | .skip => needed ["code_offset", "expression"]
  | .instanceDelegate => needed ["function_name"]
  | .multicastDelegate => needed ["delegate", "delegate_to_add"]
  | .bindDelegate => needed ["function_name", "delegate", "object_term"]
  | .pushFlow => needed ["pushing_address"]
  | .instrumentation => needed ["event_type"] ++ optional ["event_name"]
  | .switchValue => needed ["index_term", "end_offset", "cases", "default_term"]
  | .arrayGetByRef => needed ["array_variable", "array_index"]

/-- The fields of the records under a title. -/
def schema? (title : String) : Option Schema :=
  match title with
  | "PropertyPointer" => some (needed ["path"])
  | "ObjectRef" => some (needed ["name"] ++ optional ["outer"])
  | "ScriptText" =>
    some (needed ["literal_type"] ++ optional ["namespace", "key", "source", "table_id", "table"])
  | "SwitchCase" => some (needed ["value", "next_offset", "term"])
  | _ => (Shape.ofTitle? title).map fun shape => needed ["token"] ++ operandSchema shape

/-- The datum of a field. -/
def get? (fields : List (String × Datum)) (name : String) : Option Datum :=
  (fields.find? fun f => f.1 == name).map (·.2)

/-- The fields of a schema, taken from those that are given.  A field that is not
in the schema is a fault, as is one that is left out and has to be given. -/
def fill (schema : Schema) (given : List (String × Datum)) :
    Except Fault (List (String × Datum)) :=
  if given.all fun f => schema.any fun s => s.1 == f.1 then
    schema.mapM fun s =>
      match (get? given s.1).or s.2 with
      | some d => .ok (s.1, d)
      | none => .error .wrongKind
  else .error .wrongKind

end Kismet.Record
