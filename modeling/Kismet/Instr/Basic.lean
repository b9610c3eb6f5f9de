import Kismet.Symbol
set_option autoImplicit false

/-!
# Instr: instruction trees

An instruction is a tag with the operands of some shape.  Trees that were
decoded from documents always have operands of the shape that belongs to the
tag; trees that were put together by hand need not, and may leave operands out
or put something else in their place.  Scalar operands stay as they were given.
-/

namespace Kismet

/-- What marks an instruction: a code, a word that should name an opcode, or
anything else. -/
inductive Tag where
  | code (n : Int)
  | word (s : String)
  | other (d : Datum)
  deriving Repr, Inhabited

/-- The place of a reference.  Something that cannot serve as the reference is
kept as the fault that its use causes. -/
inductive Slot (α : Type) where
  | empty
  | given (value : α)
  | unusable (fault : Fault)
  deriving Repr, Inhabited

/-- The slot for a reference that may be absent. -/
def Slot.ofOption {α : Type} : Option α → Slot α
  | some a => .given a
  | none => .empty

mutual

/-- An instruction. -/
inductive Instr where
  | mk (tag : Tag) (body : Body)

/-- The place of a nested instruction. -/
inductive Operand where
  /-- Nothing stands there. -/
  | missing
  /-- Something other than an instruction stands there. -/
  | foreign
  | instr (i : Instr)

/-- The place of a list of nested instructions. -/
inductive Operands where
  | list (items : List Operand)
  /-- Something without parts stands there. -/
  | unusable

/-- One case of a choice. -/
inductive SwitchCase where
  | mk (value : Operand) (nextOffset : Datum) (term : Operand)
  /-- Something that has a value, as cases do, but no offset. -/
  | valued (value : Operand)
  /-- Something other than a case. -/
  | foreign

/-- The place of the cases of a choice. -/
inductive Cases where
  | list (items : List SwitchCase)
  /-- Something without parts stands there. -/
  | unusable

/-- The place of the text of a text constant. -/
inductive ScriptText where
  | mk (kind : Datum) (space key source tableId : Operand) (table : Slot ObjectRef)
  /-- Something other than a text stands there. -/
  | foreign

/-- The operands of an instruction, by shape. -/
inductive Body where
  | bare
  | unknown (label : Datum)
  | marker
  | variable (property : Slot PropertyPath)
  | propertyConst (property : Slot PropertyPath)
  | primitiveCast (conversion : Datum) (target : Operand)
  | classCast (targetClass : Slot ObjectRef) (target : Operand)
  | assignment (destination value : Operand) (property : Slot PropertyPath)
  | persistentAssignment (destination : Slot PropertyPath) (value : Operand)
  | memberContext (member : Slot PropertyPath) (struct : Operand)
  | virtualCall (function : Datum) (parameters : Operands)
  | finalCall (function : Slot ObjectRef) (parameters : Operands)
  | delegateCall (function : Slot ObjectRef) (delegate : Operand) (parameters : Operands)
  | unary (operand : Operand)
  | computedJump (target : Operand)
  | jump (target : Datum)
  | jumpIfNot (target : Datum) (condition : Operand)
  | context (object : Operand) (skip : Datum) (rvalue : Slot PropertyPath) (expression : Operand)
  | literal (value : Datum)
  | textConst (text : ScriptText)
  | objectConst (object : Slot ObjectRef)
  | rotationConst (pitch yaw roll : Datum)
  | vectorConst (x y z : Datum)
  | transformConst (rotation translation scale : Datum)
  | structConst (struct : Slot ObjectRef) (size : Datum) (members : Operands)
  | setArray (elements : Operands) (target : Operand) (innerProperty : Datum)
  | arrayConst (inner : Slot PropertyPath) (elements : Operands)
  | setSet (target : Operand) (elements : Operands)
  | setConst (inner : Slot PropertyPath) (elements : Operands)
  | setMap (target : Operand) (elements : Operands)
  | mapConst (key value : Slot PropertyPath) (elements : Operands)
  | assertion (line debug : Datum) (condition : Operand)
  | skip (count : Datum) (expression : Operand)
  | instanceDelegate (function : Datum)
  | multicastDelegate (delegate other : Operand)
  | bindDelegate (function : Datum) (delegate object : Operand)
  | pushFlow (address : Datum)
  | instrumentation (event name : Datum)
  | switchValue (index : Operand) (endOffset : Datum) (cases : Cases) (fallback : Operand)
  | arrayGetByRef (array index : Operand)

end

instance : Inhabited Body := ⟨.bare⟩
instance : Inhabited Instr := ⟨.mk default .bare⟩
instance : Inhabited Operand := ⟨.missing⟩
instance : Inhabited Operands := ⟨.list []⟩
instance : Inhabited SwitchCase := ⟨.foreign⟩
instance : Inhabited Cases := ⟨.list []⟩
instance : Inhabited ScriptText := ⟨.foreign⟩

/-- The number of nested instructions. -/
def Operands.count : Operands → Except Fault Nat
  | .list items => .ok items.length
  | .unusable => .error .wrongKind

/-- The number of cases. -/
def Cases.count : Cases → Except Fault Nat
  | .list items => .ok items.length
  | .unusable => .error .wrongKind

namespace Instr

/-- The tag of an instruction. -/
def tag : Instr → Tag
  | .mk t _ => t

/-- The operands of an instruction. -/
def body : Instr → Body
  | .mk _ b => b

end Instr

/-- The shape of operands. -/
def Body.shape : Body → Shape
  | .bare => .bare
  | .unknown .. => .unknown
  | .marker => .marker
  | .variable .. => .variable
  | .propertyConst .. => .propertyConst
  | .primitiveCast .. => .primitiveCast
  | .classCast .. => .classCast
  | .assignment .. => .assignment
  | .persistentAssignment .. => .persistentAssignment
  | .memberContext .. => .memberContext
  | .virtualCall .. => .virtualCall
  | .finalCall .. => .finalCall
  | .delegateCall .. => .delegateCall
  | .unary .. => .unary
  | .computedJump .. => .computedJump
  | .jump .. => .jump
  | .jumpIfNot .. => .jumpIfNot
  | .context .. => .context
  | .literal .. => .literal
  | .textConst .. => .textConst
  | .objectConst .. => .objectConst
  | .rotationConst .. => .rotationConst
  | .vectorConst .. => .vectorConst
  | .transformConst .. => .transformConst
  | .structConst .. => .structConst
  | .setArray .. => .setArray
  | .arrayConst .. => .arrayConst
  | .setSet .. => .setSet
  | .setConst .. => .setConst
  | .setMap .. => .setMap
  | .mapConst .. => .mapConst
  | .assertion .. => .assertion
  | .skip .. => .skip
  | .instanceDelegate .. => .instanceDelegate
  | .multicastDelegate .. => .multicastDelegate
  | .bindDelegate .. => .bindDelegate
  | .pushFlow .. => .pushFlow
  | .instrumentation .. => .instrumentation
  | .switchValue .. => .switchValue
  | .arrayGetByRef .. => .arrayGetByRef

/-- The parameters of a call; other instructions have none. -/
def Body.parameters? : Body → Option Operands
  | .virtualCall _ ps => some ps
  | .finalCall _ ps => some ps
  | .delegateCall _ _ ps => some ps
  | _ => none

namespace Tag

/-- The tag that a datum is. -/
def ofDatum : Datum → Tag
  | .document (.int n) => .code n
  | .document (.bool b) => .code (truthInt b)
  | .document (.text s) => .word s
  | d => .other d

/-- The opcode that a tag stands for; a real number stands for the code that it
is equal to. -/
def opcode? : Tag → Option Opcode
  | .code n => Opcode.ofCode? n
  | .word s => Opcode.ofName? s
  | .other d => Opcode.all.find? fun op => d.eqInt op.code

/-- The tag is equal to the code of an opcode; a word is not, even if it names
it. -/
def isCodeOf (t : Tag) (op : Opcode) : Bool :=
  match t with
  | .code n => n == op.code
  | .word _ => false
  | .other d => d.eqInt op.code

end Tag

end Kismet
