import Kismet.Opcode.Basic
set_option autoImplicit false

/-!
# Opcode: operand shapes

Opcodes with the same operands share a shape; the opcode decides how they are
sized and labelled.  Terminators and uncharted opcodes have no shape.
-/

namespace Kismet

/-- What operands an instruction has. -/
inductive Shape where
  /-- A tag without operands. -/
  | marker
  /-- A property that is read as a variable. -/
  | variable
  /-- A property as a constant. -/
  | propertyConst
  /-- A conversion between primitive types. -/
  | primitiveCast
  /-- A cast to a class or interface. -/
  | classCast
  /-- A variable and the expression assigned to it. -/
  | assignment
  /-- An assignment into the persistent frame. -/
  | persistentAssignment
  /-- Access to a member of a structure. -/
  | memberContext
  /-- A call by function name. -/
  | virtualCall
  /-- A call of a known function. -/
  | finalCall
  /-- A call through a delegate. -/
  | delegateCall
  /-- One operand and nothing else. -/
  | unary
  /-- A jump to a computed offset. -/
  | computedJump
  /-- A jump to a fixed offset. -/
  | jump
  /-- A jump that is taken when a condition fails. -/
  | jumpIfNot
  /-- An expression evaluated on another object. -/
  | context
  /-- A number, string or name. -/
  | literal
  /-- A localizable text. -/
  | textConst
  /-- An object as a constant. -/
  | objectConst
  /-- Three angles. -/
  | rotationConst
  /-- Three coordinates. -/
  | vectorConst
  /-- Rotation, translation and scale. -/
  | transformConst
  /-- A structure given member by member. -/
  | structConst
  /-- Elements assigned to an array. -/
  | setArray
  /-- An array constant. -/
  | arrayConst
  /-- Elements assigned to a set. -/
  | setSet
  /-- A set constant. -/
  | setConst
  /-- Elements assigned to a map. -/
  | setMap
  /-- A map constant. -/
  | mapConst
  /-- A check with its line number. -/
  | assertion
  /-- An expression that may be skipped. -/
  | skip
  /-- A delegate by function name. -/
  | instanceDelegate
  /-- Two delegates, of which one is added or removed. -/
  | multicastDelegate
  /-- A delegate bound to an object. -/
  | bindDelegate
  /-- An address pushed on the flow stack. -/
  | pushFlow
  /-- An instrumentation event. -/
  | instrumentation
  /-- A choice among cases. -/
  | switchValue
  /-- An element of an array by index. -/
  | arrayGetByRef
  /-- A tag that belongs to no known shape. -/
  | unknown
  /-- A tag with nothing said about its operands. -/
  | bare
  deriving DecidableEq, Repr, Inhabited

/-- The title of a shape in messages. -/
def Shape.title : Shape → String
  | .marker => "MarkerExpr"
  | .variable => "VariableExpr"
  | .propertyConst => "PropertyConstExpr"
  | .primitiveCast => "PrimitiveCastExpr"
  | .classCast => "ClassCastExpr"
  | .assignment => "LetExpr"
  | .persistentAssignment => "LetValueOnPersistentFrameExpr"
  | .memberContext => "StructMemberContextExpr"
  | .virtualCall => "VirtualFunctionExpr"
  | .finalCall => "FinalFunctionExpr"
  | .delegateCall => "CallMulticastDelegateExpr"
  | .unary => "UnaryExpr"
  | .computedJump => "ComputedJumpExpr"
  | .jump => "JumpExpr"
  | .jumpIfNot => "JumpIfNotExpr"
  | .context => "ContextExpr"
  | .literal => "LiteralExpr"
  | .textConst => "TextConstExpr"
  | .objectConst => "ObjectConstExpr"
  | .rotationConst => "RotationConstExpr"
  | .vectorConst => "VectorConstExpr"
  | .transformConst => "TransformConstExpr"
  | .structConst => "StructConstExpr"
  | .setArray => "SetArrayExpr"
  | .arrayConst => "ArrayConstExpr"
  | .setSet => "SetSetExpr"
  | .setConst => "SetConstExpr"
  | .setMap => "SetMapExpr"
  | .mapConst => "MapConstExpr"
  | .assertion => "AssertExpr"
  | .skip => "SkipExpr"
  | .instanceDelegate => "InstanceDelegateExpr"
  | .multicastDelegate => "MulticastDelegateExpr"
  | .bindDelegate => "BindDelegateExpr"
  | .pushFlow => "PushExecutionFlowExpr"
  | .instrumentation => "InstrumentationEventExpr"
  | .switchValue => "SwitchValueExpr"
  | .arrayGetByRef => "ArrayGetByRefExpr"
  | .unknown => "UnknownExpr"
  | .bare => "Expr"

/-- All shapes. -/
def Shape.all : List Shape :=
  [.marker, .variable, .propertyConst, .primitiveCast, .classCast, .assignment,
   .persistentAssignment, .memberContext, .virtualCall, .finalCall, .delegateCall, .unary,
   .computedJump, .jump, .jumpIfNot, .context, .literal, .textConst, .objectConst, .rotationConst,
   .vectorConst, .transformConst, .structConst, .setArray, .arrayConst, .setSet, .setConst,
   .setMap, .mapConst, .assertion, .skip, .instanceDelegate, .multicastDelegate, .bindDelegate,
   .pushFlow, .instrumentation, .switchValue, .arrayGetByRef, .unknown, .bare]

/-- The shape with a title. -/
def Shape.ofTitle? (s : String) : Option Shape :=
  all.find? fun shape => shape.title == s

/-- The shape of an opcode's operands. -/
def Opcode.shape? : Opcode → Option Shape
  | .nothing | .endParmValue | .self | .intZero | .intOne
  | .constTrue | .constFalse | .noObject | .noInterface | .deprecatedOp4A
  | .popExecutionFlow | .breakpoint | .endOfScript | .wireTracepoint | .tracepoint => some .marker
  | .localVariable | .instanceVariable | .defaultVariable | .localOutVariable
  | .classSparseDataVariable => some .variable
  | .propertyConst => some .propertyConst
  | .cast => some .primitiveCast
  | .metaCast | .dynamicCast | .objToInterfaceCast | .crossInterfaceCast
  | .interfaceToObjCast => some .classCast
  | .letField | .letBool | .letMulticastDelegate | .letDelegate | .letObj
  | .letWeakObjPtr => some .assignment
  | .letValueOnPersistentFrame => some .persistentAssignment
  | .structMemberContext => some .memberContext
  | .virtualFunction | .localVirtualFunction => some .virtualCall
  | .finalFunction | .localFinalFunction | .callMath => some .finalCall
  | .callMulticastDelegate => some .delegateCall
  | .ret | .popExecutionFlowIfNot | .interfaceContext | .clearMulticastDelegate | .softObjectConst
  | .fieldPathConst => some .unary
  | .computedJump => some .computedJump
  | .jump => some .jump
  | .jumpIfNot => some .jumpIfNot
  | .classContext | .context | .contextFailSilent => some .context
  | .intConst | .floatConst | .stringConst | .nameConst | .byteConst
  | .intConstByte | .unicodeStringConst | .int64Const | .uInt64Const | .doubleConst
  | .skipOffsetConst => some .literal
  | .textConst => some .textConst
  | .objectConst => some .objectConst
  | .rotationConst => some .rotationConst
  | .vectorConst => some .vectorConst
  | .transformConst => some .transformConst
  | .structConst => some .structConst
  | .setArray => some .setArray
  | .arrayConst => some .arrayConst
  | .setSet => some .setSet
  | .setConst => some .setConst
  | .setMap => some .setMap
  | .mapConst => some .mapConst
  | .assert => some .assertion
  | .skip => some .skip
  | .instanceDelegate => some .instanceDelegate
  | .addMulticastDelegate | .removeMulticastDelegate => some .multicastDelegate
  | .bindDelegate => some .bindDelegate
  | .pushExecutionFlow => some .pushFlow
  | .instrumentationEvent => some .instrumentation
  | .switchValue => some .switchValue
  | .arrayGetByRef => some .arrayGetByRef
  | .nothingInt32 | .bitFieldConst | .endFunctionParms | .endStructConst | .endArray
  | .endSet | .endMap | .endSetConst | .endMapConst | .vector3fConst
  | .endArrayConst | .autoRtfmTransact | .autoRtfmStopTransact | .autoRtfmAbortIfNot => none

end Kismet
