set_option autoImplicit false

/-!
# Opcode: the tags of script bytecode

Every instruction starts with a one-byte tag.  The table gives each tag's code
and name; a tag that is not in the table is not an opcode.
-/

namespace Kismet

/-- The known tags. -/
inductive Opcode where
  | localVariable
  | instanceVariable
  | defaultVariable
  | ret
  | jump
  | jumpIfNot
  | assert
  | nothing
  | nothingInt32
  | letField
  | bitFieldConst
  | classContext
  | metaCast
  | letBool
  | endParmValue
  | endFunctionParms
  | self
  | skip
  | context
  | contextFailSilent
  | virtualFunction
  | finalFunction
  | intConst
  | floatConst
  | stringConst
  | objectConst
  | nameConst
  | rotationConst
  | vectorConst
  | byteConst
  | intZero
  | intOne
  | constTrue
  | constFalse
  | textConst
  | noObject
  | transformConst
  | intConstByte
  | noInterface
  | dynamicCast
  | structConst
  | endStructConst
  | setArray
  | endArray
  | propertyConst
  | unicodeStringConst
  | int64Const
  | uInt64Const
  | doubleConst
  | cast
  | setSet
  | endSet
  | setMap
  | endMap
  | setConst
  | endSetConst
  | mapConst
  | endMapConst
  | vector3fConst
  | structMemberContext
  | letMulticastDelegate
  | letDelegate
  | localVirtualFunction
  | localFinalFunction
  | localOutVariable
  | deprecatedOp4A
  | instanceDelegate
  | pushExecutionFlow
  | popExecutionFlow
  | computedJump
  | popExecutionFlowIfNot
  | breakpoint
  | interfaceContext
  | objToInterfaceCast
  | endOfScript
  | crossInterfaceCast
  | interfaceToObjCast
  | wireTracepoint
  | skipOffsetConst
  | addMulticastDelegate
  | clearMulticastDelegate
  | tracepoint
  | letObj
  | letWeakObjPtr
  | bindDelegate
  | removeMulticastDelegate
  | callMulticastDelegate
  | letValueOnPersistentFrame
  | arrayConst
  | endArrayConst
  | softObjectConst
  | callMath
  | switchValue
  | instrumentationEvent
  | arrayGetByRef
  | classSparseDataVariable
  | fieldPathConst
  | autoRtfmTransact
  | autoRtfmStopTransact
  | autoRtfmAbortIfNot
  deriving DecidableEq, Repr, Inhabited

namespace Opcode

/-- Every opcode, in the order of the codes. -/
def all : List Opcode :=
  [.localVariable, .instanceVariable, .defaultVariable, .ret, .jump, .jumpIfNot, .assert,
   .nothing, .nothingInt32, .letField, .bitFieldConst, .classContext, .metaCast, .letBool,
   .endParmValue, .endFunctionParms, .self, .skip, .context, .contextFailSilent, .virtualFunction,
   .finalFunction, .intConst, .floatConst, .stringConst, .objectConst, .nameConst, .rotationConst,
   .vectorConst, .byteConst, .intZero, .intOne, .constTrue, .constFalse, .textConst, .noObject,
   .transformConst, .intConstByte, .noInterface, .dynamicCast, .structConst, .endStructConst,
   .setArray, .endArray, .propertyConst, .unicodeStringConst, .int64Const, .uInt64Const,
   .doubleConst, .cast, .setSet, .endSet, .setMap, .endMap, .setConst, .endSetConst, .mapConst,
   .endMapConst, .vector3fConst, .structMemberContext, .letMulticastDelegate, .letDelegate,
   .localVirtualFunction, .localFinalFunction, .localOutVariable, .deprecatedOp4A,
   .instanceDelegate, .pushExecutionFlow, .popExecutionFlow, .computedJump,
   .popExecutionFlowIfNot, .breakpoint, .interfaceContext, .objToInterfaceCast, .endOfScript,
   .crossInterfaceCast, .interfaceToObjCast, .wireTracepoint, .skipOffsetConst,
   .addMulticastDelegate, .clearMulticastDelegate, .tracepoint, .letObj, .letWeakObjPtr,
   .bindDelegate, .removeMulticastDelegate, .callMulticastDelegate, .letValueOnPersistentFrame,
   .arrayConst, .endArrayConst, .softObjectConst, .callMath, .switchValue, .instrumentationEvent,
   .arrayGetByRef, .classSparseDataVariable, .fieldPathConst, .autoRtfmTransact,
   .autoRtfmStopTransact, .autoRtfmAbortIfNot]

/-- The byte that stands for the opcode. -/
def code : Opcode → Nat
  | .localVariable => 0x00
  | .instanceVariable => 0x01
  | .defaultVariable => 0x02
  | .ret => 0x04
  | .jump => 0x06
  | .jumpIfNot => 0x07
  | .assert => 0x09
  | .nothing => 0x0B
  | .nothingInt32 => 0x0C
  | .letField => 0x0F
  | .bitFieldConst => 0x11
  | .classContext => 0x12
  | .metaCast => 0x13
  | .letBool => 0x14
  | .endParmValue => 0x15
  | .endFunctionParms => 0x16
  | .self => 0x17
  | .skip => 0x18
  | .context => 0x19
  | .contextFailSilent => 0x1A
  | .virtualFunction => 0x1B
  | .finalFunction => 0x1C
  | .intConst => 0x1D
  | .floatConst => 0x1E
  | .stringConst => 0x1F
  | .objectConst => 0x20
  | .nameConst => 0x21
  | .rotationConst => 0x22
  | .vectorConst => 0x23
  | .byteConst => 0x24
  | .intZero => 0x25
  | .intOne => 0x26
  | .constTrue => 0x27
  | .constFalse => 0x28
  | .textConst => 0x29
  | .noObject => 0x2A
  | .transformConst => 0x2B
  | .intConstByte => 0x2C
  | .noInterface => 0x2D
  | .dynamicCast => 0x2E
  | .structConst => 0x2F
  | .endStructConst => 0x30
  | .setArray => 0x31
  | .endArray => 0x32
  | .propertyConst => 0x33
  | .unicodeStringConst => 0x34
  | .int64Const => 0x35
  | .uInt64Const => 0x36
  | .doubleConst => 0x37
  | .cast => 0x38
  | .setSet => 0x39
  | .endSet => 0x3A
  | .setMap => 0x3B
  | .endMap => 0x3C
  | .setConst => 0x3D
  | .endSetConst => 0x3E
  | .mapConst => 0x3F
  | .endMapConst => 0x40
  | .vector3fConst => 0x41
  | .structMemberContext => 0x42
  | .letMulticastDelegate => 0x43
  | .letDelegate => 0x44
  | .localVirtualFunction => 0x45
  | .localFinalFunction => 0x46
  | .localOutVariable => 0x48
  | .deprecatedOp4A => 0x4A
  | .instanceDelegate => 0x4B
  | .pushExecutionFlow => 0x4C
  | .popExecutionFlow => 0x4D
  | .computedJump => 0x4E
  | .popExecutionFlowIfNot => 0x4F
  | .breakpoint => 0x50
  | .interfaceContext => 0x51
  | .objToInterfaceCast => 0x52
  | .endOfScript => 0x53
  | .crossInterfaceCast => 0x54
  | .interfaceToObjCast => 0x55
  | .wireTracepoint => 0x5A
  | .skipOffsetConst => 0x5B
  | .addMulticastDelegate => 0x5C
  | .clearMulticastDelegate => 0x5D
  | .tracepoint => 0x5E
  | .letObj => 0x5F
  | .letWeakObjPtr => 0x60
  | .bindDelegate => 0x61
  | .removeMulticastDelegate => 0x62
  | .callMulticastDelegate => 0x63
  | .letValueOnPersistentFrame => 0x64
  | .arrayConst => 0x65
  | .endArrayConst => 0x66
  | .softObjectConst => 0x67
  | .callMath => 0x68
  | .switchValue => 0x69
  | .instrumentationEvent => 0x6A
  | .arrayGetByRef => 0x6B
  | .classSparseDataVariable => 0x6C
  | .fieldPathConst => 0x6D
  | .autoRtfmTransact => 0x70
  | .autoRtfmStopTransact => 0x71
  | .autoRtfmAbortIfNot => 0x72

/-- The name of the opcode without the mark that all names begin with. -/
def label : Opcode → String
  | .localVariable => "LocalVariable"
  | .instanceVariable => "InstanceVariable"
  | .defaultVariable => "DefaultVariable"
  | .ret => "Return"
  | .jump => "Jump"
  | .jumpIfNot => "JumpIfNot"
  | .assert => "Assert"
  | .nothing => "Nothing"
  | .nothingInt32 => "NothingInt32"
  | .letField => "Let"
  | .bitFieldConst => "BitFieldConst"
  | .classContext => "ClassContext"
  | .metaCast => "MetaCast"
  | .letBool => "LetBool"
  | .endParmValue => "EndParmValue"
  | .endFunctionParms => "EndFunctionParms"
  | .self => "Self"
  | .skip => "Skip"
  | .context => "Context"
  | .contextFailSilent => "Context_FailSilent"
  | .virtualFunction => "VirtualFunction"
  | .finalFunction => "FinalFunction"
  | .intConst => "IntConst"
  | .floatConst => "FloatConst"
  | .stringConst => "StringConst"
  | .objectConst => "ObjectConst"
  | .nameConst => "NameConst"
  | .rotationConst => "RotationConst"
  | .vectorConst => "VectorConst"
  | .byteConst => "ByteConst"
  | .intZero => "IntZero"
  | .intOne => "IntOne"
  | .constTrue => "True"
  | .constFalse => "False"
  | .textConst => "TextConst"
  | .noObject => "NoObject"
  | .transformConst => "TransformConst"
  | .intConstByte => "IntConstByte"
  | .noInterface => "NoInterface"
  | .dynamicCast => "DynamicCast"
  | .structConst => "StructConst"
  | .endStructConst => "EndStructConst"
  | .setArray => "SetArray"
  | .endArray => "EndArray"
  | .propertyConst => "PropertyConst"
  | .unicodeStringConst => "UnicodeStringConst"
  | .int64Const => "Int64Const"
  | .uInt64Const => "UInt64Const"
  | .doubleConst => "DoubleConst"
  | .cast => "Cast"
  | .setSet => "SetSet"
  | .endSet => "EndSet"
  | .setMap => "SetMap"
  | .endMap => "EndMap"
  | .setConst => "SetConst"
  | .endSetConst => "EndSetConst"
  | .mapConst => "MapConst"
  | .endMapConst => "EndMapConst"
  | .vector3fConst => "Vector3fConst"
  | .structMemberContext => "StructMemberContext"
  | .letMulticastDelegate => "LetMulticastDelegate"
  | .letDelegate => "LetDelegate"
  | .localVirtualFunction => "LocalVirtualFunction"
  | .localFinalFunction => "LocalFinalFunction"
  | .localOutVariable => "LocalOutVariable"
  | .deprecatedOp4A => "DeprecatedOp4A"
  | .instanceDelegate => "InstanceDelegate"
  | .pushExecutionFlow => "PushExecutionFlow"
  | .popExecutionFlow => "PopExecutionFlow"
  | .computedJump => "ComputedJump"
  | .popExecutionFlowIfNot => "PopExecutionFlowIfNot"
  | .breakpoint => "Breakpoint"
  | .interfaceContext => "InterfaceContext"
  | .objToInterfaceCast => "ObjToInterfaceCast"
  | .endOfScript => "EndOfScript"
  | .crossInterfaceCast => "CrossInterfaceCast"
  | .interfaceToObjCast => "InterfaceToObjCast"
  | .wireTracepoint => "WireTracepoint"
  | .skipOffsetConst => "SkipOffsetConst"
  | .addMulticastDelegate => "AddMulticastDelegate"
  | .clearMulticastDelegate => "ClearMulticastDelegate"
  | .tracepoint => "Tracepoint"
  | .letObj => "LetObj"
  | .letWeakObjPtr => "LetWeakObjPtr"
  | .bindDelegate => "BindDelegate"
  | .removeMulticastDelegate => "RemoveMulticastDelegate"
  | .callMulticastDelegate => "CallMulticastDelegate"
  | .letValueOnPersistentFrame => "LetValueOnPersistentFrame"
  | .arrayConst => "ArrayConst"
  | .endArrayConst => "EndArrayConst"
  | .softObjectConst => "SoftObjectConst"
  | .callMath => "CallMath"
  | .switchValue => "SwitchValue"
  | .instrumentationEvent => "InstrumentationEvent"
  | .arrayGetByRef => "ArrayGetByRef"
  | .classSparseDataVariable => "ClassSparseDataVariable"
  | .fieldPathConst => "FieldPathConst"
  | .autoRtfmTransact => "AutoRtfmTransact"
  | .autoRtfmStopTransact => "AutoRtfmStopTransact"
  | .autoRtfmAbortIfNot => "AutoRtfmAbortIfNot"

/-- What every opcode's name begins with. -/
def mark : String := "EX_"

/-- The name of the opcode. -/
def name (op : Opcode) : String :=
  mark ++ op.label

/-- The opcode with a code. -/
def ofCode? (n : Int) : Option Opcode :=
  all.find? fun op => (op.code : Int) == n

/-- The opcode with a name. -/
def ofName? (s : String) : Option Opcode :=
  all.find? fun op => op.name == s

/-- The opcode closes a list.  Such tags are implied by the list they close and
never stand on their own. -/
def isTerminator : Opcode → Bool
  | .endArray | .endArrayConst | .endFunctionParms | .endMap
  | .endMapConst | .endSet | .endSetConst | .endStructConst => true
  | _ => false

/-- The opcode is known by name only: what its operands are is not. -/
def isUncharted : Opcode → Bool
  | .nothingInt32 | .bitFieldConst | .vector3fConst
  | .autoRtfmTransact | .autoRtfmStopTransact | .autoRtfmAbortIfNot => true
  | _ => false

/-- The opcode can be listed. -/
def isSupported (op : Opcode) : Bool :=
  !op.isTerminator && !op.isUncharted

end Opcode

end Kismet
