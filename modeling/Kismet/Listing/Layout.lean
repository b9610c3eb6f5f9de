import Kismet.Encoding
import Kismet.Enumeration
import Kismet.EventLink
import Kismet.Text.Units
set_option autoImplicit false

/-!
# Listing: layout of instructions

What an instruction contributes to a listing is a sequence of items: bytes that
its operands take, its own line, notes, and the layouts of nested instructions.
Laying out an instruction says everything about its opcode; walking a layout
needs to know nothing about opcodes.

An operand that cannot be used becomes an item that fails, at the place where it
would have been used.
-/

namespace Kismet.Listing

/-! ## Layouts -/

/-- What is to be said about an instruction before its operands matter. -/
inductive Verdict where
  /-- It can be listed. -/
  | accepted
  /-- It is not an instruction. -/
  | foreign
  /-- Its tag cannot be looked up. -/
  | unsearchable
  /-- It is to be refused by the name of its tag, which has none. -/
  | nameless
  /-- It is a terminator. -/
  | terminator (op : Opcode)
  /-- It cannot be listed; `shown` is how messages call it. -/
  | unsupported (shown : String)
  /-- There are rules for its opcode, but no shape to hold its operands against. -/
  | shapeless (op : Opcode)
  /-- Its operands have another shape than its opcode asks for. -/
  | misshapen (op : Opcode) (shape : Shape)
  deriving DecidableEq, Repr, Inhabited

mutual

/-- What stands in the place of an instruction. -/
inductive Layout where
  | missing
  | node (verdict : Verdict) (items : List Item)

/-- A contribution to a listing. -/
inductive Item where
  /-- Bytes of the instruction. -/
  | bytes (count : Int)
  /-- The line of the instruction. -/
  | line (op : Opcode) (detail label : Option String)
  /-- A note. -/
  | note (text : String)
  /-- The end of a block. -/
  | separator
  /-- Items that are indented further. -/
  | indented (items : List Item)
  /-- A nested instruction. -/
  | nested (layout : Layout)
  /-- A call that may link an event to its graph. -/
  | forward (call : StubCall)
  /-- A text constant of an unknown kind. -/
  | refuseText (kind : Datum)
  /-- An operand that cannot be used. -/
  | fail (fault : Fault)

end

/-! ## Sizes of operands -/

/-- Bytes of a small number. -/
def byteSize : Int := 1
/-- Bytes of a short number. -/
def shortSize : Int := 2
/-- Bytes of a number. -/
def intSize : Int := 4
/-- Bytes of a long number. -/
def longSize : Int := 8
/-- Bytes of a single-precision number. -/
def floatSize : Int := 4
/-- Bytes of a double-precision number. -/
def doubleSize : Int := 8
/-- Bytes of a name. -/
def nameSize : Int := 12
/-- Bytes of a reference to an object. -/
def objectSize : Int := 8
/-- Bytes of a reference to a property. -/
def propertySize : Int := 8
/-- Bytes of the terminator of a list. -/
def terminatorSize : Int := 1
/-- Bytes of a narrow string and its end. -/
def narrowSize (s : String) : Int := s.length + 1
/-- Bytes of a wide string and its end. -/
def wideSize (s : String) : Int := (Text.units16 s + 1) * 2

/-! ## Details -/

/-- The text of a property; an absent one has none. -/
def pathText : Slot PropertyPath → Except Fault String
  | .empty => .ok ""
  | .given p => .ok p.display
  | .unusable f => .error f

/-- The name of an object; an absent one has an empty name. -/
def objectName : Slot ObjectRef → Except Fault Datum
  | .empty => .ok (.document (.text ""))
  | .given r => .ok r.name
  | .unusable f => .error f

/-- The text of an object's name. -/
def objectText (r : Slot ObjectRef) : Except Fault String :=
  objectName r >>= Datum.shown

/-- The name of an object after its outer object. -/
def qualifiedText : Slot ObjectRef → Except Fault String
  | .empty => .ok ""
  | .given r => if r.isShowable then .ok (r.qualified.display?.getD "") else .error .badValue
  | .unusable f => .error f

/-- Three coordinates with their names. -/
def tripleText (a b c : String) (x y z : Datum) : Except Fault String := do
  return a ++ "=" ++ (← x.brief) ++ ", " ++ b ++ "=" ++ (← y.brief) ++ ", " ++ c ++ "="
    ++ (← z.brief)

/-- The three parts of a datum that has exactly three. -/
def triple (d : Datum) : Except Fault (Datum × Datum × Datum) :=
  match d.parts with
  | .ok [x, y, z] => .ok (x, y, z)
  | .ok _ => .error .badValue
  | .error f => .error f

/-- The four parts of a datum that has exactly four. -/
def quadruple (d : Datum) : Except Fault (Datum × Datum × Datum × Datum) :=
  match d.parts with
  | .ok [x, y, z, w] => .ok (x, y, z, w)
  | .ok _ => .error .badValue
  | .error f => .error f

/-- A transform.  The numbers of coordinates are checked before any of them is
written. -/
def transformText (rotation translation scale : Datum) : Except Fault String := do
  let (rx, ry, rz, rw) ← quadruple rotation
  let (tx, ty, tz) ← triple translation
  let (sx, sy, sz) ← triple scale
  let r ← tripleText "X" "Y" "Z" rx ry rz
  let w ← rw.brief
  let t ← tripleText "X" "Y" "Z" tx ty tz
  let s ← tripleText "X" "Y" "Z" sx sy sz
  return "Rotation=(" ++ r ++ ", W=" ++ w ++ ") Translation=(" ++ t ++ ") Scale3D=(" ++ s ++ ")"

/-- The datum as a whole number in decimal. -/
def decimalText (d : Datum) : Except Fault String :=
  d.toInt >>= fun n => (Datum.document (.int n)).shown

/-- Bytes and detail of a literal.  A literal whose tag is not a code is taken
for a small number. -/
def literalParts (op : Option Opcode) (value : Datum) : Int × Except Fault String :=
  match op with
  | some .intConst => (intSize, decimalText value)
  | some .int64Const | some .uInt64Const => (longSize, decimalText value)
  | some .skipOffsetConst => (intSize, value.toInt.map Document.addressText)
  | some .floatConst => (floatSize, value.toReal.map Binary64.brief)
  | some .doubleConst => (doubleSize, value.toReal.map Binary64.brief)
  | some .stringConst => (narrowSize value.display, value.shown)
  | some .unicodeStringConst => (wideSize value.display, value.shown)
  | some .nameConst => (nameSize, value.shown)
  | _ => (byteSize, value.toInt.map Document.addressText)

/-- The instruction's own line.  A tag that is a word cannot be written. -/
def headline (tag : Tag) (op : Opcode) (detail : Except Fault (Option String))
    (label : Option String) : List Item :=
  match detail with
  | .error f => [.fail f]
  | .ok d =>
    match tag with
    | .word _ => [.fail .badValue]
    | _ => [.line op d label]

/-- The instruction's own line with a detail. -/
def detailed (tag : Tag) (op : Opcode) (detail : Except Fault String) : List Item :=
  headline tag op (detail.map some) none

/-- The instruction's own line without detail. -/
def undetailed (tag : Tag) (op : Opcode) : List Item :=
  headline tag op (.ok none) none

/-- A note that may fail. -/
def noted (text : Except Fault String) : List Item :=
  match text with
  | .ok t => [.note t]
  | .error f => [.fail f]

/-! ## Verdicts -/

/-- How messages call a code. -/
def codeText (n : Int) : String :=
  "0x" ++ Text.hex 2 n

/-- How messages call a label: numbers as codes, all else quoted. -/
def labelText : Datum → String
  | .document (.int n) => codeText n
  | .document (.bool b) => codeText (truthInt b)
  | d => d.inspect

/-- How messages call an instruction that cannot be listed: by its label if it
has one, else by its tag. -/
def shownAs (body : Body) (tagText : String) : String :=
  match body with
  | .unknown label => if label.holds then labelText label else tagText
  | _ => tagText

/-- How messages call a tag; `op` is the opcode that it stands for, if any. -/
def tagText (tag : Tag) (op : Option Opcode) : String :=
  match tag, op with
  | .other d, _ => d.inspect
  | _, some op => codeText op.code
  | .code n, none => codeText n
  | .word s, none => Text.quoted s

/-- The tag can be looked up among the opcodes. -/
def isSearchable : Tag → Bool
  | .other d => d.isKey
  | _ => true

/-- The refusal `v` of a tag by its name, which only codes and words have. -/
def byName (tag : Tag) (v : Verdict) : Verdict :=
  match tag with
  | .other _ => .nameless
  | _ => v

/-- There are rules for laying out the opcode.  This table is apart from that of the
shapes, and a tag is looked up here first. -/
def hasRules : Opcode → Bool
  | .cast
  | .objToInterfaceCast | .crossInterfaceCast | .interfaceToObjCast | .metaCast | .dynamicCast
  | .localVariable | .instanceVariable | .defaultVariable | .localOutVariable
  | .classSparseDataVariable
  | .letField | .letObj | .letWeakObjPtr | .letBool | .letDelegate | .letMulticastDelegate
  | .letValueOnPersistentFrame
  | .structMemberContext | .context | .contextFailSilent | .classContext
  | .arrayGetByRef
  | .virtualFunction | .localVirtualFunction
  | .finalFunction | .localFinalFunction | .callMath
  | .callMulticastDelegate
  | .jump | .computedJump | .jumpIfNot | .pushExecutionFlow | .popExecutionFlow
  | .assert | .skip | .switchValue
  | .ret | .interfaceContext | .softObjectConst | .fieldPathConst | .clearMulticastDelegate
  | .popExecutionFlowIfNot
  | .nothing | .endOfScript | .intZero | .intOne | .constTrue | .constFalse | .noObject
  | .noInterface | .self | .endParmValue | .breakpoint | .wireTracepoint | .tracepoint
  | .deprecatedOp4A
  | .instrumentationEvent
  | .instanceDelegate | .addMulticastDelegate | .removeMulticastDelegate | .bindDelegate
  | .intConst | .int64Const | .uInt64Const | .skipOffsetConst | .floatConst | .doubleConst
  | .stringConst | .unicodeStringConst | .nameConst | .byteConst | .intConstByte
  | .propertyConst | .objectConst | .rotationConst | .vectorConst | .transformConst | .textConst
  | .structConst | .setArray | .arrayConst | .setSet | .setConst | .setMap | .mapConst => true
  | _ => false

/-- What is to be said about a tag and operands. -/
def verdict (tag : Tag) (body : Body) : Verdict :=
  if !isSearchable tag then .unsearchable
  else
    match tag.opcode? with
    | none => .unsupported (shownAs body (tagText tag none))
    | some op =>
      if op.isTerminator then byName tag (.terminator op)
      else if !hasRules op then .unsupported (shownAs body (tagText tag op))
      else
        match op.shape? with
        | none => .shapeless op
        | some shape =>
          if body.shape = shape then .accepted else byName tag (.misshapen op body.shape)

/-! ## Instructions -/

/-- The call of a stub, if the instruction is one. -/
def stubCall (tag : Tag) (function : Slot ObjectRef) (parameters : Operands) : List Item :=
  match parameters with
  | .list [.instr (.mk constantTag (.literal constant))] =>
    if tag.isCodeOf .localFinalFunction && constantTag.isCodeOf .intConst then
      [.forward ⟨tag, function, constantTag, constant⟩]
    else []
  | _ => []

/-- The line of an instruction without operands. -/
def markerItems (tag : Tag) (op : Opcode) : List Item :=
  match op with
  | .popExecutionFlow =>
    detailed tag op (.ok "Jump to statement at FlowStack.Pop()") ++ [.separator]
  | .deprecatedOp4A => detailed tag op (.ok "This opcode has been removed and does nothing.")
  | _ => undetailed tag op

/-- The detail of an instruction with a single operand. -/
def unaryDetail (op : Opcode) : Option String :=
  match op with
  | .popExecutionFlowIfNot => some "Jump to statement at FlowStack.Pop(). Condition:"
  | _ => none

/-- The opcode of a tag that is not a word. -/
def exactOpcode (tag : Tag) (op : Opcode) : Option Opcode :=
  match tag with
  | .word _ => none
  | _ => some op

/-- A labelled part of a text constant. -/
def labelled (label : String) (part : Layout) : List Item :=
  [.note label, .indented [.nested part]]

/-- The items of a text constant, from the layouts of its parts. -/
def textItems (tag : Tag) (op : Opcode) (kind : Datum) (space key source tableId : Layout) :
    List Item :=
  .bytes byteSize ::
    (if kind.eqInt 0 then detailed tag op (.ok "Empty")
    else if kind.eqInt 1 then
      detailed tag op (.ok "Localized \x7b")
        ++ [.indented (labelled "namespace: " space ++ labelled "key: " key
              ++ labelled "source: " source),
            .note "\x7d"]
    else if kind.eqInt 2 then
      detailed tag op (.ok "Invariant \x7b") ++ [.indented [.nested source], .note "\x7d"]
    else if kind.eqInt 3 then
      detailed tag op (.ok "Literal \x7b") ++ [.indented [.nested source], .note "\x7d"]
    else if kind.eqInt 4 then
      .bytes objectSize :: detailed tag op (.ok "String table entry \x7b")
        ++ [.indented (labelled "tableid: " tableId ++ labelled "key: " key), .note "\x7d"]
    else [.refuseText kind])

/-- The items of a list of nested instructions and of its terminator. -/
def closed (elements : List Layout) : List Item :=
  elements.map .nested ++ [.bytes terminatorSize]

mutual

/-- The layout of an instruction. -/
def layout (e : Encoding) : Instr → Layout
  | .mk tag body =>
    match tag.opcode? with
    | none => .node (verdict tag body) []
    | some op => .node (verdict tag body) (bodyItems e tag op body)

/-- The layout of what stands in the place of an instruction. -/
def operandLayout (e : Encoding) : Operand → Layout
  | .missing => .missing
  | .foreign => .node .foreign []
  | .instr i => layout e i

/-- The layouts of a list of operands. -/
def operandLayouts (e : Encoding) : List Operand → List Layout
  | [] => []
  | o :: rest => operandLayout e o :: operandLayouts e rest

/-- The items of the place of a list of nested instructions. -/
def listItems (e : Encoding) : Operands → List Item
  | .list items => closed (operandLayouts e items)
  | .unusable => [.fail .wrongKind]

/-- The items of one case of a choice. -/
def caseItems (e : Encoding) : SwitchCase → List Item
  | .mk value next term =>
    [.nested (operandLayout e value),
     .indented
       (.bytes intSize :: noted (next.address.map fun a => "Offset of next case: " ++ a)
         ++ [.note "Case Term:", .nested (operandLayout e term)])]
  | .valued value => [.nested (operandLayout e value), .fail .noMember]
  | .foreign => [.fail .noMember]

/-- The items of the cases of a choice, numbered from `index` on. -/
def numberedItems (e : Encoding) (index : Nat) : List SwitchCase → List Item
  | [] => []
  | c :: rest =>
    .note ("Case " ++ toString index ++ ":") :: caseItems e c ++ numberedItems e (index + 1) rest

/-- The items of the place of the cases of a choice. -/
def choiceItems (e : Encoding) : Cases → List Item
  | .list cases => numberedItems e 0 cases
  | .unusable => [.fail .wrongKind]

/-- The items of the place of the text of a text constant. -/
def scriptTextItems (e : Encoding) (tag : Tag) (op : Opcode) : ScriptText → List Item
  | .mk kind space key source tableId _ =>
    textItems tag op kind (operandLayout e space) (operandLayout e key) (operandLayout e source)
      (operandLayout e tableId)
  | .foreign => [.bytes byteSize, .fail .noMember]

/-- The items of an instruction with an opcode. -/
def bodyItems (e : Encoding) (tag : Tag) (op : Opcode) : Body → List Item
  | .bare | .unknown _ => []
  | .marker => markerItems tag op
  | .variable p => .bytes propertySize :: detailed tag op (pathText p)
  | .propertyConst p => .bytes propertySize :: detailed tag op (pathText p)
  | .primitiveCast conversion target =>
    .bytes byteSize
      :: headline tag op ((castTokens.labelOf conversion).map fun t => some ("Type " ++ t))
          (some "PrimitiveCast")
      ++ [.note "Argument:", .nested (operandLayout e target)]
  | .classCast c target =>
    let suffix := if op = .metaCast ∨ op = .dynamicCast then " of expr:" else ""
    .bytes objectSize
      :: detailed tag op ((objectText c).map fun n => "Cast to " ++ n ++ suffix)
      ++ [.nested (operandLayout e target)]
  | .assignment destination value _ =>
    detailed tag op (.ok "Variable = Expression")
      ++ (if op = .letField then [.bytes propertySize] else [])
      ++ [.indented [.note "Variable:", .nested (operandLayout e destination),
            .note "Expression:", .nested (operandLayout e value)]]
  | .persistentAssignment p value =>
    undetailed tag op
      ++ [.indented (.bytes propertySize
            :: noted ((pathText p).map fun t => "Destination variable: " ++ t)
            ++ [.note "Expression:", .nested (operandLayout e value)])]
  | .memberContext p struct =>
    undetailed tag op
      ++ [.indented (.bytes propertySize
            :: noted ((pathText p).map fun t => "Member name: " ++ t)
            ++ [.note "Expression to struct:", .nested (operandLayout e struct)])]
  | .context object skip rvalue expression =>
    undetailed tag op
      ++ [.indented ([.note "ObjectExpression:", .nested (operandLayout e object)]
            ++ (if op = .contextFailSilent then [.note "Can fail silently on access none"] else [])
            ++ .bytes intSize :: noted (skip.shown.map fun t => "Skip " ++ t ++ " bytes")
            ++ .bytes propertySize
            :: noted ((pathText rvalue).map fun t => "R-Value Property: " ++ t)
            ++ [.note "ContextExpression:", .nested (operandLayout e expression)])]
  | .arrayGetByRef array index =>
    undetailed tag op
      ++ [.indented [.nested (operandLayout e array), .nested (operandLayout e index)]]
  | .virtualCall function parameters =>
    .bytes nameSize :: headline tag op function.shown? none
      ++ listItems e parameters
  | .finalCall function parameters =>
    .bytes objectSize :: detailed tag op (qualifiedText function)
      ++ listItems e parameters ++ stubCall tag function parameters
  | .delegateCall function delegate parameters =>
    .bytes objectSize :: detailed tag op (qualifiedText function)
      ++ [.nested (operandLayout e delegate),
          .indented (.note "Params:" :: listItems e parameters)]
  | .jump target =>
    .bytes intSize :: detailed tag op (target.address.map fun a => "Offset = " ++ a)
      ++ [.separator]
  | .computedJump target =>
    detailed tag op (.ok "Offset specified by expression:")
      ++ [.indented [.nested (operandLayout e target)], .separator]
  | .jumpIfNot target condition =>
    .bytes intSize
      :: detailed tag op (target.address.map fun a => "Offset: " ++ a ++ ", Condition:")
      ++ [.nested (operandLayout e condition)]
  | .pushFlow address =>
    .bytes intSize :: detailed tag op (address.address.map fun a => "FlowStack.Push(" ++ a ++ ")")
  | .assertion line debug condition =>
    .bytes shortSize :: .bytes byteSize
      :: detailed tag op (line.shown.map fun t => "Line " ++ t ++ ", in debug mode = "
            ++ truthText debug.holds ++ " with expr:")
      ++ [.nested (operandLayout e condition)]
  | .skip count expression =>
    .bytes intSize
      :: detailed tag op (count.shown.map fun t => "Possibly skip " ++ t ++ " bytes of expr:")
      ++ [.nested (operandLayout e expression)]
  | .switchValue index finish cases fallback =>
    .bytes shortSize :: .bytes intSize
      :: detailed tag op (do
            let n ← cases.count
            return toString n ++ " cases, end at " ++ (← finish.address))
      ++ [.indented ([.note "Index:", .nested (operandLayout e index)]
            ++ choiceItems e cases
            ++ [.note "Default term:", .nested (operandLayout e fallback)])]
  | .unary operand =>
    headline tag op (.ok (unaryDetail op)) none ++ [.nested (operandLayout e operand)]
  | .instrumentation event _ =>
    .bytes byteSize :: (if event.eqInt 4 then [.bytes nameSize] else [])
      ++ .bytes byteSize :: detailed tag op (instrumentationTypes.labelOf event)
  | .instanceDelegate function => .bytes nameSize :: headline tag op function.shown? none
  | .multicastDelegate delegate other =>
    undetailed tag op ++ [.nested (operandLayout e delegate), .nested (operandLayout e other)]
  | .bindDelegate function delegate object =>
    .bytes nameSize :: headline tag op function.shown? none
      ++ [.indented [.note "Delegate:", .nested (operandLayout e delegate),
            .note "Object:", .nested (operandLayout e object)]]
  | .literal value =>
    let parts := literalParts (exactOpcode tag op) value
    .bytes parts.1 :: detailed tag op parts.2
  | .objectConst object =>
    .bytes objectSize :: headline tag op (objectName object >>= Datum.shown?) none
  | .rotationConst pitch yaw roll =>
    .bytes (3 * e.coordinateSize)
      :: detailed tag op (tripleText "Pitch" "Yaw" "Roll" pitch yaw roll)
  | .vectorConst x y z =>
    .bytes (3 * e.coordinateSize) :: detailed tag op (tripleText "X" "Y" "Z" x y z)
  | .transformConst rotation translation scale =>
    .bytes (10 * e.coordinateSize) :: detailed tag op (transformText rotation translation scale)
  | .textConst text => scriptTextItems e tag op text
  | .structConst struct size members =>
    .bytes objectSize :: .bytes intSize
      :: detailed tag op (do
            let n ← objectText struct
            return n ++ " (serialized size: " ++ (← size.shown) ++ ")")
      ++ listItems e members
  | .setArray elements target inner =>
    undetailed tag op
      ++ (if e.setArrayHasProperty then [.nested (operandLayout e target)]
          else noted (inner.shown?.map fun t => t.getD ""))
      ++ listItems e elements
  | .arrayConst inner elements =>
    .bytes propertySize :: .bytes intSize
      :: detailed tag op (do
            let t ← pathText inner
            return "Type: " ++ t ++ ", Count: " ++ toString (← elements.count))
      ++ listItems e elements
  | .setSet target elements =>
    undetailed tag op ++ [.nested (operandLayout e target), .bytes intSize]
      ++ listItems e elements
  | .setConst inner elements =>
    .bytes propertySize :: .bytes intSize
      :: detailed tag op (do
            let n ← elements.count
            return "Element count: " ++ toString n ++ ", inner property: " ++ (← pathText inner))
      ++ listItems e elements
  | .setMap target elements =>
    detailed tag op (elements.count.map fun n => "Element count: " ++ toString n)
      ++ [.nested (operandLayout e target), .bytes intSize]
      ++ listItems e elements
  | .mapConst key value elements =>
    .bytes propertySize :: .bytes propertySize :: .bytes intSize
      :: detailed tag op (do
            let n ← elements.count
            let k ← pathText key
            let v ← pathText value
            return "Element count: " ++ toString n ++ ", key property: " ++ k
              ++ ", value property: " ++ v)
      ++ listItems e elements

end

end Kismet.Listing
