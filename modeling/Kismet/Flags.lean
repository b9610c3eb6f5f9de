import Kismet.Enumeration
import Kismet.Opcode.Basic
import Kismet.Text.Units
set_option autoImplicit false

/-!
# Flags: sets of flags and their text

A flag word is a whole number; its bits are flags.  Words are given as numbers
or as names, and are written as the names of their bits in ascending order,
followed by what no name covers.
-/

namespace Kismet

/-- A flag word as it was given: a number, or a truth value that counts as
one. -/
inductive Word where
  | number (n : Int)
  | truth (b : Bool)
  deriving DecidableEq, Repr, Inhabited

/-- The bits of a flag word. -/
def Word.toInt : Word → Int
  | .number n => n
  | .truth b => truthInt b

/-! ## Bits -/

namespace Bits

/-- All of `bits` are set in `n`, negative numbers having infinitely many bits. -/
def areSet (n : Int) (bits : Nat) : Bool :=
  if 0 ≤ n then n.toNat &&& bits == bits else (-n - 1).toNat &&& bits == 0

/-- `n` without the bits `bits`. -/
def clear (n : Int) (bits : Nat) : Int :=
  if 0 ≤ n then ((n.toNat ^^^ (n.toNat &&& bits) : Nat) : Int)
  else -(((-n - 1).toNat ||| bits : Nat) : Int) - 1

end Bits

namespace Enumeration

/-! ## Reading -/

/-- The flag with a name, with or without its mark. -/
def flag? (e : Enumeration) (member : String) : Option Nat :=
  match e.value? member with
  | some n => some n
  | none => e.value? (e.mark ++ member)

/-- The union of the flags named by `names`, from `start` on. -/
def unite (e : Enumeration) (start : Nat) : List Document → Except Fault Nat
  | [] => .ok start
  | .text raw :: rest =>
    match e.flag? (Text.strip raw) with
    | some n => e.unite (start ||| n) rest
    | none => .error (.unknownFlag e.name raw)
  | _ :: _ => .error .noMember

/-- A flag word given as a number, one name, or several. -/
def parse (e : Enumeration) (d : Document) : Except Fault Word :=
  match d with
  | .null => .ok (.number 0)
  | .int n => .ok (.number n)
  | .bool b => .ok (.truth b)
  | .text _ => (e.unite 0 [d]).map fun n => .number n
  | _ =>
    match d.parts with
    | .error f => .error f
    | .ok names => (e.unite 0 names).map fun n => .number n

/-! ## Writing -/

/-- The members in ascending order. -/
def ascending (e : Enumeration) : List (String × Nat) :=
  e.members.mergeSort fun a b => decide (a.2 ≤ b.2)

/-- A member's name, without the mark if `bare`. -/
def memberText (e : Enumeration) (bare : Bool) (member : String) : String :=
  if bare then String.ofList (member.toList.drop e.mark.toList.length) else member

/-- The members whose bits are all set in `n`. -/
def present (e : Enumeration) (n : Int) : List (String × Nat) :=
  e.ascending.filter fun m => m.2 != 0 && Bits.areSet n m.2

/-- What is left of `n` when the bits of the members in it are cleared. -/
def remainder (e : Enumeration) (n : Int) : Int :=
  (e.present n).foldl (fun rest m => Bits.clear rest m.2) n

/-- The parts of the text of a flag word. -/
def formatParts (e : Enumeration) (bare : Bool) (n : Int) : List String :=
  if n = 0 then [e.memberText bare (e.mark ++ "None")]
  else
    (e.present n).map (fun m => e.memberText bare m.1)
      ++ (if e.remainder n = 0 then [] else ["0x" ++ Text.hex 0 (e.remainder n)])

/-- The text of a flag word; `bare` drops the mark of the names. -/
def format (e : Enumeration) (bare : Bool) (n : Int) : String :=
  ", ".intercalate (e.formatParts bare n)

/-- The text of a document as a flag word; only whole numbers have bits, but any
zero is the empty word. -/
def formatDocument (e : Enumeration) (bare : Bool) : Document → Except Fault String
  | .int n => .ok (e.format bare n)
  | .bool b => .ok (e.format bare (truthInt b))
  | d => if d.eqInt 0 then .ok (e.format bare 0) else .error .wrongKind

end Enumeration

/-! ## Flag sets -/

/-- Properties of a function. -/
def functionFlags : Enumeration where
  name := "FunctionFlags"
  mark := "FUNC_"
  members :=
    [("FUNC_None", 0x0), ("FUNC_Final", 0x1), ("FUNC_RequiredAPI", 0x2),
     ("FUNC_BlueprintAuthorityOnly", 0x4), ("FUNC_BlueprintCosmetic", 0x8), ("FUNC_Net", 0x40),
     ("FUNC_NetReliable", 0x80), ("FUNC_NetRequest", 0x100), ("FUNC_Exec", 0x200),
     ("FUNC_Native", 0x400), ("FUNC_Event", 0x800), ("FUNC_NetResponse", 0x1000),
     ("FUNC_Static", 0x2000), ("FUNC_NetMulticast", 0x4000), ("FUNC_UbergraphFunction", 0x8000),
     ("FUNC_MulticastDelegate", 0x10000), ("FUNC_Public", 0x20000), ("FUNC_Private", 0x40000),
     ("FUNC_Protected", 0x80000), ("FUNC_Delegate", 0x100000), ("FUNC_NetServer", 0x200000),
     ("FUNC_HasOutParms", 0x400000), ("FUNC_HasDefaults", 0x800000),
     ("FUNC_NetClient", 0x1000000), ("FUNC_DLLImport", 0x2000000),
     ("FUNC_BlueprintCallable", 0x4000000), ("FUNC_BlueprintEvent", 0x8000000),
     ("FUNC_BlueprintPure", 0x10000000), ("FUNC_EditorOnly", 0x20000000),
     ("FUNC_Const", 0x40000000), ("FUNC_NetValidate", 0x80000000)]

/-- Properties of a class. -/
def classFlags : Enumeration where
  name := "ClassFlags"
  mark := "CLASS_"
  members :=
    [("CLASS_None", 0x0), ("CLASS_Abstract", 0x1), ("CLASS_DefaultConfig", 0x2),
     ("CLASS_Config", 0x4), ("CLASS_Transient", 0x8), ("CLASS_Parsed", 0x10),
     ("CLASS_MatchedSerializers", 0x20), ("CLASS_ProjectUserConfig", 0x40),
     ("CLASS_Native", 0x80), ("CLASS_NoExport", 0x100), ("CLASS_NotPlaceable", 0x200),
     ("CLASS_PerObjectConfig", 0x400), ("CLASS_ReplicationDataIsSetUp", 0x800),
     ("CLASS_EditInlineNew", 0x1000), ("CLASS_CollapseCategories", 0x2000),
     ("CLASS_Interface", 0x4000), ("CLASS_CustomConstructor", 0x8000), ("CLASS_Const", 0x10000),
     ("CLASS_LayoutChanging", 0x20000), ("CLASS_CompiledFromBlueprint", 0x40000),
     ("CLASS_MinimalAPI", 0x80000), ("CLASS_RequiredAPI", 0x100000),
     ("CLASS_DefaultToInstanced", 0x200000), ("CLASS_TokenStreamAssembled", 0x400000),
     ("CLASS_HasInstancedReference", 0x800000), ("CLASS_Hidden", 0x1000000),
     ("CLASS_Deprecated", 0x2000000), ("CLASS_HideDropDown", 0x4000000),
     ("CLASS_GlobalUserConfig", 0x8000000), ("CLASS_Intrinsic", 0x10000000),
     ("CLASS_Constructed", 0x20000000), ("CLASS_ConfigDoNotCheckDefaults", 0x40000000),
     ("CLASS_NewerVersionExists", 0x80000000)]

/-- Properties of a field. -/
def propertyFlags : Enumeration where
  name := "PropertyFlags"
  mark := "CPF_"
  members :=
    [("CPF_None", 0x0), ("CPF_Edit", 0x1), ("CPF_ConstParm", 0x2), ("CPF_BlueprintVisible", 0x4),
     ("CPF_ExportObject", 0x8), ("CPF_BlueprintReadOnly", 0x10), ("CPF_Net", 0x20),
     ("CPF_EditFixedSize", 0x40), ("CPF_Parm", 0x80), ("CPF_OutParm", 0x100),
     ("CPF_ZeroConstructor", 0x200), ("CPF_ReturnParm", 0x400),
     ("CPF_DisableEditOnTemplate", 0x800), ("CPF_Transient", 0x2000), ("CPF_Config", 0x4000),
     ("CPF_DisableEditOnInstance", 0x10000), ("CPF_EditConst", 0x20000),
     ("CPF_GlobalConfig", 0x40000), ("CPF_InstancedReference", 0x80000),
     ("CPF_DuplicateTransient", 0x200000), ("CPF_SaveGame", 0x1000000),
     ("CPF_NoClear", 0x2000000), ("CPF_ReferenceParm", 0x8000000),
     ("CPF_BlueprintAssignable", 0x10000000), ("CPF_Deprecated", 0x20000000),
     ("CPF_IsPlainOldData", 0x40000000), ("CPF_RepSkip", 0x80000000),
     ("CPF_RepNotify", 0x100000000), ("CPF_Interp", 0x200000000),
     ("CPF_NonTransactional", 0x400000000), ("CPF_EditorOnly", 0x800000000),
     ("CPF_NoDestructor", 0x1000000000), ("CPF_AutoWeak", 0x4000000000),
     ("CPF_ContainsInstancedReference", 0x8000000000),
     ("CPF_AssetRegistrySearchable", 0x10000000000), ("CPF_SimpleDisplay", 0x20000000000),
     ("CPF_AdvancedDisplay", 0x40000000000), ("CPF_Protected", 0x80000000000),
     ("CPF_BlueprintCallable", 0x100000000000), ("CPF_BlueprintAuthorityOnly", 0x200000000000),
     ("CPF_TextExportTransient", 0x400000000000),
     ("CPF_NonPIEDuplicateTransient", 0x800000000000), ("CPF_ExposeOnSpawn", 0x1000000000000),
     ("CPF_PersistentInstance", 0x2000000000000), ("CPF_UObjectWrapper", 0x4000000000000),
     ("CPF_HasGetValueTypeHash", 0x8000000000000),
     ("CPF_NativeAccessSpecifierPublic", 0x10000000000000),
     ("CPF_NativeAccessSpecifierProtected", 0x20000000000000),
     ("CPF_NativeAccessSpecifierPrivate", 0x40000000000000),
     ("CPF_SkipSerialization", 0x80000000000000)]

/-- The opcodes as an enumeration. -/
def opcodeTokens : Enumeration where
  name := "ExprToken"
  mark := Opcode.mark
  members := Opcode.all.map fun op => (op.name, op.code)

/-! ## Single flags -/

/-- The function is an event. -/
def Word.isEvent (w : Word) : Bool := Bits.areSet w.toInt 0x800

/-- The function is an event graph. -/
def Word.isUbergraph (w : Word) : Bool := Bits.areSet w.toInt 0x8000

/-- The function is the signature of a delegate. -/
def Word.isDelegate (w : Word) : Bool := Bits.areSet w.toInt 0x100000

end Kismet
