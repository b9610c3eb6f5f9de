import Kismet.Encoding
import Kismet.Instr.Basic
import Kismet.Text.Units
import Mathlib.Algebra.Ring.Nat
set_option autoImplicit false

/-!
# Serial: the serialized form of a script

A serialized instruction is its tag followed by its parts: cells of known width
and the nested instructions, in the order in which they are stored.
`Body.parts` is the table of the parts of every shape.  From the table alone
follow the size of an instruction, the sequence of tags and cells that a script
is stored as, and the offset of every instruction: the total width of what is
stored in front of it.

Nothing here refers to listings.  The number of scopes beside a nested
instruction is how much further than usual its own listing is indented.
-/

namespace Kismet

/-! ## Cells -/

/-- Data of known width in a serialized script. -/
inductive Cell where
  | byte
  | short
  | int
  | long
  | float
  | double
  | name
  /-- A reference to an object. -/
  | object
  /-- A reference to a property. -/
  | property
  | coordinates (count : Nat)
  /-- A string of single bytes and its end. -/
  | narrow (s : String)
  /-- A string of 16-bit units and its end. -/
  | wide (s : String)
  /-- What closes a list. -/
  | terminator
  deriving DecidableEq, Repr, Inhabited

/-- Bytes of a cell. -/
def Cell.width (e : Encoding) : Cell → Nat
  | .byte | .terminator => 1
  | .short => 2
  | .int | .float => 4
  | .long | .double | .object | .property => 8
  | .name => 12
  | .coordinates count => count * (if e.largeWorldCoordinates then 8 else 4)
  | .narrow s => s.length + 1
  | .wide s => 2 * (Text.units16 s + 1)

/-! ## Parts -/

/-- A part of an instruction after its tag. -/
inductive Part where
  | cell (c : Cell)
  /-- A nested instruction. -/
  | child (scopes : Nat) (o : Operand)

/-- The parts of a list of nested instructions. -/
def Operands.parts (scopes : Nat) : Operands → List Part
  | .list items => items.map (.child scopes) ++ [.cell .terminator]
  | .unusable => []

/-- The parts of a case of a choice. -/
def SwitchCase.parts : SwitchCase → List Part
  | .mk value _ term => [.child 1 value, .cell .int, .child 2 term]
  | .valued value => [.child 1 value]
  | .foreign => []

/-- The parts of the cases of a choice. -/
def Cases.parts : Cases → List Part
  | .list items => items.flatMap SwitchCase.parts
  | .unusable => []

/-- The parts of a text.  Its kind decides which of its operands are stored. -/
def ScriptText.parts : ScriptText → List Part
  | .mk kind space key source tableId _ =>
    .cell .byte ::
      (if kind.eqInt 0 then []
      else if kind.eqInt 1 then [.child 2 space, .child 2 key, .child 2 source]
      else if kind.eqInt 2 then [.child 1 source]
      else if kind.eqInt 3 then [.child 1 source]
      else if kind.eqInt 4 then [.cell .object, .child 2 tableId, .child 2 key]
      else [])
  | .foreign => [.cell .byte]

/-- The cell of a literal. -/
def Opcode.literalCell (op : Opcode) (value : Datum) : Cell :=
  match op with
  | .intConst | .skipOffsetConst => .int
  | .int64Const | .uInt64Const => .long
  | .floatConst => .float
  | .doubleConst => .double
  | .stringConst => .narrow value.display
  | .unicodeStringConst => .wide value.display
  | .nameConst => .name
  | _ => .byte

/-- The parts of an instruction, by shape. -/
def Body.parts (e : Encoding) (op : Opcode) : Body → List Part
  | .bare | .unknown _ | .marker => []
  | .variable _ | .propertyConst _ => [.cell .property]
  | .primitiveCast _ target => [.cell .byte, .child 0 target]
  | .classCast _ target => [.cell .object, .child 0 target]
  | .assignment destination value _ =>
    -- Of the six assignments only one stores the property.
    (if op = .letField then [.cell .property] else []) ++ [.child 1 destination, .child 1 value]
  | .persistentAssignment _ value => [.cell .property, .child 1 value]
  | .memberContext _ struct => [.cell .property, .child 1 struct]
  | .virtualCall _ parameters => .cell .name :: parameters.parts 0
  | .finalCall _ parameters => .cell .object :: parameters.parts 0
  | .delegateCall _ delegate parameters =>
    .cell .object :: .child 0 delegate :: parameters.parts 1
  | .unary operand => [.child 0 operand]
  | .computedJump target => [.child 1 target]
  | .jump _ | .pushFlow _ => [.cell .int]
  | .jumpIfNot _ condition => [.cell .int, .child 0 condition]
  | .context object _ _ expression =>
    [.child 1 object, .cell .int, .cell .property, .child 1 expression]
  | .literal value => [.cell (op.literalCell value)]
  | .textConst text => text.parts
  | .objectConst _ => [.cell .object]
  | .rotationConst .. | .vectorConst .. => [.cell (.coordinates 3)]
  | .transformConst .. => [.cell (.coordinates 10)]
  | .structConst _ _ members => .cell .object :: .cell .int :: members.parts 0
  | .setArray elements target _ =>
    (if e.setArrayHasProperty then [.child 0 target] else []) ++ elements.parts 0
  | .arrayConst _ elements | .setConst _ elements =>
    .cell .property :: .cell .int :: elements.parts 0
  | .setSet target elements | .setMap target elements =>
    .child 0 target :: .cell .int :: elements.parts 0
  | .mapConst _ _ elements =>
    .cell .property :: .cell .property :: .cell .int :: elements.parts 0
  | .assertion _ _ condition => [.cell .short, .cell .byte, .child 0 condition]
  | .skip _ expression => [.cell .int, .child 0 expression]
  | .instanceDelegate _ => [.cell .name]
  | .multicastDelegate delegate other => [.child 0 delegate, .child 0 other]
  | .bindDelegate _ delegate object => [.cell .name, .child 1 delegate, .child 1 object]
  | .instrumentation event _ =>
    -- Inline events store a name; after any event one byte is left unused.
    .cell .byte :: (if event.eqInt 4 then [.cell .name] else []) ++ [.cell .byte]
  | .switchValue index _ cases fallback =>
    [.cell .short, .cell .int, .child 1 index] ++ cases.parts ++ [.child 1 fallback]
  | .arrayGetByRef array index => [.child 1 array, .child 1 index]

/-- The opcode of what stands in the place of an instruction. -/
def Operand.opcode? : Operand → Option Opcode
  | .instr i => i.tag.opcode?
  | _ => none

/-- The parts of what stands in the place of an instruction.  Operands that are
not of the shape that belongs to the opcode are not looked at. -/
def Operand.parts (e : Encoding) : Operand → List Part
  | .instr (.mk tag body) =>
    match tag.opcode? with
    | some op => if op.shape? = some body.shape then body.parts e op else []
    | none => []
  | _ => []

/-! ## Nested instructions are smaller -/

theorem Operands.sizeOf_lt {ps : Operands} {n k : Nat} {o : Operand}
    (h : Part.child k o ∈ ps.parts n) : sizeOf o < sizeOf ps := by
  cases ps with
  | unusable => simp [parts] at h
  | list items =>
    simp only [parts, List.mem_append, List.mem_map, Part.child.injEq, List.mem_singleton,
      reduceCtorEq, or_false] at h
    obtain ⟨a, ha, -, rfl⟩ := h
    have hlt := List.sizeOf_lt_of_mem ha
    simp only [list.sizeOf_spec]
    omega

theorem Cases.sizeOf_lt {cs : Cases} {k : Nat} {o : Operand} (h : Part.child k o ∈ cs.parts) :
    sizeOf o < sizeOf cs := by
  cases cs with
  | unusable => simp [parts] at h
  | list items =>
    simp only [parts, List.mem_flatMap] at h
    obtain ⟨c, hc, h⟩ := h
    have hlt := List.sizeOf_lt_of_mem hc
    have hchild : sizeOf o < sizeOf c := by
      cases c <;> simp [SwitchCase.parts] at h <;> grind
    simp only [list.sizeOf_spec]
    omega

theorem ScriptText.sizeOf_lt {t : ScriptText} {k : Nat} {o : Operand}
    (h : Part.child k o ∈ t.parts) : sizeOf o < sizeOf t := by
  cases t with
  | foreign => simp [parts] at h
  | mk kind space key source tableId table =>
    have hmem : o = space ∨ o = key ∨ o = source ∨ o = tableId := by
      simp only [parts] at h
      grind
    simp only [mk.sizeOf_spec]
    grind

theorem Body.sizeOf_lt {e : Encoding} {op : Opcode} {b : Body} {k : Nat} {o : Operand}
    (h : Part.child k o ∈ b.parts e op) : sizeOf o < sizeOf b := by
  cases b <;> simp [parts] at h <;>
    grind [→ Operands.sizeOf_lt, → Cases.sizeOf_lt, → ScriptText.sizeOf_lt]

theorem Operand.sizeOf_lt {e : Encoding} {o c : Operand} {k : Nat}
    (h : Part.child k c ∈ o.parts e) : sizeOf c < sizeOf o := by
  cases o with
  | missing => simp [parts] at h
  | foreign => simp [parts] at h
  | instr i =>
    obtain ⟨tag, body⟩ := i
    simp only [parts] at h
    split at h
    · split at h
      · have hlt := Body.sizeOf_lt h
        simp only [instr.sizeOf_spec, Instr.mk.sizeOf_spec]
        omega
      · simp at h
    · simp at h

/-- Induction on nested instructions, as the table of parts has them. -/
theorem Operand.partsInduction (e : Encoding) {P : Operand → Prop}
    (step : ∀ o, (∀ k c, Part.child k c ∈ o.parts e → P c) → P o) (o : Operand) : P o :=
  step o fun _ c _ => partsInduction e step c
termination_by sizeOf o
decreasing_by exact sizeOf_lt ‹_›

/-! ## Sizes -/

/-- Bytes of what stands in the place of an instruction: one for the tag, and
those of the parts. -/
def Operand.size (e : Encoding) (o : Operand) : Nat :=
  match o with
  | .instr i =>
    1 + ((parts e (.instr i)).attach.map fun
      | ⟨.cell c, _⟩ => c.width e
      | ⟨.child _ c, _⟩ => c.size e).sum
  | _ => 0
termination_by sizeOf o
decreasing_by exact sizeOf_lt ‹_›

/-- Bytes of a part. -/
def Part.size (e : Encoding) : Part → Nat
  | .cell c => c.width e
  | .child _ o => o.size e

theorem Operand.size_instr (e : Encoding) (i : Instr) :
    size e (.instr i) = 1 + ((parts e (.instr i)).map (Part.size e)).sum := by
  rw [size, ← List.attach_map_val (f := Part.size e)]
  congr 3
  funext ⟨p, hp⟩
  cases p <;> rfl

/-! ## The stored sequence -/

/-- What a serialized script consists of. -/
inductive Atom where
  /-- The place of an instruction; a byte if an instruction stands there. -/
  | tag (level indent : Nat) (o : Operand)
  | cell (c : Cell)

/-- Bytes of an atom. -/
def Atom.width (e : Encoding) : Atom → Nat
  | .tag _ _ (.instr _) => 1
  | .tag _ _ _ => 0
  | .cell c => c.width e

/-- Bytes of a sequence. -/
def totalWidth (e : Encoding) (atoms : List Atom) : Nat :=
  (atoms.map (Atom.width e)).sum

/-- The sequence of what stands in the place of an instruction: the place itself,
then its parts.  The place of a nested instruction is one level deeper, and
indented by one more than the scopes around it. -/
def Operand.atoms (e : Encoding) (level indent : Nat) (o : Operand) : List Atom :=
  .tag level indent o :: (o.parts e).attach.flatMap fun
    | ⟨.cell c, _⟩ => [.cell c]
    | ⟨.child scopes c, _⟩ => c.atoms e (level + 1) (indent + 1 + scopes)
termination_by sizeOf o
decreasing_by exact sizeOf_lt ‹_›

/-- The sequence of a part, where nested instructions are of a given level and
indentation. -/
def Part.atoms (e : Encoding) (level indent : Nat) : Part → List Atom
  | .cell c => [.cell c]
  | .child scopes o => o.atoms e level (indent + scopes)

theorem Operand.atoms_eq (e : Encoding) (level indent : Nat) (o : Operand) :
    o.atoms e level indent
      = .tag level indent o :: (o.parts e).flatMap (Part.atoms e (level + 1) (indent + 1)) := by
  rw [atoms, List.flatMap_def, List.flatMap_def,
    ← List.attach_map_val (f := Part.atoms e (level + 1) (indent + 1))]
  congr 3
  funext ⟨p, hp⟩
  cases p <;> rfl

/-- The sequence that a script is stored as. -/
def serialize (e : Encoding) (script : List Operand) : List Atom :=
  script.flatMap (Operand.atoms e 1 0)

@[simp] theorem totalWidth_nil (e : Encoding) : totalWidth e [] = 0 := rfl

@[simp] theorem totalWidth_cons (e : Encoding) (a : Atom) (rest : List Atom) :
    totalWidth e (a :: rest) = a.width e + totalWidth e rest := by
  simp [totalWidth]

@[simp] theorem totalWidth_append (e : Encoding) (a b : List Atom) :
    totalWidth e (a ++ b) = totalWidth e a + totalWidth e b := by
  simp [totalWidth]

/-- Sizes add up along any sequence of parts whose nested instructions take the
bytes that their sizes say. -/
theorem totalWidth_flatMap_parts {e : Encoding} {level indent : Nat} {parts : List Part}
    (h : ∀ k c, Part.child k c ∈ parts →
      ∀ level indent, totalWidth e (c.atoms e level indent) = c.size e) :
    totalWidth e (parts.flatMap (Part.atoms e level indent)) = (parts.map (Part.size e)).sum := by
  induction parts with
  | nil => rfl
  | cons p rest ih =>
    have hp : totalWidth e (p.atoms e level indent) = p.size e := by
      cases p with
      | cell c => simp [Part.atoms, Part.size, Atom.width]
      | child k c => exact h k c (by simp) level (indent + k)
    have hrest := ih fun k c hc => h k c (List.mem_cons_of_mem _ hc)
    simp [hp, hrest]

/-- The sequence of an instruction is as long as the size of the instruction
says. -/
theorem Operand.totalWidth_atoms (e : Encoding) (o : Operand) :
    ∀ level indent, totalWidth e (o.atoms e level indent) = o.size e := by
  induction o using Operand.partsInduction e with
  | step o ih =>
    intro level indent
    rw [atoms_eq, totalWidth_cons, totalWidth_flatMap_parts ih]
    cases o with
    | instr i => rw [size_instr, Atom.width]
    | missing => simp [Atom.width, parts, size]
    | foreign => simp [Atom.width, parts, size]

theorem Part.totalWidth_atoms (e : Encoding) (level indent : Nat) (p : Part) :
    totalWidth e (p.atoms e level indent) = p.size e := by
  cases p with
  | cell c => simp [atoms, size, Atom.width]
  | child k c => exact c.totalWidth_atoms e level (indent + k)

theorem totalWidth_serialize (e : Encoding) (script : List Operand) :
    totalWidth e (serialize e script) = (script.map (Operand.size e)).sum := by
  induction script with
  | nil => rfl
  | cons o rest ih =>
    rw [serialize] at ih
    simp [serialize, ih, Operand.totalWidth_atoms]

/-! ## Visits -/

/-- The place of an instruction in a script: how many instructions are around
it, counting itself, how far it is indented, and its offset. -/
structure Visit where
  operand : Operand
  level : Nat
  indent : Nat
  offset : Nat

/-- The places in a sequence, each with the total width of all that is stored in
front of it. -/
def visitsFrom (e : Encoding) (offset : Nat) : List Atom → List Visit
  | [] => []
  | .tag level indent o :: rest =>
    ⟨o, level, indent, offset⟩ :: visitsFrom e (offset + (Atom.tag level indent o).width e) rest
  | .cell c :: rest => visitsFrom e (offset + c.width e) rest

/-- The places in a script, in the order in which they are stored: an instruction
in front of those nested in it. -/
def visits (e : Encoding) (script : List Operand) : List Visit :=
  visitsFrom e 0 (serialize e script)

theorem visitsFrom_append (e : Encoding) (a b : List Atom) : ∀ offset,
    visitsFrom e offset (a ++ b)
      = visitsFrom e offset a ++ visitsFrom e (offset + totalWidth e a) b := by
  induction a with
  | nil => intro offset; rfl
  | cons x rest ih =>
    intro offset
    cases x with
    | tag level indent o => simp [visitsFrom, ih, Nat.add_assoc]
    | cell c => simp [visitsFrom, ih, Atom.width, Nat.add_assoc]

/-- The atom is the place of an instruction. -/
def Atom.isTag : Atom → Bool
  | .tag .. => true
  | .cell _ => false

theorem length_visitsFrom (e : Encoding) (atoms : List Atom) : ∀ offset,
    (visitsFrom e offset atoms).length = atoms.countP Atom.isTag := by
  induction atoms with
  | nil => intro offset; rfl
  | cons x rest ih =>
    intro offset
    cases x with
    | tag level indent o => simp [visitsFrom, ih, Atom.isTag, List.countP_cons]
    | cell c => simp [visitsFrom, ih, Atom.isTag]

/-- A place is visited after those in front of it, and its offset is the total
width of what is in front of it. -/
theorem visits_getElem?_of_split {e : Encoding} {script : List Operand} {before after : List Atom}
    {level indent : Nat} {o : Operand}
    (h : serialize e script = before ++ .tag level indent o :: after) :
    (visits e script)[before.countP Atom.isTag]?
      = some ⟨o, level, indent, totalWidth e before⟩ := by
  rw [visits, h, visitsFrom_append, ← length_visitsFrom e before 0,
    List.getElem?_append_right (Nat.le_refl _)]
  simp [visitsFrom]

/-- A script is stored as if it were the parts of an instruction. -/
theorem serialize_eq_flatMap_parts (e : Encoding) (script : List Operand) :
    serialize e script = (script.map (Part.child 0)).flatMap (Part.atoms e 1 0) := by
  rw [serialize, List.flatMap_map]
  rfl

theorem le_offset_of_mem_visitsFrom {e : Encoding} {atoms : List Atom} {v : Visit} : ∀ {offset},
    v ∈ visitsFrom e offset atoms → offset ≤ v.offset := by
  induction atoms with
  | nil => intro offset h; simp [visitsFrom] at h
  | cons x rest ih =>
    intro offset h
    cases x with
    | tag level indent o =>
      simp only [visitsFrom, List.mem_cons] at h
      rcases h with rfl | h
      · exact Nat.le_refl _
      · exact Nat.le_trans (Nat.le_add_right _ _) (ih h)
    | cell c => exact Nat.le_trans (Nat.le_add_right _ _) (ih h)

/-- Where only instructions are visited, offsets increase: every one has a
tag. -/
theorem visitsFrom_pairwise {e : Encoding} {atoms : List Atom} : ∀ {offset},
    (∀ v ∈ visitsFrom e offset atoms, ∃ i, v.operand = .instr i) →
    (visitsFrom e offset atoms).Pairwise fun a b => a.offset < b.offset := by
  induction atoms with
  | nil => intro offset _; exact .nil
  | cons x rest ih =>
    intro offset h
    cases x with
    | cell c => exact ih h
    | tag level indent o =>
      simp only [visitsFrom, List.mem_cons, forall_eq_or_imp] at h
      obtain ⟨⟨i, rfl⟩, hrest⟩ := h
      refine .cons ?_ (ih hrest)
      intro v hv
      exact Nat.lt_of_lt_of_le (Nat.lt_succ_self offset) (le_offset_of_mem_visitsFrom hv)

end Kismet
