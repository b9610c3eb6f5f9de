import Kismet.Proofs.Acceptance
import Kismet.Proofs.Cause
import Kismet.Instr.Decode
set_option autoImplicit false

/-!
# Decode: the trees that scripts are decoded to

Decoding reads one level of an instruction at a time and leaves what is nested in
it to itself.  `decodeStep_eq_ok` says all that one level can come to, and three
lemmas about `decodeBody` say what its operands are like: they have the shape that
was asked for, their references can be used, and at the places of nested
instructions stands what was read there.  `decodeWithin_occurs` carries whatever
holds of one level to all places of a tree.
-/

namespace Kismet

/-! ## Places

All places of nested instructions count here, those that are not stored too. -/

/-- The places in a list. -/
def Operands.places : Operands → List Operand
  | .list items => items
  | .unusable => []

/-- The places in a case of a choice. -/
def SwitchCase.places : SwitchCase → List Operand
  | .mk value _ term => [value, term]
  | .valued value => [value]
  | .foreign => []

/-- The places in the cases of a choice. -/
def Cases.places : Cases → List Operand
  | .list items => items.flatMap SwitchCase.places
  | .unusable => []

/-- The places in a text, whatever its kind. -/
def ScriptText.places : ScriptText → List Operand
  | .mk _ space key source tableId _ => [space, key, source, tableId]
  | .foreign => []

/-- The places in the operands of an instruction. -/
def Body.places : Body → List Operand
  | .primitiveCast _ o | .classCast _ o | .persistentAssignment _ o | .memberContext _ o
  | .unary o | .computedJump o | .jumpIfNot _ o | .assertion _ _ o | .skip _ o => [o]
  | .assignment a b _ | .context a _ _ b | .multicastDelegate a b | .bindDelegate _ a b
  | .arrayGetByRef a b => [a, b]
  | .virtualCall _ ps | .finalCall _ ps | .structConst _ _ ps | .arrayConst _ ps
  | .setConst _ ps | .mapConst _ _ ps => ps.places
  | .delegateCall _ o ps | .setArray ps o _ | .setSet o ps | .setMap o ps => o :: ps.places
  | .textConst text => text.places
  | .switchValue index _ cases fallback => index :: fallback :: cases.places
  | _ => []

/-- The places directly inside a place. -/
def Operand.places : Operand → List Operand
  | .instr i => i.body.places
  | _ => []

/-- The place is somewhere in the tree below `root`, or the root itself. -/
inductive Occurs (root : Operand) : Operand → Prop where
  | root : Occurs root root
  | inside {o c : Operand} (outer : Occurs root o) (mem : c ∈ o.places) : Occurs root c

namespace Occurs

theorem head {root c o : Operand} (hc : c ∈ root.places) (h : Occurs c o) : Occurs root o := by
  induction h with
  | root => exact .inside .root hc
  | inside _ mem ih => exact .inside ih mem

/-- A place below the root is below one of the places directly inside it. -/
theorem eq_or_exists {root o : Operand} (h : Occurs root o) :
    o = root ∨ ∃ c ∈ root.places, Occurs c o := by
  induction h with
  | root => exact .inl rfl
  | inside _ mem ih =>
    rcases ih with rfl | ⟨c, hc, hoc⟩
    · exact .inr ⟨_, mem, .root⟩
    · exact .inr ⟨c, hc, .inside hoc mem⟩

/-- What holds at all places holds at the root and at all places inside it. -/
theorem forall_iff {root : Operand} {P : Operand → Prop} :
    (∀ o, Occurs root o → P o) ↔ P root ∧ ∀ c ∈ root.places, ∀ o, Occurs c o → P o := by
  refine ⟨fun h => ⟨h root .root, fun c hc o ho => h o (.head hc ho)⟩, fun h o ho => ?_⟩
  rcases ho.eq_or_exists with rfl | ⟨c, hc, hoc⟩
  · exact h.1
  · exact h.2 c hc o hoc

end Occurs

/-! What stands at the places of an instruction is smaller than the instruction. -/

theorem Operands.sizeOf_lt_of_mem_places {ps : Operands} {o : Operand} (h : o ∈ ps.places) :
    sizeOf o < sizeOf ps := by
  cases ps with
  | unusable => simp [places] at h
  | list items =>
    have hlt := List.sizeOf_lt_of_mem (show o ∈ items from h)
    simp only [list.sizeOf_spec]
    omega

theorem Cases.sizeOf_lt_of_mem_places {cs : Cases} {o : Operand} (h : o ∈ cs.places) :
    sizeOf o < sizeOf cs := by
  cases cs with
  | unusable => simp [places] at h
  | list items =>
    obtain ⟨c, hc, ho⟩ := List.mem_flatMap.mp h
    have hlt := List.sizeOf_lt_of_mem hc
    have hplace : sizeOf o < sizeOf c := by
      cases c <;> simp [SwitchCase.places] at ho <;> grind
    simp only [list.sizeOf_spec]
    omega

theorem ScriptText.sizeOf_lt_of_mem_places {t : ScriptText} {o : Operand} (h : o ∈ t.places) :
    sizeOf o < sizeOf t := by
  cases t with
  | foreign => simp [places] at h
  | mk kind space key source tableId table =>
    simp only [places, List.mem_cons, List.not_mem_nil, or_false] at h
    simp only [mk.sizeOf_spec]
    grind

theorem Body.sizeOf_lt_of_mem_places {b : Body} {o : Operand} (h : o ∈ b.places) :
    sizeOf o < sizeOf b := by
  cases b <;> simp [places] at h <;>
    grind [→ Operands.sizeOf_lt_of_mem_places, → Cases.sizeOf_lt_of_mem_places,
      → ScriptText.sizeOf_lt_of_mem_places]

theorem Operand.sizeOf_lt_of_mem_places {o c : Operand} (h : c ∈ o.places) :
    sizeOf c < sizeOf o := by
  cases o with
  | missing => simp [places] at h
  | foreign => simp [places] at h
  | instr i =>
    obtain ⟨tag, body⟩ := i
    have hlt := Body.sizeOf_lt_of_mem_places (show c ∈ body.places from h)
    simp only [instr.sizeOf_spec, Instr.mk.sizeOf_spec]
    omega

/-- Induction on nested instructions, at all of their places. -/
theorem Operand.placesInduction {P : Operand → Prop}
    (step : ∀ o : Operand, (∀ c ∈ o.places, P c) → P o) (o : Operand) : P o :=
  step o fun c _ => placesInduction step c
termination_by sizeOf o
decreasing_by exact sizeOf_lt_of_mem_places ‹_›

/-! What is stored of an instruction stands at its places. -/

theorem Operands.mem_places_of_child {ps : Operands} {n k : Nat} {o : Operand}
    (h : Part.child k o ∈ ps.parts n) : o ∈ ps.places := by
  cases ps with
  | unusable => simp [parts] at h
  | list items =>
    simp only [parts, List.mem_append, List.mem_map, Part.child.injEq, List.mem_singleton,
      reduceCtorEq, or_false] at h
    obtain ⟨a, ha, -, rfl⟩ := h
    exact ha

theorem Cases.mem_places_of_child {cs : Cases} {k : Nat} {o : Operand}
    (h : Part.child k o ∈ cs.parts) : o ∈ cs.places := by
  cases cs with
  | unusable => simp [parts] at h
  | list items =>
    simp only [parts, List.mem_flatMap] at h
    obtain ⟨c, hc, h⟩ := h
    have hplace : o ∈ c.places := by
      cases c <;> simp [SwitchCase.parts] at h <;> simp [SwitchCase.places] <;> grind
    exact List.mem_flatMap.mpr ⟨c, hc, hplace⟩

theorem ScriptText.mem_places_of_child {t : ScriptText} {k : Nat} {o : Operand}
    (h : Part.child k o ∈ t.parts) : o ∈ t.places := by
  cases t with
  | foreign => simp [parts] at h
  | mk kind space key source tableId table =>
    simp only [parts] at h
    simp only [places]
    grind

theorem Body.mem_places_of_child {e : Encoding} {op : Opcode} {b : Body} {k : Nat} {o : Operand}
    (h : Part.child k o ∈ b.parts e op) : o ∈ b.places := by
  cases b <;> simp [parts] at h <;> simp [places] <;>
    grind [→ Operands.mem_places_of_child, → Cases.mem_places_of_child,
      → ScriptText.mem_places_of_child]

/-- Every reference among the operands that a listing shows is usable. -/
def Body.hasUsableSlots : Body → Bool
  | .variable p | .propertyConst p | .persistentAssignment p _ | .memberContext p _
  | .context _ _ p _ | .arrayConst p _ | .setConst p _ => p.isUsable
  | .mapConst key value _ => key.isUsable && value.isUsable
  | .classCast r _ | .objectConst r | .finalCall r _ | .delegateCall r _ _
  | .structConst r _ _ => r.isUsable
  | _ => true

namespace Instr

/-! ## Operands by kind -/

/-- What stands at a place was read there, or nothing stands there. -/
def IsRead (self : Document → Except Fault Instr) (o : Operand) : Prop :=
  o = .missing ∨ ∃ d i, self d = .ok i ∧ o = .instr i

@[simp] theorem isUsable_ofOption {α : Type} (a : Option α) :
    (Slot.ofOption a).isUsable = true := by
  cases a <;> rfl

namespace Node

variable {n : Node} {name : String}

theorem readOperand_isRead {self : Document → Except Fault Instr} {d : Document} {o : Operand}
    (h : readOperand self d = .ok o) : IsRead self o := by
  unfold readOperand at h
  split at h
  · exact .inl (Except.ok.inj h).symm
  · obtain ⟨i, hi, rfl⟩ := map_eq_ok_iff.mp h
    exact .inr ⟨_, i, hi, rfl⟩

theorem operand_isRead {o : Operand} (h : n.operand name = .ok o) : IsRead n.self o := by
  obtain ⟨d, -, h⟩ := bind_eq_ok_iff.mp h
  exact readOperand_isRead h

theorem operandOr_isRead {o : Operand} (h : n.operandOr name = .ok o) : IsRead n.self o :=
  readOperand_isRead h

theorem operandsOr_isRead {ps : Operands} (h : n.operandsOr name = .ok ps) :
    ∀ o ∈ ps.places, IsRead n.self o := by
  unfold operandsOr readOperands at h
  split at h
  · simp at h
  · obtain ⟨items, hitems, rfl⟩ := map_eq_ok_iff.mp h
    intro o ho
    obtain ⟨d, -, hd⟩ := mem_of_mapM_eq_ok hitems o ho
    obtain ⟨i, hi, rfl⟩ := map_eq_ok_iff.mp hd
    exact .inr ⟨d, i, hi, rfl⟩

theorem property_isUsable {s : Slot PropertyPath} (h : n.property name = .ok s) :
    s.isUsable = true := by
  obtain ⟨d, -, h⟩ := bind_eq_ok_iff.mp h
  obtain ⟨p, -, h⟩ := bind_eq_ok_iff.mp h
  rw [← pure_eq_ok_iff.mp h, isUsable_ofOption]

theorem object_isUsable {s : Slot ObjectRef} (h : n.object name = .ok s) : s.isUsable = true := by
  obtain ⟨d, -, h⟩ := bind_eq_ok_iff.mp h
  obtain ⟨r, -, h⟩ := bind_eq_ok_iff.mp h
  rw [← pure_eq_ok_iff.mp h, isUsable_ofOption]

end Node

/-! ## Operands of a shape -/

/-- What is known of the operands that were read for a shape. -/
structure BodyRead (n : Node) (shape : Shape) (b : Body) : Prop where
  shape_eq : b.shape = shape
  slots : b.hasUsableSlots = true
  places : ∀ o ∈ b.places, IsRead n.self o

theorem decodeText_read {n : Node} {b : Body} (h : decodeText n = .ok b) :
    BodyRead n .textConst b := by
  unfold decodeText at h
  simp only [bind_eq_ok_iff, pure_eq_ok_iff] at h
  obtain ⟨_, _, _, _, space, hspace, key, hkey, source, hsource, tableId, htableId, _, _, rfl⟩ := h
  refine ⟨rfl, rfl, ?_⟩
  simp only [Body.places, ScriptText.places, List.mem_cons, List.not_mem_nil, or_false]
  rintro o (rfl | rfl | rfl | rfl)
  · exact Node.operandOr_isRead hspace
  · exact Node.operandOr_isRead hkey
  · exact Node.operandOr_isRead hsource
  · exact Node.operandOr_isRead htableId

theorem decodeCase_isRead {self : Document → Except Fault Instr} {d : Document} {c : SwitchCase}
    (h : decodeCase self d = .ok c) : ∀ o ∈ c.places, IsRead self o := by
  unfold decodeCase at h
  simp only [bind_eq_ok_iff, pure_eq_ok_iff] at h
  obtain ⟨_, _, value, hvalue, _, _, _, _, _, _, term, hterm, rfl⟩ := h
  simp only [SwitchCase.places, List.mem_cons, List.not_mem_nil, or_false]
  rintro o (rfl | rfl)
  · exact .inr ⟨_, value, hvalue, rfl⟩
  · exact .inr ⟨_, term, hterm, rfl⟩

theorem decodeSwitch_read {n : Node} {b : Body} (h : decodeSwitch n = .ok b) :
    BodyRead n .switchValue b := by
  unfold decodeSwitch at h
  simp only [bind_eq_ok_iff, pure_eq_ok_iff] at h
  obtain ⟨_, _, index, hindex, _, _, _, _, _, _, cases, hcases, _, _, fallback, hfallback, rfl⟩ := h
  refine ⟨rfl, rfl, ?_⟩
  simp only [Body.places, Cases.places, List.mem_cons, List.mem_flatMap]
  rintro o (rfl | rfl | ⟨c, hc, ho⟩)
  · exact .inr ⟨_, index, hindex, rfl⟩
  · exact .inr ⟨_, fallback, hfallback, rfl⟩
  · obtain ⟨d, -, hd⟩ := mem_of_mapM_eq_ok hcases c hc
    exact decodeCase_isRead hd o ho

/-- The operands that are read for a shape have that shape. -/
theorem decodeBody_read {n : Node} {shape : Shape} {b : Body} (h : decodeBody n shape = .ok b) :
    BodyRead n shape b := by
  cases shape with
  | textConst => exact decodeText_read h
  | switchValue => exact decodeSwitch_read h
  | _ =>
    simp only [decodeBody, bind_eq_ok_iff, pure_eq_ok_iff] at h
    refine ⟨?_, ?_, ?_⟩
    · grind [Body.shape]
    · grind [Body.hasUsableSlots, → Node.property_isUsable, → Node.object_isUsable]
    · grind [Body.places, → Node.operand_isRead, → Node.operandOr_isRead,
        → Node.operandsOr_isRead]

/-! ## One level -/

/-- All that one level of an instruction can come to: a tag that names no opcode, an
opcode without a shape, or the operands of the shape of its opcode. -/
theorem decodeStep_eq_ok {self : Document → Except Fault Instr} {d : Document} {i : Instr}
    (h : decodeStep self d = .ok i) :
    ∃ fields raw, d = .object fields ∧ Fields.get? fields "inst" = some raw ∧
      ((opcodeOf? raw = none ∧ i = uncharted (strayCode raw) raw)
      ∨ (∃ op, opcodeOf? raw = some op ∧ op.shape? = none ∧ i = uncharted op.code raw)
      ∨ ∃ op shape body, opcodeOf? raw = some op ∧ op.shape? = some shape
          ∧ decodeBody ⟨op, fields, self⟩ shape = .ok body ∧ i = .mk (.code op.code) body) := by
  unfold decodeStep at h
  split at h
  · rename_i fields
    split at h
    · simp at h
    · rename_i raw hraw
      refine ⟨fields, raw, rfl, hraw, ?_⟩
      split at h
      · rename_i hop
        exact .inl ⟨hop, (Except.ok.inj h).symm⟩
      · rename_i op hop
        split at h
        · rename_i hshape
          exact .inr (.inl ⟨op, hop, hshape, (Except.ok.inj h).symm⟩)
        · rename_i shape hshape
          obtain ⟨body, hbody, rfl⟩ := map_eq_ok_iff.mp h
          exact .inr (.inr ⟨op, shape, body, hop, hshape, hbody, rfl⟩)
  · simp at h

/-- At the places of an instruction stands what was read there. -/
theorem decodeStep_isRead {self : Document → Except Fault Instr} {d : Document} {i : Instr}
    (h : decodeStep self d = .ok i) : ∀ o ∈ (Operand.instr i).places, IsRead self o := by
  obtain ⟨fields, raw, -, -, h⟩ := decodeStep_eq_ok h
  rcases h with ⟨-, rfl⟩ | ⟨op, -, -, rfl⟩ | ⟨op, shape, body, -, -, hbody, rfl⟩
  · intro o ho
    simp [Operand.places, uncharted, body, Body.places] at ho
  · intro o ho
    simp [Operand.places, uncharted, body, Body.places] at ho
  · exact (decodeBody_read hbody).places

/-! ## All levels -/

/-- What holds of an absent instruction, and of one level of any other, holds at all
places of a decoded tree. -/
theorem decodeWithin_occurs {P : Operand → Prop} (missing : P .missing)
    (step : ∀ self d i, decodeStep self d = .ok i → P (.instr i)) : ∀ bound d i,
    decodeWithin bound d = .ok i → ∀ o, Occurs (.instr i) o → P o := by
  intro bound
  induction bound with
  | zero => intro d i h; simp [decodeWithin] at h
  | succ bound ih =>
    intro d i h o ho
    rw [decodeWithin] at h
    rcases ho.eq_or_exists with rfl | ⟨c, hc, hoc⟩
    · exact step _ d i h
    · rcases decodeStep_isRead h c hc with rfl | ⟨d', j, hj, rfl⟩
      · rcases hoc.eq_or_exists with rfl | ⟨c', hc', -⟩
        · exact missing
        · simp [Operand.places] at hc'
      · exact ih d' j hj o hoc

theorem decodeScript_list (ds : List Document) : decodeScript (.list ds) = ds.mapM decode := rfl

theorem decodeScript_occurs {P : Operand → Prop} (missing : P .missing)
    (step : ∀ self d i, decodeStep self d = .ok i → P (.instr i)) {d : Document}
    {script : List Instr} (h : decodeScript d = .ok script) :
    ∀ i ∈ script, ∀ o, Occurs (.instr i) o → P o := by
  unfold decodeScript at h
  split at h
  · simp at h
  · intro i hi
    obtain ⟨d', -, hd'⟩ := mem_of_mapM_eq_ok h i hi
    exact decodeWithin_occurs missing step _ d' i hd'

end Instr

end Kismet
