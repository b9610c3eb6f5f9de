import Kismet.Proofs.Agreement
import Kismet.Proofs.Cutting
import Kismet.Proofs.Format
import Kismet.Proofs.Recursion
import Mathlib.Logic.Relation
set_option autoImplicit false

/-!
# Spelling: one instruction in several notations

A document may name an opcode, or a member of an enumeration, by its name or by its number.  It
may give a property as the list of its segments, as an object that holds the list, or as a text
with points, and an object by its name or as an object that holds the name.
`Instr.Respelled` relates two documents that differ in such choices, at any depth and in any
combination.

What the operands of a shape are is said by the table `Shape.operands`.  Decoding reads every
operand in the same way whatever the notation (`Instr.decodeBody_of_respelled`, which is about one
level), so documents that are respelled decode to the same instruction
(`Instr.decode_of_respelled`).
-/

namespace Kismet

/-! ## Notations -/

/-- The notations of an opcode. -/
def Opcode.spellings (op : Opcode) : List Document :=
  [.text op.name, .int op.code]

/-- The notations of a member of an enumeration. -/
def Enumeration.spellings (name : String) (n : Nat) : List Document :=
  [.text name, .int n]

/-- The notations of a property whose segments are given; if one of them has a point in it, or if
there is none, then there is no text for it. -/
def PropertyPath.spellings (segments : List Document) : List Document :=
  let names := segments.map Document.display
  [.list segments, .object [("path", .list segments)]]
    ++ if names ≠ [] ∧ ∀ s ∈ names, '.' ∉ s.toList then [.text (".".intercalate names)] else []

/-- The notations of an object. -/
def ObjectRef.spellings (name : String) : List Document :=
  [.text name, .object [("name", .text name)]]

section Relations

variable (R : Document → Document → Prop)

/-- The cases of a choice agree, up to what `R` allows for the instructions in them. -/
def CaseRespelled (d d' : Document) : Prop :=
  ∃ fields fields', d = .object fields ∧ d' = .object fields'
    ∧ Option.Rel R (Fields.get? fields "value") (Fields.get? fields' "value")
    ∧ Fields.get? fields "next_offset" = Fields.get? fields' "next_offset"
    ∧ Option.Rel R (Fields.get? fields "term") (Fields.get? fields' "term")

/-- Operands of a kind agree up to their notation and up to what `R` allows for the instructions
in them. -/
def OperandKind.Respelled : OperandKind → Document → Document → Prop
  | .plain, d, d' | .whole, d, d' | .reals, d, d' => d = d'
  | .member e, d, d' => d = d' ∨ ∃ name n, e.value? name = some n
      ∧ d ∈ Enumeration.spellings name n ∧ d' ∈ Enumeration.spellings name n
  | .property, d, d' => d = d' ∨ ∃ segments,
      d ∈ PropertyPath.spellings segments ∧ d' ∈ PropertyPath.spellings segments
  | .object, d, d' => d = d' ∨ ∃ name,
      d ∈ ObjectRef.spellings name ∧ d' ∈ ObjectRef.spellings name
  | .place, d, d' | .nested, d, d' => R d d'
  | .items, d, d' => d = d' ∨ ∃ ds ds', d = .list ds ∧ d' = .list ds' ∧ List.Forall₂ R ds ds'
  | .cases, d, d' => d = d' ∨ ∃ ds ds', d = .list ds ∧ d' = .list ds'
      ∧ List.Forall₂ (CaseRespelled R) ds ds'

/-- The operand under a name is in both objects or in none, and up to its notation it is the
same. -/
def OperandRespelled (fields fields' : Fields) (name : String) (kind : OperandKind) : Prop :=
  Option.Rel (kind.Respelled R) (Fields.get? fields name) (Fields.get? fields' name)

end Relations

namespace Instr

/-- The documents are the same up to the notation of tags and operands, at any depth.  What is
nested agrees in some way `R` that is allowed here. -/
inductive Respelled : Document → Document → Prop where
  | same (d : Document) : Respelled d d
  | node {R : Document → Document → Prop} {fields fields' : Fields} {raw raw' : Document}
      (inside : ∀ x y, R x y → Respelled x y)
      (tag : Fields.get? fields "inst" = some raw) (tag' : Fields.get? fields' "inst" = some raw')
      (tags : raw = raw' ∨ ∃ op : Opcode, raw ∈ op.spellings ∧ raw' ∈ op.spellings)
      (operands : ∀ op shape, opcodeOf? raw = some op → op.shape? = some shape →
        ∀ o ∈ shape.operands, OperandRespelled R fields fields' o.name o.kind) :
      Respelled (.object fields) (.object fields')

end Instr

/-! ## Notations are read alike -/

theorem Enumeration.decode_of_spelling {e : Enumeration} {name : String} {n : Nat} {d : Document}
    (hn : e.value? name = some n) (hd : d ∈ spellings name n) : e.decode d = .ok n := by
  simp only [spellings, List.mem_cons, List.not_mem_nil, or_false] at hd
  rcases hd with rfl | rfl
  · simp only [decode, hn]
  · rfl

theorem Instr.textKind_of_spelling {name : String} {n : Nat} {d : Document}
    (hn : textLiteralTypes.value? name = some n) (hd : d ∈ Enumeration.spellings name n) :
    textKind d = .ok n := by
  simp only [Enumeration.spellings, List.mem_cons, List.not_mem_nil, or_false] at hd
  rcases hd with rfl | rfl
  · simp only [textKind, hn]
  · rfl

theorem PropertyPath.decode_of_spelling {segments : List Document} {d : Document}
    (hd : d ∈ spellings segments) :
    decode d = .ok (some ⟨segments.map Document.display⟩) := by
  simp only [spellings, List.mem_append, List.mem_cons, List.not_mem_nil, or_false] at hd
  rcases hd with (rfl | rfl) | hd
  · rfl
  · rfl
  · split at hd
    · rename_i h
      rw [List.mem_singleton.mp hd]
      simp only [decode, ofText]
      rw [show ("." : String) = String.singleton '.' from rfl, Text.cut_intercalate h.2 h.1]
    · simp at hd

theorem ObjectRef.decode_of_spelling {name : String} {d : Document} (hd : d ∈ spellings name) :
    decode d = .ok (some ⟨.document (.text name), .null⟩) := by
  simp only [spellings, List.mem_cons, List.not_mem_nil, or_false] at hd
  rcases hd with rfl | rfl
  · rfl
  · rfl

theorem Instr.opcodeOf?_of_spelling {op : Opcode} {d : Document} (hd : d ∈ op.spellings) :
    opcodeOf? d = some op := by
  simp only [Opcode.spellings, List.mem_cons, List.not_mem_nil, or_false] at hd
  rcases hd with rfl | rfl
  · exact op.ofName?_name
  · exact op.ofCode?_code

/-! ## Operands are read alike -/

/-- The record that stands at the place, if any, is of a known shape. -/
def Operand.isKnown : Operand → Bool
  | .instr (.mk _ (.unknown _)) => false
  | _ => true

/-- All records of the tree are of known shapes. -/
def Operand.Known (o : Operand) : Prop :=
  ∀ c, Occurs o c → c.isKnown = true

namespace Instr

/-- A known instruction that is read from one document is also read from the other. -/
structure Follows (d d' : Document) : Prop where
  null : d = .null → d' = .null
  decode : ∀ i, decode d = .ok i → (Operand.instr i).Known → decode d' = .ok i

theorem readOperand_of_decode {d : Document} {i : Instr} (h : decode d = .ok i) :
    Node.readOperand decode d = .ok (.instr i) := by
  unfold Node.readOperand
  split
  · simp [decode_eq_step, decodeStep] at h
  · rw [h]
    rfl

theorem Follows.readOperand {d d' : Document} (h : Follows d d') {o : Operand}
    (hd : Node.readOperand Instr.decode d = .ok o) (ho : o.Known) :
    Node.readOperand Instr.decode d' = .ok o := by
  unfold Node.readOperand at hd
  split at hd
  · rw [h.null rfl]
    exact hd
  · obtain ⟨i, hi, rfl⟩ := map_eq_ok_iff.mp hd
    exact readOperand_of_decode (h.decode i hi ho)

section Lookups

variable {r : Document → Document → Prop} {fields fields' : Fields} {name : String}
  (h : Option.Rel r (Fields.get? fields name) (Fields.get? fields' name))

include h

theorem get?_of_rel {d : Document} (hd : Fields.get? fields name = some d) :
    ∃ d', Fields.get? fields' name = some d' ∧ r d d' := by
  rw [hd] at h
  generalize Fields.get? fields' name = x at h
  cases h with
  | some hr => exact ⟨_, rfl, hr⟩

/-- An operand that may be left out is read alike if its notations are. -/
theorem read_getD_of_rel {α : Type} {f : Document → Except Fault α} {a : α} {default : Document}
    (hf : ∀ d d', r d d' → f d = .ok a → f d' = .ok a)
    (ha : f ((Fields.get? fields name).getD default) = .ok a) :
    f ((Fields.get? fields' name).getD default) = .ok a := by
  generalize Fields.get? fields name = x at h ha
  generalize Fields.get? fields' name = x' at h
  cases h with
  | none => exact ha
  | some hr => exact hf _ _ hr ha

/-- An operand that has to be there is read alike if its notations are. -/
theorem read_required_of_rel {α : Type} {f : Document → Except Fault α} {a : α} {op : Opcode}
    {self : Document → Except Fault Instr} (hf : ∀ d d', r d d' → f d = .ok a → f d' = .ok a)
    (ha : (Node.required ⟨op, fields, self⟩ name >>= f) = .ok a) :
    (Node.required ⟨op, fields', self⟩ name >>= f) = .ok a := by
  obtain ⟨d, hd, ha⟩ := bind_eq_ok_iff.mp ha
  unfold Node.required at hd
  split at hd
  · rename_i x hx
    obtain rfl := Except.ok.inj hd
    obtain ⟨d', hd', hr⟩ := get?_of_rel h hx
    exact bind_eq_ok_iff.mpr ⟨d', Node.required_eq_ok hd', hf x d' hr ha⟩
  · simp at hd

theorem ownOperand_of_rel {d : Document} (hd : ownOperand (.object fields) name = .ok d) :
    ∃ d', ownOperand (.object fields') name = .ok d' ∧ r d d' := by
  simp only [ownOperand] at hd
  split at hd
  · rename_i x hx
    obtain rfl := Except.ok.inj hd
    obtain ⟨d', hd', hr⟩ := get?_of_rel h hx
    exact ⟨d', ownOperand_eq_ok hd', hr⟩
  · simp at hd

end Lookups

section Readers

variable {R : Document → Document → Prop} (hR : ∀ x y, R x y → Follows x y)
  {op : Opcode} {fields fields' : Fields} {name : String}

theorem get?_of_plain (h : OperandRespelled R fields fields' name .plain) :
    Fields.get? fields' name = Fields.get? fields name := by
  unfold OperandRespelled at h
  generalize Fields.get? fields name = x at h
  generalize Fields.get? fields' name = x' at h
  cases h with
  | none => rfl
  | some hr => exact congrArg some (Eq.symm hr)

theorem decode_member_of_respelled {e : Enumeration} {d d' : Document}
    (h : (OperandKind.member e).Respelled R d d') : e.decode d' = e.decode d := by
  rcases h with rfl | ⟨name, n, hn, hd, hd'⟩
  · rfl
  · rw [Enumeration.decode_of_spelling hn hd, Enumeration.decode_of_spelling hn hd']

theorem textKind_of_respelled {d d' : Document}
    (h : (OperandKind.member textLiteralTypes).Respelled R d d') : textKind d' = textKind d := by
  rcases h with rfl | ⟨name, n, hn, hd, hd'⟩
  · rfl
  · rw [textKind_of_spelling hn hd, textKind_of_spelling hn hd']

theorem decode_property_of_respelled {d d' : Document} (h : OperandKind.property.Respelled R d d') :
    PropertyPath.decode d' = PropertyPath.decode d := by
  rcases h with rfl | ⟨segments, hd, hd'⟩
  · rfl
  · rw [PropertyPath.decode_of_spelling hd, PropertyPath.decode_of_spelling hd']

theorem decode_object_of_respelled {d d' : Document} (h : OperandKind.object.Respelled R d d') :
    ObjectRef.decode d' = ObjectRef.decode d := by
  rcases h with rfl | ⟨name, hd, hd'⟩
  · rfl
  · rw [ObjectRef.decode_of_spelling hd, ObjectRef.decode_of_spelling hd']

namespace Node

theorem required_of_plain (h : OperandRespelled R fields fields' name .plain) {d : Document}
    (hd : required ⟨op, fields, decode⟩ name = .ok d) :
    required ⟨op, fields', decode⟩ name = .ok d := by
  simp only [required, get?_of_plain h] at hd ⊢
  exact hd

theorem scalarOr_of_plain (h : OperandRespelled R fields fields' name .plain) :
    scalarOr ⟨op, fields', decode⟩ name = scalarOr ⟨op, fields, decode⟩ name := by
  simp only [scalarOr, Fields.getOrNull, get?_of_plain h]

theorem reals_of_plain (h : OperandRespelled R fields fields' name .reals) {x : Datum}
    (hx : reals ⟨op, fields, decode⟩ name = .ok x) : reals ⟨op, fields', decode⟩ name = .ok x := by
  obtain ⟨d, hd, hx⟩ := bind_eq_ok_iff.mp hx
  exact bind_eq_ok_iff.mpr ⟨d, required_of_plain (R := R) h hd, hx⟩

theorem member_of_respelled {e : Enumeration}
    (h : OperandRespelled R fields fields' name (.member e)) {x : Document}
    (hx : member ⟨op, fields, decode⟩ e name = .ok x) :
    member ⟨op, fields', decode⟩ e name = .ok x := by
  refine read_required_of_rel h (fun d d' hr hd => ?_) hx
  rw [decode_member_of_respelled hr]
  exact hd

theorem property_of_respelled (h : OperandRespelled R fields fields' name .property)
    {p : Slot PropertyPath} (hp : property ⟨op, fields, decode⟩ name = .ok p) :
    property ⟨op, fields', decode⟩ name = .ok p := by
  refine read_required_of_rel h (fun d d' hr hd => ?_) hp
  rw [decode_property_of_respelled hr]
  exact hd

theorem propertyOr_of_respelled (h : OperandRespelled R fields fields' name .property)
    {p : Slot PropertyPath} (hp : propertyOr ⟨op, fields, decode⟩ name = .ok p) :
    propertyOr ⟨op, fields', decode⟩ name = .ok p := by
  refine read_getD_of_rel (f := fun d => do return Slot.ofOption (← PropertyPath.decode d)) h
    (fun d d' hr hd => ?_) hp
  rw [decode_property_of_respelled hr]
  exact hd

theorem object_of_respelled (h : OperandRespelled R fields fields' name .object)
    {r : Slot ObjectRef} (hr : object ⟨op, fields, decode⟩ name = .ok r) :
    object ⟨op, fields', decode⟩ name = .ok r := by
  refine read_required_of_rel h (fun d d' hrel hd => ?_) hr
  rw [decode_object_of_respelled hrel]
  exact hd

include hR

theorem operand_of_respelled (h : OperandRespelled R fields fields' name .place) {o : Operand}
    (ho : operand ⟨op, fields, decode⟩ name = .ok o) (hknown : o.Known) :
    operand ⟨op, fields', decode⟩ name = .ok o :=
  read_required_of_rel h (fun d d' hr hd => (hR d d' hr).readOperand hd hknown) ho

theorem operandOr_of_respelled (h : OperandRespelled R fields fields' name .place) {o : Operand}
    (ho : operandOr ⟨op, fields, decode⟩ name = .ok o) (hknown : o.Known) :
    operandOr ⟨op, fields', decode⟩ name = .ok o :=
  read_getD_of_rel h (fun d d' hr hd => (hR d d' hr).readOperand hd hknown) ho

theorem readOperands_of_respelled {d d' : Document} (h : OperandKind.items.Respelled R d d')
    {ps : Operands} (hps : readOperands decode d = .ok ps) (hknown : ∀ o ∈ ps.places, o.Known) :
    readOperands decode d' = .ok ps := by
  rcases h with rfl | ⟨ds, ds', rfl, rfl, hitems⟩
  · exact hps
  · simp only [readOperands, Document.parts] at hps ⊢
    obtain ⟨os, hos, rfl⟩ := map_eq_ok_iff.mp hps
    refine map_eq_ok_iff.mpr ⟨os, mapM_of_forall₂ hitems hos fun x x' hx o ho hread => ?_, rfl⟩
    obtain ⟨i, hi, rfl⟩ := map_eq_ok_iff.mp hread
    rw [(hR x x' hx).decode i hi (hknown _ ho)]
    rfl

theorem operandsOr_of_respelled (h : OperandRespelled R fields fields' name .items)
    {ps : Operands} (hps : operandsOr ⟨op, fields, decode⟩ name = .ok ps)
    (hknown : ∀ o ∈ ps.places, o.Known) : operandsOr ⟨op, fields', decode⟩ name = .ok ps :=
  read_getD_of_rel h (fun _ _ hr hd => readOperands_of_respelled hR hr hd hknown) hps

end Node

/-! ## Texts and choices are read alike -/

include hR

theorem decodeText_of_respelled
    (hops : ∀ o ∈ Shape.textConst.operands, OperandRespelled R fields fields' o.name o.kind)
    {b : Body} (hb : decodeText ⟨op, fields, decode⟩ = .ok b) (hknown : ∀ o ∈ b.places, o.Known) :
    decodeText ⟨op, fields', decode⟩ = .ok b := by
  simp only [Shape.operands, OperandSpec.must, OperandSpec.may, List.forall_mem_cons] at hops
  obtain ⟨hkind, hspace, hkey, hsource, htableId, htable, -⟩ := hops
  simp only [decodeText, bind_eq_ok_iff, pure_eq_ok_iff] at hb ⊢
  obtain ⟨d, hd, kind, hdkind, space, hspace', key, hkey', source, hsource', tableId, htableId',
    table, htable', rfl⟩ := hb
  simp only [Body.places, ScriptText.places, List.forall_mem_cons] at hknown
  obtain ⟨d', hd', hr⟩ := ownOperand_of_rel hkind hd
  have hdkind' : textKind d' = .ok kind := (textKind_of_respelled hr).trans hdkind
  have htable'' : ObjectRef.decode (Fields.getOrNull fields' "table") = .ok table :=
    read_getD_of_rel htable (fun _ _ hr hx => (decode_object_of_respelled hr).trans hx) htable'
  exact ⟨d', hd', kind, hdkind',
    space, Node.operandOr_of_respelled hR hspace hspace' hknown.1,
    key, Node.operandOr_of_respelled hR hkey hkey' hknown.2.1,
    source, Node.operandOr_of_respelled hR hsource hsource' hknown.2.2.1,
    tableId, Node.operandOr_of_respelled hR htableId htableId' hknown.2.2.2.1,
    table, htable'', rfl⟩

theorem decodeCase_of_respelled {d d' : Document} (h : CaseRespelled R d d') {c : SwitchCase}
    (hc : decodeCase decode d = .ok c) (hknown : ∀ o ∈ c.places, o.Known) :
    decodeCase decode d' = .ok c := by
  obtain ⟨fields, fields', rfl, rfl, hvalue, hnext, hterm⟩ := h
  simp only [decodeCase, bind_eq_ok_iff, pure_eq_ok_iff] at hc ⊢
  obtain ⟨v, hv, i, hi, x, hx, next, hxnext, t, ht, j, hj, rfl⟩ := hc
  simp only [SwitchCase.places, List.forall_mem_cons] at hknown
  obtain ⟨v', hv', hrv⟩ := ownOperand_of_rel hvalue hv
  obtain ⟨t', ht', hrt⟩ := ownOperand_of_rel hterm ht
  have hx' : ownOperand (.object fields') "next_offset" = .ok x := by
    simp only [ownOperand, ← hnext] at hx ⊢
    split at hx
    · exact hx
    · simp at hx
  exact ⟨v', hv', i, (hR v v' hrv).decode i hi hknown.1, x, hx', next, hxnext,
    t', ht', j, (hR t t' hrt).decode j hj hknown.2.1, rfl⟩

theorem decodeSwitch_of_respelled
    (hops : ∀ o ∈ Shape.switchValue.operands, OperandRespelled R fields fields' o.name o.kind)
    {b : Body} (hb : decodeSwitch ⟨op, fields, decode⟩ = .ok b) (hknown : ∀ o ∈ b.places, o.Known) :
    decodeSwitch ⟨op, fields', decode⟩ = .ok b := by
  simp only [Shape.operands, OperandSpec.must, List.forall_mem_cons] at hops
  obtain ⟨hindex, hfinish, hcases, hfallback, -⟩ := hops
  simp only [decodeSwitch, bind_eq_ok_iff, pure_eq_ok_iff] at hb ⊢
  obtain ⟨x, hx, i, hi, y, hy, finish, hyfinish, ds, hds, cs, hcs, z, hz, j, hj, rfl⟩ := hb
  simp only [Body.places, List.forall_mem_cons] at hknown
  obtain ⟨hknowni, hknownj, hknowncs⟩ := hknown
  obtain ⟨x', hx', hrx⟩ := ownOperand_of_rel hindex hx
  obtain ⟨z', hz', hrz⟩ := ownOperand_of_rel hfallback hz
  obtain ⟨y', hy', rfl⟩ := ownOperand_of_rel hfinish hy
  have hcs' : (((Fields.get? fields' "cases").getD (.list [])).parts >>=
      fun ds => ds.mapM (decodeCase decode)) = .ok cs := by
    refine read_getD_of_rel (f := fun d => d.parts >>= fun ds => ds.mapM (decodeCase decode)) hcases
      (fun d d' hr hd => ?_) (bind_eq_ok_iff.mpr ⟨ds, hds, hcs⟩)
    rcases hr with rfl | ⟨es, es', rfl, rfl, hall⟩
    · exact hd
    · refine mapM_of_forall₂ hall hd fun e e' he c hc hread => ?_
      exact decodeCase_of_respelled hR he hread fun o ho =>
        hknowncs o (List.mem_flatMap.mpr ⟨c, hc, ho⟩)
  obtain ⟨ds', hds', hcs'⟩ := bind_eq_ok_iff.mp hcs'
  exact ⟨x', hx', i, (hR x x' hrx).decode i hi hknowni, y, hy', finish, hyfinish, ds', hds', cs,
    hcs', z', hz', j, (hR z z' hrz).decode j hj hknownj, rfl⟩

/-! ## One level -/

/-- Respelled operands are read alike, whatever their shape. -/
theorem decodeBody_of_respelled {shape : Shape}
    (hops : ∀ o ∈ shape.operands, OperandRespelled R fields fields' o.name o.kind) {b : Body}
    (hb : decodeBody ⟨op, fields, decode⟩ shape = .ok b) (hknown : ∀ o ∈ b.places, o.Known) :
    decodeBody ⟨op, fields', decode⟩ shape = .ok b := by
  obtain rfl : b.shape = shape := (decodeBody_read hb).shape_eq
  cases b with
  | textConst text => exact decodeText_of_respelled hR hops hb hknown
  | switchValue index finish cases fallback => exact decodeSwitch_of_respelled hR hops hb hknown
  | bare => exact hb
  | unknown label => exact hb
  | marker => exact hb
  | _ =>
    simp only [Body.shape, Shape.operands, OperandSpec.must, OperandSpec.may,
      List.forall_mem_cons] at hops
    simp only [Body.places, List.forall_mem_cons] at hknown
    simp only [decodeBody, Body.shape, bind_eq_ok_iff, pure_eq_ok_iff] at hb ⊢
    grind [→ Node.required_of_plain, Node.scalarOr_of_plain, → Node.reals_of_plain,
      → Node.member_of_respelled, → Node.property_of_respelled, → Node.propertyOr_of_respelled,
      → Node.object_of_respelled, → Node.operand_of_respelled, → Node.operandOr_of_respelled,
      → Node.operandsOr_of_respelled]

end Readers

/-! ## All levels -/

theorem opcodeOf?_eq_of_tags {raw raw' : Document}
    (h : raw = raw' ∨ ∃ op : Opcode, raw ∈ op.spellings ∧ raw' ∈ op.spellings) :
    opcodeOf? raw' = opcodeOf? raw := by
  rcases h with rfl | ⟨op, hraw, hraw'⟩
  · rfl
  · rw [opcodeOf?_of_spelling hraw, opcodeOf?_of_spelling hraw']

theorem Respelled.follows {d d' : Document} (h : Respelled d d') : Follows d d' := by
  induction h with
  | same d => exact ⟨id, fun _ hd _ => hd⟩
  | @node R fields fields' raw raw' inside tag tag' tags operands ih =>
    refine ⟨fun h => by simp at h, fun i hi hknown => ?_⟩
    have hroot := hknown _ .root
    rw [decode_eq_step] at hi ⊢
    obtain ⟨_, _, hd, hraw, hlevel⟩ := decodeStep_eq_ok hi
    obtain rfl := Document.object.inj hd
    obtain rfl := Option.some.inj (tag.symm.trans hraw)
    rcases hlevel with ⟨-, rfl⟩ | ⟨op, -, -, rfl⟩ | ⟨op, shape, body, hop, hshape, hbody, rfl⟩
    -- A tag without a shape shows how it was spelled, but it makes no known record.
    · simp [uncharted, Operand.isKnown] at hroot
    · simp [uncharted, Operand.isKnown] at hroot
    · have hbody' := decodeBody_of_respelled ih (operands op shape hop hshape) hbody
        fun o ho c hc => hknown c (.head ho hc)
      simp only [decodeStep, tag', opcodeOf?_eq_of_tags tags, hop, hshape, hbody']
      rfl

/-- Documents that are respelled again and again decode to the same instruction. -/
theorem decode_of_respelled {d d' : Document} (h : Relation.ReflTransGen Respelled d d') {i : Instr}
    (hd : decode d = .ok i) (hknown : (Operand.instr i).Known) : decode d' = .ok i := by
  induction h with
  | refl => exact hd
  | tail _ hstep ih => exact hstep.follows.decode i ih hknown

/-- The listing of a script that is given as a document. -/
def listScript (e : Encoding) (s : Listing.Setting) (d : Document) : Except Fault Listing := do
  disassemble e s ((← decodeScript d).map .instr)

/-- Notation makes no difference: what is respelled anywhere in a document that decodes to known
records decodes to the same tree, and every script that it stands in has the same listing. -/
theorem decode_spelling_irrelevant {d d' : Document} {i : Instr}
    (h : Relation.ReflTransGen Respelled d d') (hd : decode d = .ok i)
    (hknown : ∀ o, Occurs (.instr i) o → o.isKnown = true) :
    decode d' = .ok i
    ∧ ∀ (e : Encoding) (s : Listing.Setting) (before after : List Document),
        listScript e s (.list (before ++ d' :: after))
          = listScript e s (.list (before ++ d :: after)) := by
  have hd' := decode_of_respelled h hd hknown
  refine ⟨hd', fun e s before after => ?_⟩
  simp only [listScript, decodeScript_list, List.mapM_append, List.mapM_cons, hd, hd']

/-- Objects whose tags are notations of one opcode are respelled if their operands are. -/
theorem Respelled.record (op : Opcode) {shape : Shape} (hshape : op.shape? = some shape)
    {raw raw' : Document} (hraw : raw ∈ op.spellings) (hraw' : raw' ∈ op.spellings)
    {rest rest' : Fields}
    (hops : ∀ o ∈ shape.operands,
      OperandRespelled Respelled (("inst", raw) :: rest) (("inst", raw') :: rest') o.name o.kind) :
    Respelled (.object (("inst", raw) :: rest)) (.object (("inst", raw') :: rest')) := by
  refine .node (fun _ _ h => h) rfl rfl (.inr ⟨op, hraw, hraw'⟩) fun op' shape' hop' hshape' => ?_
  rw [opcodeOf?_of_spelling hraw] at hop'
  obtain rfl := Option.some.inj hop'
  obtain rfl := Option.some.inj (hshape.symm.trans hshape')
  exact hops

/-- The variable of an assignment, by a path. -/
def sampleTarget (path : Document) : Document :=
  .object [("inst", .text "EX_LocalVariable"), ("variable", path)]

/-- A conversion of what a tag stands for. -/
def sampleCast (conversion tag : Document) : Document :=
  .object [("inst", .text "EX_Cast"), ("conversion", conversion),
    ("target", .object [("inst", tag)])]

/-- A call with two parameters, of which the first may vary. -/
def sampleCall (tag function parameter : Document) : Document :=
  .object [("inst", tag), ("function", function),
    ("parameters", .list [parameter, .object [("inst", .text "EX_IntZero")]])]

/-- An assignment without a property. -/
def sampleLet (tag target value : Document) : Document :=
  .object [("inst", tag), ("variable", target), ("assignment", value)]

/-- The assignment of a call, with everything by name. -/
def sampleByName : Document :=
  sampleLet (.text "EX_LetObj") (sampleTarget (.list [.text "Self", .text "Door"]))
    (sampleCall (.text "EX_FinalFunction") (.text "Open")
      (sampleCast (.text "ObjectToBool") (.text "EX_Self")))

/-- The same assignment in mixed notations. -/
def sampleByCode : Document :=
  sampleLet (.int 0x5F) (sampleTarget (.text "Self.Door"))
    (sampleCall (.int 0x1C) (.object [("name", .text "Open")])
      (sampleCast (.int 0x47) (.int 0x17)))

theorem sample_respelled : Respelled sampleByName sampleByCode := by
  have htarget : Respelled (sampleTarget (.list [.text "Self", .text "Door"]))
      (sampleTarget (.text "Self.Door")) := by
    have hdotted :
        .text "Self.Door" ∈ PropertyPath.spellings [.text "Self", .text "Door"] := by
      simp [PropertyPath.spellings, Document.display, Scalar.display]
    refine .record .localVariable rfl (.head _) (.head _) ?_
    simp only [Shape.operands, OperandSpec.must, List.forall_mem_cons]
    exact ⟨.some (.inr ⟨_, .head _, hdotted⟩), List.forall_mem_nil _⟩
  have hself : Respelled (.object [("inst", .text "EX_Self")]) (.object [("inst", .int 0x17)]) :=
    .record .self rfl (.head _) (.tail _ (.head _)) (List.forall_mem_nil _)
  have hcast : Respelled (sampleCast (.text "ObjectToBool") (.text "EX_Self"))
      (sampleCast (.int 0x47) (.int 0x17)) := by
    refine .record .cast rfl (.head _) (.head _) ?_
    simp only [Shape.operands, OperandSpec.must, List.forall_mem_cons]
    exact ⟨.some (.inr ⟨"ObjectToBool", 0x47, rfl, .head _, .tail _ (.head _)⟩), .some hself,
      List.forall_mem_nil _⟩
  have hcall : Respelled
      (sampleCall (.text "EX_FinalFunction") (.text "Open")
        (sampleCast (.text "ObjectToBool") (.text "EX_Self")))
      (sampleCall (.int 0x1C) (.object [("name", .text "Open")])
        (sampleCast (.int 0x47) (.int 0x17))) := by
    refine .record .finalFunction rfl (.head _) (.tail _ (.head _)) ?_
    simp only [Shape.operands, OperandSpec.must, OperandSpec.may, List.forall_mem_cons]
    exact ⟨.some (.inr ⟨"Open", .head _, .tail _ (.head _)⟩),
      .some (.inr ⟨_, _, rfl, rfl, .cons hcast (.cons (.same _) .nil)⟩), List.forall_mem_nil _⟩
  refine .record .letObj rfl (.head _) (.tail _ (.head _)) ?_
  simp only [Shape.operands, OperandSpec.must, OperandSpec.may, List.forall_mem_cons]
  exact ⟨.some htarget, .some hcall, .none, List.forall_mem_nil _⟩

/-- The instruction of both documents. -/
def sampleOpening : Instr :=
  .mk (.code 0x5F) (.assignment
    (.instr (.mk (.code 0) (.variable (.given ⟨["Self", "Door"]⟩))))
    (.instr (.mk (.code 0x1C) (.finalCall (.given ⟨.document (.text "Open"), .null⟩)
      (.list [.instr (.mk (.code 0x38) (.primitiveCast (.document (.int 0x47))
          (.instr (.mk (.code 0x17) .marker)))),
        .instr (.mk (.code 0x25) .marker)]))))
    .empty)

theorem decode_sampleByName : decode sampleByName = .ok sampleOpening := rfl

theorem isKnown_sampleOpening : ∀ o, Occurs (.instr sampleOpening) o → o.isKnown = true := by
  have hmarker : ∀ (n : Int) (o : Operand), Occurs (.instr (.mk (.code n) .marker)) o →
      o.isKnown = true :=
    fun n => Occurs.forall_iff.mpr ⟨rfl, List.forall_mem_nil _⟩
  refine Occurs.forall_iff.mpr ⟨rfl,
    List.forall_mem_cons.mpr ⟨?_, List.forall_mem_singleton.mpr ?_⟩⟩
  · exact Occurs.forall_iff.mpr ⟨rfl, List.forall_mem_nil _⟩
  · refine Occurs.forall_iff.mpr ⟨rfl,
      List.forall_mem_cons.mpr ⟨?_, List.forall_mem_singleton.mpr (hmarker 0x25)⟩⟩
    exact Occurs.forall_iff.mpr ⟨rfl, List.forall_mem_singleton.mpr (hmarker 0x17)⟩

theorem decode_spelling_irrelevant_sample :
    Respelled sampleByName sampleByCode
    ∧ decode sampleByName = .ok sampleOpening
    ∧ (∀ o, Occurs (.instr sampleOpening) o → o.isKnown = true)
    ∧ decode sampleByCode = .ok sampleOpening
    ∧ ∀ e s, listScript e s (.list [sampleByCode]) = listScript e s (.list [sampleByName]) := by
  have h := decode_spelling_irrelevant (.single sample_respelled) decode_sampleByName
    isKnown_sampleOpening
  exact ⟨sample_respelled, decode_sampleByName, isKnown_sampleOpening, h.1,
    fun e s => h.2 e s [] []⟩

end Instr

end Kismet
