import Kismet.Proofs.Decode
import Kismet.Proofs.Lookup
import Mathlib.Data.List.Forall2
set_option autoImplicit false

/-!
# Format: how instructions are written as documents

An instruction is written as an object with the name of its opcode under `inst` and each
operand under the operand's own name.  The table `Shape.operands` has these names, with the
kinds of the operands and whether there is a default, and `Body.entries` holds the operands of
an instruction against it.  `Operand.WrittenAs` relates an instruction to all documents that
write it: operands may be left out that are at their default, and other keys do not matter.

`Instr.decode_of_written` says that decoding any of these documents gives the instruction
back.  Every shape and every kind of operand is treated in `decodeBody_of_written`, which is
about one level; what is nested is covered by induction.
-/

namespace Kismet

/-! ## The table -/

/-- What an operand is read as. -/
inductive OperandKind where
  /-- Data that is kept as it is. -/
  | plain
  /-- A whole number. -/
  | whole
  /-- Real numbers. -/
  | reals
  | member (e : Enumeration)
  | property
  | object
  /-- An instruction, which may be absent. -/
  | place
  /-- An instruction, which has to be there. -/
  | nested
  /-- Instructions, of which none may be absent. -/
  | items
  /-- The cases of a choice. -/
  | cases

/-- What is known of an operand of a shape. -/
structure OperandSpec where
  name : String
  kind : OperandKind
  /-- There is a default for the operand. -/
  hasDefault : Bool

/-- An operand without a default. -/
def OperandSpec.must (name : String) (kind : OperandKind) : OperandSpec := ⟨name, kind, false⟩

/-- An operand with a default. -/
def OperandSpec.may (name : String) (kind : OperandKind) : OperandSpec := ⟨name, kind, true⟩

/-- The operands of a shape, in order. -/
def Shape.operands : Shape → List OperandSpec
  | .bare | .unknown | .marker => []
  | .variable => [.must "variable" .property]
  | .propertyConst => [.must "property" .property]
  | .primitiveCast => [.must "conversion" (.member castTokens), .must "target" .place]
  | .classCast => [.must "class_ref" .object, .must "target" .place]
  | .assignment =>
    [.must "variable" .place, .must "assignment" .place, .may "property" .property]
  | .persistentAssignment => [.must "destination" .property, .must "assignment" .place]
  | .memberContext => [.must "member" .property, .must "struct_expression" .place]
  | .virtualCall => [.must "function_name" .plain, .may "parameters" .items]
  | .finalCall => [.must "function" .object, .may "parameters" .items]
  | .delegateCall =>
    [.must "function" .object, .must "delegate" .place, .may "parameters" .items]
  | .unary => [.must "operand" .place]
  | .computedJump => [.must "offset_expression" .place]
  | .jump => [.must "code_offset" .plain]
  | .jumpIfNot => [.must "code_offset" .plain, .must "condition" .place]
  | .context =>
    [.must "object_expression" .place, .must "skip_offset" .plain, .must "rvalue" .property,
     .must "context_expression" .place]
  | .literal => [.must "value" .plain]
  | .textConst =>
    [.must "literal_type" (.member textLiteralTypes), .may "namespace" .place, .may "key" .place,
     .may "source" .place, .may "table_id" .place, .may "table" .object]
  | .objectConst => [.must "value" .object]
  | .rotationConst => [.must "pitch" .plain, .must "yaw" .plain, .must "roll" .plain]
  | .vectorConst => [.must "x" .plain, .must "y" .plain, .must "z" .plain]
  | .transformConst =>
    [.must "rotation" .reals, .must "translation" .reals, .must "scale" .reals]
  | .structConst => [.must "struct" .object, .must "struct_size" .plain, .may "properties" .items]
  | .setArray =>
    [.may "elements" .items, .may "assigning_property" .place, .may "inner_property" .plain]
  | .arrayConst => [.must "inner_property" .property, .may "elements" .items]
  | .setSet => [.must "set_property" .place, .may "elements" .items]
  | .setConst => [.must "inner_property" .property, .may "elements" .items]
  | .setMap => [.must "map_property" .place, .may "elements" .items]
  | .mapConst =>
    [.must "key_property" .property, .must "value_property" .property, .may "elements" .items]
  | .assertion =>
    [.must "line_number" .plain, .must "debug_mode" .plain, .must "expression" .place]
  | .skip => [.must "code_offset" .plain, .must "expression" .place]
  | .instanceDelegate => [.must "function_name" .plain]
  | .multicastDelegate => [.must "delegate" .place, .must "delegate_to_add" .place]
  | .bindDelegate =>
    [.must "function_name" .plain, .must "delegate" .place, .must "object_term" .place]
  | .pushFlow => [.must "pushing_address" .plain]
  | .instrumentation =>
    [.must "event_type" (.member instrumentationTypes), .may "event_name" .plain]
  | .switchValue =>
    [.must "index_term" .nested, .must "end_offset" .whole, .must "cases" .cases,
     .must "default_term" .nested]
  | .arrayGetByRef => [.must "array_variable" .place, .must "array_index" .place]

/-! ## The operands of an instruction -/

/-- An operand, by the way it is written. -/
inductive Arg where
  /-- Data that is kept as it is. -/
  | scalar (x : Datum)
  /-- A whole number. -/
  | whole (x : Datum)
  /-- Real numbers. -/
  | reals (x : Datum)
  | path (p : Slot PropertyPath)
  | object (r : Slot ObjectRef)
  /-- An instruction, which may be absent. -/
  | place (o : Operand)
  /-- An instruction, which has to be there. -/
  | nested (o : Operand)
  /-- Instructions, of which none may be absent. -/
  | items (ps : Operands)
  | cases (cs : Cases)

/-- The operands of a text constant, in the order of the table. -/
def ScriptText.args : ScriptText → List Arg
  | .mk kind space key source tableId table =>
    [.scalar kind, .place space, .place key, .place source, .place tableId, .object table]
  -- What is no text has no kind, and so it cannot be written.
  | .foreign => [.scalar .null]

/-- The operands of an instruction, in the order of the table. -/
def Body.args : Body → List Arg
  | .bare | .unknown _ | .marker => []
  | .variable p | .propertyConst p => [.path p]
  | .primitiveCast x o | .jumpIfNot x o | .skip x o => [.scalar x, .place o]
  | .classCast r o => [.object r, .place o]
  | .assignment o o' p => [.place o, .place o', .path p]
  | .persistentAssignment p o | .memberContext p o => [.path p, .place o]
  | .virtualCall x ps => [.scalar x, .items ps]
  | .finalCall r ps => [.object r, .items ps]
  | .delegateCall r o ps => [.object r, .place o, .items ps]
  | .unary o | .computedJump o => [.place o]
  | .jump x | .literal x | .instanceDelegate x | .pushFlow x => [.scalar x]
  | .context o x p o' => [.place o, .scalar x, .path p, .place o']
  | .textConst text => text.args
  | .objectConst r => [.object r]
  | .rotationConst x y z | .vectorConst x y z | .transformConst x y z =>
    [.scalar x, .scalar y, .scalar z]
  | .structConst r x ps => [.object r, .scalar x, .items ps]
  | .setArray ps o x => [.items ps, .place o, .scalar x]
  | .arrayConst p ps | .setConst p ps => [.path p, .items ps]
  | .setSet o ps | .setMap o ps => [.place o, .items ps]
  | .mapConst p p' ps => [.path p, .path p', .items ps]
  | .assertion x y o => [.scalar x, .scalar y, .place o]
  | .multicastDelegate o o' | .arrayGetByRef o o' => [.place o, .place o']
  | .bindDelegate x o o' => [.scalar x, .place o, .place o']
  | .instrumentation x y => [.scalar x, .scalar y]
  | .switchValue o x cs o' => [.place o, .scalar x, .cases cs, .place o']

/-- The operand as it is written for its kind: data may have to be numbers, and an instruction
may have to be there. -/
def OperandKind.arg : OperandKind → Arg → Arg
  | .whole, .scalar x | .member _, .scalar x => .whole x
  | .reals, .scalar x => .reals x
  | .nested, .place o => .nested o
  | _, a => a

/-- An operand under its name. -/
structure Entry where
  name : String
  arg : Arg
  /-- There is a default for the operand. -/
  hasDefault : Bool

/-- An operand without a default. -/
def Entry.must (name : String) (arg : Arg) : Entry := ⟨name, arg, false⟩

/-- An operand with a default. -/
def Entry.may (name : String) (arg : Arg) : Entry := ⟨name, arg, true⟩

/-- The operand that stands in the place that the table has for it. -/
def OperandSpec.entry (s : OperandSpec) (a : Arg) : Entry :=
  ⟨s.name, s.kind.arg a, s.hasDefault⟩

@[simp]
theorem OperandSpec.entry_must (name : String) (kind : OperandKind) (a : Arg) :
    (must name kind).entry a = .must name (kind.arg a) := rfl

@[simp]
theorem OperandSpec.entry_may (name : String) (kind : OperandKind) (a : Arg) :
    (may name kind).entry a = .may name (kind.arg a) := rfl

/-- The operands of an instruction under their names. -/
def Body.entries (b : Body) : List Entry :=
  (b.shape.operands.zip b.args).map fun x => x.1.entry x.2

theorem Body.exists_of_mem_entries {b : Body} {e : Entry} (h : e ∈ b.entries) :
    ∃ s ∈ b.shape.operands, ∃ a ∈ b.args, e = s.entry a := by
  obtain ⟨⟨s, a⟩, hmem, rfl⟩ := List.mem_map.mp h
  obtain ⟨hs, ha⟩ := List.of_mem_zip hmem
  exact ⟨s, hs, a, ha, rfl⟩

/-! ## Documents that write an instruction -/

/-- The operand is at its default: absent or empty. -/
def Arg.IsDefault : Arg → Prop
  | .scalar x => x = .null
  | .path p => p = .empty
  | .object r => r = .empty
  | .place o => o = .missing
  | .items ps => ps = .list []
  | _ => False

/-- An instruction stands there, and the document writes it. -/
def Operand.Stands (R : Operand → Document → Prop) (o : Operand) (d : Document) : Prop :=
  (∃ i, o = .instr i) ∧ R o d

/-- The document writes the case of a choice. -/
def SwitchCase.WrittenAs (R : Operand → Document → Prop) (c : SwitchCase) (d : Document) : Prop :=
  ∃ value n term fields v t, c = .mk value (.document (.int n)) term ∧ d = .object fields
    ∧ Fields.get? fields "value" = some v ∧ value.Stands R v
    ∧ Fields.get? fields "next_offset" = some (.int n)
    ∧ Fields.get? fields "term" = some t ∧ term.Stands R t

/-- The document writes the operand; `R` says which documents write a nested instruction. -/
def Arg.WrittenAs (R : Operand → Document → Prop) : Arg → Document → Prop
  | .scalar x, d => x = .document d
  | .whole x, d => ∃ n, x = .document (.int n) ∧ d = .int n
  | .reals x, d => ∃ xs : List Binary64,
      x = .tuple (xs.map fun r => .document (.real r)) ∧ d = .list (xs.map .real)
  | .path .empty, d => d = .null
  | .path (.given p), d => ∃ fields, d = .object fields
      ∧ Fields.get? fields "path" = some (.list (p.segments.map .text))
  | .path (.unusable _), _ => False
  | .object .empty, d => d = .null
  | .object (.given r), d => ∃ fields name, d = .object fields
      ∧ Fields.get? fields "name" = some name
      ∧ r = ⟨.document name, .document (Fields.getOrNull fields "outer")⟩
  | .object (.unusable _), _ => False
  | .place o, d => R o d
  | .nested o, d => o.Stands R d
  | .items ps, d => ∃ os ds, ps = .list os ∧ d = .list ds ∧ List.Forall₂ (Operand.Stands R) os ds
  | .cases cs, d => ∃ cs' ds, cs = .list cs' ∧ d = .list ds
      ∧ List.Forall₂ (SwitchCase.WrittenAs R) cs' ds

/-- The operand stands under its name, or it is left out and at its default. -/
def Entry.WrittenIn (R : Operand → Document → Prop) (fields : Fields) (e : Entry) : Prop :=
  (∃ d, Fields.get? fields e.name = some d ∧ e.arg.WrittenAs R d)
    ∨ (Fields.get? fields e.name = none ∧ e.hasDefault = true ∧ e.arg.IsDefault)

/-- All operands are written in the object, and it may hold anything besides. -/
def Body.WrittenIn (R : Operand → Document → Prop) (fields : Fields) (b : Body) : Prop :=
  ∀ e ∈ b.entries, e.WrittenIn R fields

/-- The document writes what stands at the place. -/
inductive Operand.WrittenAs : Operand → Document → Prop where
  | missing : WrittenAs .missing .null
  /-- The instructions inside are written in some way `R` that is allowed here. -/
  | instr {R : Operand → Document → Prop} {op : Opcode} {body : Body} {fields : Fields}
      (inside : ∀ o d, R o d → WrittenAs o d)
      (tag : Fields.get? fields "inst" = some (.text op.name))
      (shape : op.shape? = some body.shape) (operands : body.WrittenIn R fields) :
      WrittenAs (.instr (.mk (.code op.code) body)) (.object fields)

theorem Entry.must_writtenIn_iff {R : Operand → Document → Prop} {fields : Fields} {name : String}
    {a : Arg} :
    (must name a).WrittenIn R fields ↔ ∃ d, Fields.get? fields name = some d ∧ a.WrittenAs R d := by
  simp [WrittenIn, must]

theorem Entry.may_writtenIn_iff {R : Operand → Document → Prop} {fields : Fields} {name : String}
    {a : Arg} :
    (may name a).WrittenIn R fields
      ↔ (∃ d, Fields.get? fields name = some d ∧ a.WrittenAs R d)
        ∨ (Fields.get? fields name = none ∧ a.IsDefault) := by
  simp [WrittenIn, may]

/-! ## One level is read back -/

namespace Instr

namespace Node

/-- The document is read as what stands at the place. -/
def Reads (n : Node) (o : Operand) (d : Document) : Prop :=
  readOperand n.self d = .ok o

variable {n : Node} {name : String}

/-- Where an instruction stands, it is what was read there. -/
theorem self_of_stands {o : Operand} {d : Document} (h : o.Stands n.Reads d) :
    ∃ i, o = .instr i ∧ n.self d = .ok i := by
  obtain ⟨⟨i, rfl⟩, hread⟩ := h
  refine ⟨i, rfl, ?_⟩
  unfold Reads readOperand at hread
  split at hread
  · simp at hread
  · obtain ⟨j, hj, hij⟩ := map_eq_ok_iff.mp hread
    rw [hj, Operand.instr.inj hij]

theorem required_eq_ok {d : Document} (h : Fields.get? n.fields name = some d) :
    n.required name = .ok d := by
  rw [required, h]

theorem required_of_written {x : Datum}
    (h : (Entry.must name (.scalar x)).WrittenIn n.Reads n.fields) :
    ∃ d, n.required name = .ok d ∧ x = .document d := by
  obtain ⟨d, hd, hx⟩ := Entry.must_writtenIn_iff.mp h
  exact ⟨d, required_eq_ok hd, hx⟩

theorem scalarOr_of_written {x : Datum}
    (h : (Entry.may name (.scalar x)).WrittenIn n.Reads n.fields) :
    x = .document (n.scalarOr name) := by
  rw [scalarOr, Fields.getOrNull]
  rcases Entry.may_writtenIn_iff.mp h with ⟨d, hd, hx⟩ | ⟨hd, hx⟩
  · rw [hd]
    exact hx
  · rw [hd]
    exact hx

theorem operand_of_written {o : Operand}
    (h : (Entry.must name (.place o)).WrittenIn n.Reads n.fields) : n.operand name = .ok o := by
  obtain ⟨d, hd, ho⟩ := Entry.must_writtenIn_iff.mp h
  rw [operand, required_eq_ok hd]
  exact ho

theorem operandOr_of_written {o : Operand}
    (h : (Entry.may name (.place o)).WrittenIn n.Reads n.fields) : n.operandOr name = .ok o := by
  rw [operandOr, Fields.getOrNull]
  rcases Entry.may_writtenIn_iff.mp h with ⟨d, hd, ho⟩ | ⟨hd, rfl⟩
  · rw [hd]
    exact ho
  · rw [hd]
    rfl

/-- Instructions that are read one by one are read together. -/
theorem readOperands_of_stands {os : List Operand} {ds : List Document}
    (h : List.Forall₂ (Operand.Stands n.Reads) os ds) :
    readOperands n.self (.list ds) = .ok (.list os) := by
  have hitems : ds.mapM (fun d => (n.self d).map Operand.instr) = .ok os := by
    refine mapM_eq_ok (h.imp fun o d hod => ?_)
    obtain ⟨i, rfl, hi⟩ := self_of_stands hod
    rw [hi]
    rfl
  simp only [readOperands, Document.parts, hitems]
  rfl

theorem operandsOr_of_written {ps : Operands}
    (h : (Entry.may name (.items ps)).WrittenIn n.Reads n.fields) : n.operandsOr name = .ok ps := by
  rw [operandsOr]
  rcases Entry.may_writtenIn_iff.mp h with ⟨d, hd, os, ds, rfl, rfl, hitems⟩ | ⟨hd, rfl⟩
  · rw [hd]
    exact readOperands_of_stands hitems
  · rw [hd]
    rfl

/-- A path that is written is decoded to itself. -/
theorem decode_of_path {R : Operand → Document → Prop} {p : Slot PropertyPath} {d : Document}
    (h : (Arg.path p).WrittenAs R d) :
    ∃ p', PropertyPath.decode d = .ok p' ∧ p = .ofOption p' := by
  cases p with
  | unusable f => exact h.elim
  | empty =>
    obtain rfl : d = .null := h
    exact ⟨none, rfl, rfl⟩
  | given p =>
    obtain ⟨fields, rfl, hpath⟩ := h
    have hsegments : (p.segments.map Document.text).map Document.display = p.segments := by
      rw [List.map_map]
      exact List.map_id _
    refine ⟨some p, ?_, rfl⟩
    simp only [PropertyPath.decode, Fields.getOrNull, hpath, Option.getD_some,
      PropertyPath.ofParts, Document.parts, Except.map, hsegments]

/-- An object that is written is decoded to itself. -/
theorem decode_of_object {R : Operand → Document → Prop} {r : Slot ObjectRef} {d : Document}
    (h : (Arg.object r).WrittenAs R d) :
    ∃ r', ObjectRef.decode d = .ok r' ∧ r = .ofOption r' := by
  cases r with
  | unusable f => exact h.elim
  | empty =>
    obtain rfl : d = .null := h
    exact ⟨none, rfl, rfl⟩
  | given r =>
    obtain ⟨fields, name, rfl, hname, rfl⟩ := h
    refine ⟨some _, ?_, rfl⟩
    simp only [ObjectRef.decode, hname]

theorem property_of_written {p : Slot PropertyPath}
    (h : (Entry.must name (.path p)).WrittenIn n.Reads n.fields) : n.property name = .ok p := by
  obtain ⟨d, hd, hp⟩ := Entry.must_writtenIn_iff.mp h
  obtain ⟨p', hp', rfl⟩ := decode_of_path hp
  exact bind_eq_ok_iff.mpr ⟨d, required_eq_ok hd, bind_eq_ok_iff.mpr ⟨p', hp', rfl⟩⟩

theorem propertyOr_of_written {p : Slot PropertyPath}
    (h : (Entry.may name (.path p)).WrittenIn n.Reads n.fields) : n.propertyOr name = .ok p := by
  rw [propertyOr, Fields.getOrNull]
  rcases Entry.may_writtenIn_iff.mp h with ⟨d, hd, hp⟩ | ⟨hd, rfl⟩
  · obtain ⟨p', hp', rfl⟩ := decode_of_path hp
    rw [hd]
    exact bind_eq_ok_iff.mpr ⟨p', hp', rfl⟩
  · rw [hd]
    rfl

theorem object_of_written {r : Slot ObjectRef}
    (h : (Entry.must name (.object r)).WrittenIn n.Reads n.fields) : n.object name = .ok r := by
  obtain ⟨d, hd, hr⟩ := Entry.must_writtenIn_iff.mp h
  obtain ⟨r', hr', rfl⟩ := decode_of_object hr
  exact bind_eq_ok_iff.mpr ⟨d, required_eq_ok hd, bind_eq_ok_iff.mpr ⟨r', hr', rfl⟩⟩

theorem member_of_written {x : Datum}
    (h : (Entry.must name (.whole x)).WrittenIn n.Reads n.fields) :
    ∃ d, (∀ e, n.member e name = .ok d) ∧ x = .document d := by
  obtain ⟨d, hd, k, rfl, rfl⟩ := Entry.must_writtenIn_iff.mp h
  exact ⟨.int k, fun e => bind_eq_ok_iff.mpr ⟨_, required_eq_ok hd, rfl⟩, rfl⟩

theorem reals_of_written {x : Datum}
    (h : (Entry.must name (.reals x)).WrittenIn n.Reads n.fields) : n.reals name = .ok x := by
  obtain ⟨d, hd, xs, rfl, rfl⟩ := Entry.must_writtenIn_iff.mp h
  have hxs : (xs.map Document.real).mapM (fun d => d.toReal.map fun r => Datum.document (.real r))
      = .ok (xs.map fun r => Datum.document (.real r)) := by
    refine mapM_eq_ok (List.forall₂_map_left_iff.mpr (List.forall₂_map_right_iff.mpr ?_))
    exact List.forall₂_same.mpr fun r _ => rfl
  exact bind_eq_ok_iff.mpr ⟨_, required_eq_ok hd, bind_eq_ok_iff.mpr ⟨_, rfl,
    bind_eq_ok_iff.mpr ⟨_, hxs, rfl⟩⟩⟩

end Node

/-! ## Texts and choices -/

theorem ownOperand_eq_ok {fields : Fields} {name : String} {d : Document}
    (h : Fields.get? fields name = some d) : ownOperand (.object fields) name = .ok d := by
  simp only [ownOperand, h]

theorem objectOr_of_written {R : Operand → Document → Prop} {fields : Fields} {name : String}
    {r : Slot ObjectRef} (h : (Entry.may name (.object r)).WrittenIn R fields) :
    ∃ r', ObjectRef.decode (Fields.getOrNull fields name) = .ok r' ∧ r = .ofOption r' := by
  rw [Fields.getOrNull]
  rcases Entry.may_writtenIn_iff.mp h with ⟨d, hd, hr⟩ | ⟨hd, rfl⟩
  · rw [hd]
    exact Node.decode_of_object hr
  · rw [hd]
    exact ⟨none, rfl, rfl⟩

theorem decodeText_of_written {n : Node} {t : ScriptText}
    (h : (Body.textConst t).WrittenIn n.Reads n.fields) : decodeText n = .ok (.textConst t) := by
  cases t with
  | foreign =>
    obtain ⟨d, -, k, hk, -⟩ := Entry.must_writtenIn_iff.mp (h _ (List.mem_singleton_self _))
    simp at hk
  | mk kind space key source tableId table =>
    simp only [Body.WrittenIn, Body.entries, Body.shape, Shape.operands, Body.args, ScriptText.args,
      List.zip_cons_cons, List.map_cons, OperandSpec.entry_must, OperandSpec.entry_may,
      OperandKind.arg, List.forall_mem_cons] at h
    obtain ⟨hkind, hspace, hkey, hsource, htableId, htable, -⟩ := h
    obtain ⟨d, hd, k, rfl, rfl⟩ := Entry.must_writtenIn_iff.mp hkind
    obtain ⟨r, hr, rfl⟩ := objectOr_of_written htable
    simp only [decodeText, bind_eq_ok_iff, pure_eq_ok_iff]
    exact ⟨_, ownOperand_eq_ok hd, k, rfl, space, Node.operandOr_of_written hspace,
      key, Node.operandOr_of_written hkey, source, Node.operandOr_of_written hsource,
      tableId, Node.operandOr_of_written htableId, r, hr, rfl⟩

theorem decodeCase_of_written {n : Node} {c : SwitchCase} {d : Document}
    (h : c.WrittenAs n.Reads d) : decodeCase n.self d = .ok c := by
  obtain ⟨value, k, term, fields, v, t, rfl, rfl, hv, hvalue, hnext, ht, hterm⟩ := h
  obtain ⟨i, rfl, hi⟩ := Node.self_of_stands hvalue
  obtain ⟨j, rfl, hj⟩ := Node.self_of_stands hterm
  simp only [decodeCase, bind_eq_ok_iff, pure_eq_ok_iff]
  exact ⟨v, ownOperand_eq_ok hv, i, hi, _, ownOperand_eq_ok hnext, k, rfl, t, ownOperand_eq_ok ht,
    j, hj, rfl⟩

theorem decodeSwitch_of_written {n : Node} {index fallback : Operand} {finish : Datum} {cs : Cases}
    (h : (Body.switchValue index finish cs fallback).WrittenIn n.Reads n.fields) :
    decodeSwitch n = .ok (.switchValue index finish cs fallback) := by
  simp only [Body.WrittenIn, Body.entries, Body.shape, Shape.operands, Body.args,
    List.zip_cons_cons, List.map_cons, OperandSpec.entry_must, OperandKind.arg,
    List.forall_mem_cons, Entry.must_writtenIn_iff] at h
  obtain ⟨⟨x, hx, hindex⟩, ⟨y, hy, k, rfl, rfl⟩, ⟨z, hz, items, ds, rfl, rfl, hcases⟩,
    ⟨w, hw, hfallback⟩, -⟩ := h
  obtain ⟨i, rfl, hi⟩ := Node.self_of_stands hindex
  obtain ⟨j, rfl, hj⟩ := Node.self_of_stands hfallback
  have hitems : ds.mapM (decodeCase n.self) = .ok items :=
    mapM_eq_ok (hcases.imp fun _ _ => decodeCase_of_written)
  simp only [decodeSwitch, bind_eq_ok_iff, pure_eq_ok_iff]
  refine ⟨x, ownOperand_eq_ok hx, i, hi, _, ownOperand_eq_ok hy, k, rfl, ds, ?_, items, hitems,
    w, ownOperand_eq_ok hw, j, hj, rfl⟩
  rw [hz]
  rfl

/-- Operands that are written in an object are read from it, whatever their shape. -/
theorem decodeBody_of_written {n : Node} {op : Opcode} {b : Body}
    (hshape : op.shape? = some b.shape) (h : b.WrittenIn n.Reads n.fields) :
    decodeBody n b.shape = .ok b := by
  cases b with
  | bare => cases op <;> simp [Opcode.shape?, Body.shape] at hshape
  | unknown label => cases op <;> simp [Opcode.shape?, Body.shape] at hshape
  | marker => rfl
  | textConst t => exact decodeText_of_written h
  | switchValue index finish cases fallback => exact decodeSwitch_of_written h
  | _ =>
    simp only [Body.WrittenIn, Body.entries, Body.shape, Shape.operands, Body.args,
      List.zip_cons_cons, List.map_cons, OperandSpec.entry_must, OperandSpec.entry_may,
      OperandKind.arg, List.forall_mem_cons] at h
    simp only [decodeBody, Body.shape, bind_eq_ok_iff, pure_eq_ok_iff]
    grind [→ Node.required_of_written, → Node.scalarOr_of_written, → Node.operand_of_written,
      → Node.operandOr_of_written, → Node.operandsOr_of_written, → Node.property_of_written,
      → Node.propertyOr_of_written, → Node.object_of_written, → Node.member_of_written,
      → Node.reals_of_written]

end Instr

/-! ## All levels are read back -/

theorem forall₂_imp_mem {α β : Type} {P Q : α → β → Prop} {xs : List α} {ys : List β}
    (h : List.Forall₂ P xs ys) (hPQ : ∀ x, ∀ y ∈ ys, P x y → Q x y) : List.Forall₂ Q xs ys := by
  induction h with
  | nil => exact .nil
  | cons hfirst _ ih =>
    exact .cons (hPQ _ _ (List.mem_cons_self ..) hfirst)
      (ih fun x y hy => hPQ x y (List.mem_cons_of_mem _ hy))

section Mono

variable {R S : Operand → Document → Prop}

theorem SwitchCase.WrittenAs.mono {c : SwitchCase} {d : Document} (h : c.WrittenAs R d)
    (hRS : ∀ o d', d'.depth ≤ d.depth → R o d' → S o d') : c.WrittenAs S d := by
  obtain ⟨value, n, term, fields, v, t, rfl, rfl, hv, ⟨hi, hvalue⟩, hnext, ht, ⟨hj, hterm⟩⟩ := h
  have hin : ∀ {key x}, Fields.get? fields key = some x →
      x.depth ≤ (Document.object fields).depth :=
    fun hx => Nat.le_succ_of_le (Document.depth_le_of_get? hx)
  exact ⟨value, n, term, fields, v, t, rfl, rfl, hv, ⟨hi, hRS _ _ (hin hv) hvalue⟩, hnext, ht,
    ⟨hj, hRS _ _ (hin ht) hterm⟩⟩

/-- Nested instructions may be written in another way; those that matter are not deeper than
the document. -/
theorem Arg.WrittenAs.mono {a : Arg} {d : Document} (h : a.WrittenAs R d)
    (hRS : ∀ o d', d'.depth ≤ d.depth → R o d' → S o d') : a.WrittenAs S d := by
  have hin : ∀ {ds : List Document} {x}, x ∈ ds → x.depth ≤ (Document.list ds).depth :=
    fun hx => Nat.le_succ_of_le (Document.depth_le_of_mem hx)
  cases a with
  | place o => exact hRS o d (Nat.le_refl _) h
  | nested o => exact ⟨h.1, hRS o d (Nat.le_refl _) h.2⟩
  | items ps =>
    obtain ⟨os, ds, rfl, rfl, hitems⟩ := h
    exact ⟨os, ds, rfl, rfl, forall₂_imp_mem hitems fun o x hx ho =>
      ⟨ho.1, hRS o x (hin hx) ho.2⟩⟩
  | cases cs =>
    obtain ⟨cs', ds, rfl, rfl, hcases⟩ := h
    exact ⟨cs', ds, rfl, rfl, forall₂_imp_mem hcases fun c x hx hc =>
      hc.mono fun o d' hd' => hRS o d' (Nat.le_trans hd' (hin hx))⟩
  | path p => cases p <;> exact h
  | object r => cases r <;> exact h
  | _ => exact h

theorem Body.WrittenIn.mono {b : Body} {fields : Fields} (h : b.WrittenIn R fields)
    (hRS : ∀ o d, d.depth ≤ Document.fieldsDepth fields → R o d → S o d) :
    b.WrittenIn S fields := by
  intro e he
  rcases h e he with ⟨d, hd, ha⟩ | hleft
  · exact .inl ⟨d, hd, ha.mono fun o d' hd' => hRS o d' (Nat.le_trans hd'
      (Document.depth_le_of_get? hd))⟩
  · exact .inr hleft

end Mono

theorem Opcode.ofName?_name (op : Opcode) : ofName? op.name = some op := by
  cases op <;> rfl

/-- A document is read as what it writes, if the bound does not get in the way. -/
theorem Operand.WrittenAs.readOperand_eq {o : Operand} {d : Document} (h : o.WrittenAs d) :
    ∀ bound, d.depth < bound → Instr.Node.readOperand (Instr.decodeWithin bound) d = .ok o := by
  induction h with
  | missing => intro bound _; rfl
  | @instr R op body fields inside tag shape operands ih =>
    intro bound hbound
    cases bound with
    | zero => exact absurd hbound (Nat.not_lt_zero _)
    | succ bound =>
      have hdepth : Document.fieldsDepth fields < bound := Nat.lt_of_succ_lt_succ hbound
      have hbody := Instr.decodeBody_of_written (n := ⟨op, fields, Instr.decodeWithin bound⟩) shape
        (operands.mono fun o d hd hR => ih o d hR bound (Nat.lt_of_le_of_lt hd hdepth))
      simp only [Instr.Node.readOperand, Instr.decodeWithin, Instr.decodeStep, tag,
        Instr.opcodeOf?, Opcode.ofName?_name, shape, hbody]
      rfl

/-- A document that writes an instruction decodes to it. -/
theorem Instr.decode_of_written {i : Instr} {d : Document} (h : Operand.WrittenAs (.instr i) d) :
    decode d = .ok i := by
  have hread := h.readOperand_eq (d.depth + 1) (Nat.lt_succ_self _)
  obtain ⟨j, hj, hi⟩ := Node.self_of_stands
    (n := ⟨.nothing, [], decodeWithin (d.depth + 1)⟩) ⟨⟨i, rfl⟩, hread⟩
  rw [Operand.instr.inj hj]
  exact hi

end Kismet
