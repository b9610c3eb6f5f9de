import Kismet.Proofs.Agreement
import Kismet.Proofs.Format
import Mathlib.Data.List.Nodup
import Mathlib.Logic.Relation
set_option autoImplicit false

/-!
# Encode: instructions as documents

`Operand.encode` writes an instruction with all of its operands.  Two kinds of edits leave
open what is written: an operand at its default may be left out, and keys may be added that
name no operand, in the object of the instruction or of any instruction inside it.  One edit
is `Operand.Edited`; what it keeps is that the document writes the instruction
(`Operand.Edited.written`), and so decoding gives the instruction back after any number of them.
-/

namespace Kismet

/-! ## What can be written -/

/-- The datum is a document. -/
def Datum.isDocument : Datum → Bool
  | .document _ => true
  | _ => false

/-- The datum is a fixed sequence of real numbers. -/
def Datum.isRealTuple : Datum → Bool
  | .tuple items => items.all Datum.isReal
  | _ => false

/-- Both names of the object are documents. -/
def ObjectRef.isWritable (r : ObjectRef) : Bool :=
  r.name.isDocument && r.outer.isDocument

/-- An instruction stands there. -/
def Operand.isInstr : Operand → Bool
  | .instr _ => true
  | _ => false

/-- The case has an offset, and its instructions are there. -/
def SwitchCase.isWritable : SwitchCase → Bool
  | .mk value next term => value.isInstr && next.isInt && term.isInstr
  | _ => false

/-- The operand is of the type that it is declared with. -/
def Arg.isWritable : Arg → Bool
  | .scalar x => x.isDocument
  | .whole x => x.isInt
  | .reals x => x.isRealTuple
  | .path p => p.isUsable
  | .object .empty => true
  | .object (.given r) => r.isWritable
  | .object (.unusable _) => false
  -- What stands there counts on its own.
  | .place _ => true
  | .nested o => o.isInstr
  | .items (.list os) => os.all Operand.isInstr
  | .items .unusable => false
  | .cases (.list cs) => cs.all SwitchCase.isWritable
  | .cases .unusable => false

/-- Nothing stands there, or an instruction with the operands that its opcode calls for. -/
def Operand.isWritable : Operand → Bool
  | .missing => true
  | .foreign => false
  | .instr (.mk (.code n) body) =>
    ((Opcode.ofCode? n).bind Opcode.shape? == some body.shape)
      && body.entries.all fun e => e.arg.isWritable
  | .instr _ => false

/-! ## Writing -/

/-- The places in an operand. -/
def Arg.places : Arg → List Operand
  | .place o | .nested o => [o]
  | .items ps => ps.places
  | .cases cs => cs.places
  | _ => []

theorem OperandKind.places_arg (kind : OperandKind) (a : Arg) :
    (kind.arg a).places = a.places := by
  unfold arg
  split <;> rfl

theorem Body.mem_places_of_arg {b : Body} {a : Arg} (ha : a ∈ b.args) {o : Operand}
    (ho : o ∈ a.places) : o ∈ b.places := by
  cases b with
  | bare | unknown | marker => simp [args] at ha
  | textConst t =>
    cases t <;> simp only [args, ScriptText.args, List.mem_cons, List.not_mem_nil] at ha <;>
      grind [Arg.places, places, ScriptText.places]
  | _ =>
    simp only [args, List.mem_cons, List.not_mem_nil] at ha
    grind [Arg.places, places]

theorem Body.mem_places_of_entry {b : Body} {e : Entry} (he : e ∈ b.entries) {o : Operand}
    (ho : o ∈ e.arg.places) : o ∈ b.places := by
  obtain ⟨s, -, a, ha, rfl⟩ := exists_of_mem_entries he
  exact mem_places_of_arg ha (s.kind.places_arg a ▸ ho)

/-- The document that a datum is; a fixed sequence is a list. -/
def Datum.encode : Datum → Document
  | .document d => d
  | .tuple items => .list (items.map fun
      | .document d => d
      | _ => .null)
  | .record .. => .null

/-- A property by its path. -/
def PropertyPath.encode (p : PropertyPath) : Document :=
  .object [("path", .list (p.segments.map .text))]

/-- An object by its name and the name of the object outside it. -/
def ObjectRef.encode (r : ObjectRef) : Document :=
  .object [("name", r.name.encode), ("outer", r.outer.encode)]

/-- A reference, or nothing. -/
def Slot.encode {α : Type} (write : α → Document) : Slot α → Document
  | .given a => write a
  | _ => .null

/-- A case; `write` writes the instructions in it. -/
def SwitchCase.encode : (c : SwitchCase) → ((o : Operand) → o ∈ c.places → Document) → Document
  | .mk value next term, write =>
    .object [("value", write value (List.mem_cons_self ..)), ("next_offset", next.encode),
      ("term", write term (List.mem_cons_of_mem _ (List.mem_cons_self ..)))]
  | _, _ => .null

/-- An operand; `write` writes the instructions in it. -/
def Arg.encode : (a : Arg) → ((o : Operand) → o ∈ a.places → Document) → Document
  | .scalar x, _ | .whole x, _ | .reals x, _ => x.encode
  | .path p, _ => p.encode PropertyPath.encode
  | .object r, _ => r.encode ObjectRef.encode
  | .place o, write | .nested o, write => write o (List.mem_singleton_self o)
  | .items (.list os), write => .list (os.attach.map fun o => write o.1 o.2)
  | .cases (.list cs), write => .list (cs.attach.map fun c =>
      c.1.encode fun o ho => write o (List.mem_flatMap.mpr ⟨c.1, c.2, ho⟩))
  | .items .unusable, _ | .cases .unusable, _ => .null

/-- The name of the opcode that a tag is the code of. -/
def Tag.encode (t : Tag) : Document :=
  match t.opcode? with
  | some op => .text op.name
  | none => .null

/-- The document of what stands at the place, with nothing left out. -/
def Operand.encode (o : Operand) : Document :=
  match o with
  | .instr (.mk tag body) =>
    .object (("inst", tag.encode) :: body.entries.attach.map fun e =>
      (e.1.name, e.1.arg.encode fun c _ => c.encode))
  | _ => .null
termination_by sizeOf o
decreasing_by
  exact sizeOf_lt_of_mem_places (o := .instr (.mk tag body)) (Body.mem_places_of_entry e.2 ‹_›)

/-- The document of an instruction, with nothing left out. -/
def Instr.encode (i : Instr) : Document :=
  Operand.encode (.instr i)

/-! ## Names are distinct -/

/-- No two operands have one name, and none has the name of the tag. -/
theorem Body.nodup_names (b : Body) : ("inst" :: b.entries.map Entry.name).Nodup := by
  cases b with
  | textConst t =>
    cases t <;> simp [entries, shape, Shape.operands, args, ScriptText.args, Entry.must, Entry.may]
  | _ => simp [entries, shape, Shape.operands, args, Entry.must, Entry.may]

theorem Body.name_ne_inst {b : Body} {e : Entry} (h : e ∈ b.entries) : e.name ≠ "inst" :=
  fun hname => (List.nodup_cons.mp b.nodup_names).1 (List.mem_map.mpr ⟨e, h, hname⟩)

theorem Body.entry_eq_of_name_eq {b : Body} {e e' : Entry} (h : e ∈ b.entries)
    (h' : e' ∈ b.entries) (hname : e.name = e'.name) : e = e' :=
  List.inj_on_of_nodup_map (List.nodup_cons.mp b.nodup_names).2 h h' hname

/-! ## What is written is written -/

theorem Datum.eq_document_of_isDocument {x : Datum} (h : x.isDocument = true) :
    ∃ d, x = .document d := by
  cases x with
  | document d => exact ⟨d, rfl⟩
  | tuple items => simp [isDocument] at h
  | record title fields => simp [isDocument] at h

theorem Operand.eq_instr_of_isInstr {o : Operand} (h : o.isInstr = true) : ∃ i, o = .instr i := by
  cases o with
  | instr i => exact ⟨i, rfl⟩
  | missing => simp [isInstr] at h
  | foreign => simp [isInstr] at h

theorem Datum.eq_reals_of_isRealTuple {x : Datum} (h : x.isRealTuple = true) :
    ∃ rs : List Binary64, x = .tuple (rs.map fun r => .document (.real r)) := by
  cases x with
  | document d => simp [isRealTuple] at h
  | record title fields => simp [isRealTuple] at h
  | tuple items =>
    induction items with
    | nil => exact ⟨[], rfl⟩
    | cons first rest ih =>
      simp only [isRealTuple, List.all_cons, Bool.and_eq_true] at h
      obtain ⟨r, rfl⟩ := eq_real_of_isReal h.1
      obtain ⟨rs, hrs⟩ := ih h.2
      exact ⟨r :: rs, by rw [Datum.tuple.inj hrs]; rfl⟩

/-- A list is related to what its members are mapped to, if they are. -/
theorem forall₂_attach_map {α β : Type} {P : α → β → Prop} {xs : List α}
    {f : {x // x ∈ xs} → β} (h : ∀ x, P x.1 (f x)) : List.Forall₂ P xs (xs.attach.map f) := by
  have hpairs : List.Forall₂ P (xs.attach.map Subtype.val) (xs.attach.map f) :=
    List.forall₂_map_left_iff.mpr (List.forall₂_map_right_iff.mpr
      (List.forall₂_same.mpr fun x _ => h x))
  rwa [List.attach_map_subtype_val] at hpairs

section Written

variable {R : Operand → Document → Prop}

theorem SwitchCase.encode_written {c : SwitchCase} (hc : c.isWritable = true)
    {write : (o : Operand) → o ∈ c.places → Document} (hwrite : ∀ o ho, R o (write o ho)) :
    c.WrittenAs R (c.encode write) := by
  cases c with
  | valued value => simp [isWritable] at hc
  | foreign => simp [isWritable] at hc
  | mk value next term =>
    simp only [isWritable, Bool.and_eq_true] at hc
    obtain ⟨⟨hvalue, hnext⟩, hterm⟩ := hc
    obtain ⟨n, rfl⟩ := Datum.eq_int_of_isInt hnext
    exact ⟨value, n, term, _, _, _, rfl, rfl, rfl,
      ⟨Operand.eq_instr_of_isInstr hvalue, hwrite value _⟩, rfl, rfl,
      ⟨Operand.eq_instr_of_isInstr hterm, hwrite term _⟩⟩

theorem Arg.encode_written {a : Arg} (ha : a.isWritable = true)
    {write : (o : Operand) → o ∈ a.places → Document} (hwrite : ∀ o ho, R o (write o ho)) :
    a.WrittenAs R (a.encode write) := by
  cases a with
  | scalar x =>
    obtain ⟨d, rfl⟩ := Datum.eq_document_of_isDocument ha
    rfl
  | whole x =>
    obtain ⟨n, rfl⟩ := Datum.eq_int_of_isInt ha
    exact ⟨n, rfl, rfl⟩
  | reals x =>
    obtain ⟨rs, rfl⟩ := Datum.eq_reals_of_isRealTuple ha
    refine ⟨rs, rfl, ?_⟩
    simp only [encode, Datum.encode, List.map_map]
    rfl
  | path p =>
    cases p with
    | unusable f => simp [isWritable, Slot.isUsable] at ha
    | empty => rfl
    | given p => exact ⟨_, rfl, rfl⟩
  | object r =>
    cases r with
    | unusable f => simp [isWritable] at ha
    | empty => rfl
    | given r =>
      obtain ⟨name, outer⟩ := r
      simp only [isWritable, ObjectRef.isWritable, Bool.and_eq_true] at ha
      obtain ⟨d, rfl⟩ := Datum.eq_document_of_isDocument ha.1
      obtain ⟨d', rfl⟩ := Datum.eq_document_of_isDocument ha.2
      exact ⟨_, d, rfl, rfl, rfl⟩
  | place o => exact hwrite o _
  | nested o => exact ⟨Operand.eq_instr_of_isInstr ha, hwrite o _⟩
  | items ps =>
    cases ps with
    | unusable => simp [isWritable] at ha
    | list os =>
      exact ⟨os, _, rfl, rfl, forall₂_attach_map fun o =>
        ⟨Operand.eq_instr_of_isInstr (List.all_eq_true.mp ha o.1 o.2), hwrite o.1 o.2⟩⟩
  | cases cs =>
    cases cs with
    | unusable => simp [isWritable] at ha
    | list cs =>
      exact ⟨cs, _, rfl, rfl, forall₂_attach_map fun c =>
        SwitchCase.encode_written (List.all_eq_true.mp ha c.1 c.2) fun o _ => hwrite o _⟩

end Written

/-- All that a writable instruction can be. -/
theorem Operand.isWritable_instr {i : Instr} (h : (Operand.instr i).isWritable = true) :
    ∃ op : Opcode, ∃ body : Body, i = .mk (.code op.code) body ∧ op.shape? = some body.shape
      ∧ ∀ e ∈ body.entries, e.arg.isWritable = true := by
  obtain ⟨tag, body⟩ := i
  cases tag with
  | word s => simp [isWritable] at h
  | other d => simp [isWritable] at h
  | code n =>
    simp only [isWritable, Bool.and_eq_true, beq_iff_eq, List.all_eq_true] at h
    obtain ⟨op, hop, hshape⟩ := Option.bind_eq_some_iff.mp h.1
    have hcode : (op.code : Int) = n := by simpa using List.find?_some hop
    exact ⟨op, body, by rw [hcode], hshape, h.2⟩

/-- The document of an instruction writes it, if everything in it can be written. -/
theorem Operand.encode_written (o : Operand) :
    (∀ o', Occurs o o' → o'.isWritable = true) → o.WrittenAs o.encode := by
  induction o using Operand.placesInduction with
  | step o ih =>
    intro h
    cases o with
    | foreign => exact absurd (h _ .root) (by simp [isWritable])
    | missing =>
      rw [encode]
      · exact .missing
      · simp
    | instr i =>
      obtain ⟨op, body, rfl, hshape, hargs⟩ := isWritable_instr (h _ .root)
      have hkeys : (Fields.keys (("inst", (Tag.code op.code).encode) ::
          body.entries.attach.map fun e =>
            (e.1.name, e.1.arg.encode fun c _ => c.encode))).Nodup := by
        have hnames : body.entries.attach.map (fun e => e.1.name) = body.entries.map Entry.name :=
          List.attach_map_val
        simpa [Fields.keys, List.map_map, Function.comp_def, hnames] using body.nodup_names
      have htag : (Tag.code op.code).encode = .text op.name := by
        simp [Tag.encode, Tag.opcode?, Opcode.ofCode?_code]
      rw [encode]
      refine .instr (R := WrittenAs) (fun _ _ h => h) ?_ hshape ?_
      · rw [Fields.get?_cons, if_pos rfl, htag]
      · intro e he
        refine .inl ⟨_, Fields.get?_of_mem hkeys (List.mem_cons_of_mem _
          (List.mem_map_of_mem (List.mem_attach _ ⟨e, he⟩))), ?_⟩
        refine Arg.encode_written (hargs e he) fun c hc => ?_
        have hplace : c ∈ (Operand.instr (.mk (.code op.code) body)).places :=
          Body.mem_places_of_entry he hc
        exact ih c hplace fun o' ho' => h o' (.head hplace ho')

/-! ## Edits -/

/-- One edit in a case of a choice; `S` edits the instructions. -/
def SwitchCase.EditedBy (S : Operand → Document → Document → Prop) (c : SwitchCase)
    (d d' : Document) : Prop :=
  ∃ value next term fields x x', c = .mk value next term ∧ d = .object fields ∧
    ((Fields.get? fields "value" = some x ∧ S value x x'
        ∧ d' = .object (Fields.set fields "value" x'))
      ∨ (Fields.get? fields "term" = some x ∧ S term x x'
        ∧ d' = .object (Fields.set fields "term" x')))

/-- One edit in an operand; `S` edits the instructions. -/
def Arg.EditedBy (S : Operand → Document → Document → Prop) : Arg → Document → Document → Prop
  | .place o, d, d' | .nested o, d, d' => S o d d'
  | .items ps, d, d' => ∃ os ds n o x x', ps = .list os ∧ d = .list ds ∧ os[n]? = some o
      ∧ ds[n]? = some x ∧ S o x x' ∧ d' = .list (ds.set n x')
  | .cases cs, d, d' => ∃ cs' ds n c x x', cs = .list cs' ∧ d = .list ds ∧ cs'[n]? = some c
      ∧ ds[n]? = some x ∧ c.EditedBy S x x' ∧ d' = .list (ds.set n x')
  | _, _, _ => False

/-- One edit in the document of an instruction, at any level. -/
inductive Operand.Edited : Operand → Document → Document → Prop where
  /-- A key is added that names no operand, or its value is changed. -/
  | add {tag : Tag} {body : Body} {fields : Fields} {key : String} (value : Document)
      (notTag : key ≠ "inst") (notOperand : ∀ e ∈ body.entries, e.name ≠ key) :
      Edited (.instr (.mk tag body)) (.object fields) (.object (Fields.set fields key value))
  /-- An operand at its default is left out. -/
  | leaveOut {tag : Tag} {body : Body} {fields : Fields} {e : Entry} (mem : e ∈ body.entries)
      (hasDefault : e.hasDefault = true) (atDefault : e.arg.IsDefault) :
      Edited (.instr (.mk tag body)) (.object fields) (.object (Fields.without fields e.name))
  /-- The edit is made in an instruction inside. -/
  | inside {S : Operand → Document → Document → Prop} {tag : Tag} {body : Body} {fields : Fields}
      {e : Entry} {d d' : Document} (inner : ∀ o x x', S o x x' → Edited o x x')
      (mem : e ∈ body.entries) (there : Fields.get? fields e.name = some d)
      (edit : e.arg.EditedBy S d d') :
      Edited (.instr (.mk tag body)) (.object fields) (.object (Fields.set fields e.name d'))

theorem Operand.writtenAs_instr_iff {tag : Tag} {body : Body} {fields : Fields} :
    WrittenAs (.instr (.mk tag body)) (.object fields)
      ↔ ∃ op : Opcode, tag = .code op.code ∧ Fields.get? fields "inst" = some (.text op.name)
        ∧ op.shape? = some body.shape ∧ body.WrittenIn WrittenAs fields := by
  constructor
  · intro h
    cases h with
    | instr inside htag hshape hbody =>
      exact ⟨_, rfl, htag, hshape, hbody.mono fun o d _ hR => inside o d hR⟩
  · rintro ⟨op, rfl, htag, hshape, hbody⟩
    exact .instr (fun _ _ h => h) htag hshape hbody

/-- Two related lists stay so when an item is replaced by another one that is related. -/
theorem forall₂_set {α β : Type} {P : α → β → Prop} {xs : List α} {ys : List β}
    (h : List.Forall₂ P xs ys) {n : Nat} {x : α} {y y' : β} (hx : xs[n]? = some x)
    (hy : ys[n]? = some y) (hP : P x y → P x y') : List.Forall₂ P xs (ys.set n y') := by
  induction h generalizing n with
  | nil => simp at hx
  | cons hfirst hrest ih =>
    cases n with
    | zero =>
      obtain rfl := Option.some.inj hx
      obtain rfl := Option.some.inj hy
      exact .cons (hP hfirst) hrest
    | succ n => exact .cons hfirst (ih hx hy)

section Edited

variable {S : Operand → Document → Document → Prop}
  (hS : ∀ o d d', S o d d' → o.WrittenAs d → o.WrittenAs d')

include hS

theorem SwitchCase.EditedBy.written {c : SwitchCase} {d d' : Document} (h : c.EditedBy S d d')
    (hw : c.WrittenAs Operand.WrittenAs d) : c.WrittenAs Operand.WrittenAs d' := by
  obtain ⟨value, n, term, fields, v, t, rfl, rfl, hv, ⟨hi, hvalue⟩, hnext, ht, ⟨hj, hterm⟩⟩ := hw
  obtain ⟨_, _, _, _, x, x', hc, hd, h⟩ := h
  cases hc
  cases hd
  rcases h with ⟨hx, hedit, rfl⟩ | ⟨hx, hedit, rfl⟩
  · obtain rfl : v = x := Option.some.inj (hv.symm.trans hx)
    refine ⟨value, n, term, _, x', t, rfl, rfl, Fields.get?_set_self ..,
      ⟨hi, hS _ _ _ hedit hvalue⟩, ?_, ?_, ⟨hj, hterm⟩⟩
    · rwa [Fields.get?_set_of_ne]
      decide
    · rwa [Fields.get?_set_of_ne]
      decide
  · obtain rfl : t = x := Option.some.inj (ht.symm.trans hx)
    refine ⟨value, n, term, _, v, x', rfl, rfl, ?_, ⟨hi, hvalue⟩, ?_, Fields.get?_set_self ..,
      ⟨hj, hS _ _ _ hedit hterm⟩⟩
    · rwa [Fields.get?_set_of_ne]
      decide
    · rwa [Fields.get?_set_of_ne]
      decide

theorem Arg.EditedBy.written {a : Arg} {d d' : Document} (h : a.EditedBy S d d')
    (hw : a.WrittenAs Operand.WrittenAs d) : a.WrittenAs Operand.WrittenAs d' := by
  cases a with
  | place o => exact hS o d d' h hw
  | nested o => exact ⟨hw.1, hS o d d' h hw.2⟩
  | items ps =>
    obtain ⟨os, ds, rfl, rfl, hitems⟩ := hw
    obtain ⟨_, _, n, o, x, x', hos, hds, ho, hx, hedit, rfl⟩ := h
    cases hos
    cases hds
    exact ⟨os, _, rfl, rfl, forall₂_set hitems ho hx fun hox => ⟨hox.1, hS o x x' hedit hox.2⟩⟩
  | cases cs =>
    obtain ⟨cs', ds, rfl, rfl, hcases⟩ := hw
    obtain ⟨_, _, n, c, x, x', hcs, hds, hc, hx, hedit, rfl⟩ := h
    cases hcs
    cases hds
    exact ⟨cs', _, rfl, rfl, forall₂_set hcases hc hx fun hcx =>
      SwitchCase.EditedBy.written hS hedit hcx⟩
  | _ => exact h.elim

end Edited

/-- An edit keeps that the document writes the instruction. -/
theorem Operand.Edited.written {o : Operand} {d d' : Document} (h : o.Edited d d') :
    o.WrittenAs d → o.WrittenAs d' := by
  induction h with
  | @add tag body fields key value notTag notOperand =>
    rw [writtenAs_instr_iff, writtenAs_instr_iff]
    rintro ⟨op, rfl, htag, hshape, hbody⟩
    refine ⟨op, rfl, ?_, hshape, fun e he => ?_⟩
    · rw [Fields.get?_set_of_ne _ _ notTag.symm, htag]
    · rw [Entry.WrittenIn, Fields.get?_set_of_ne _ _ (notOperand e he)]
      exact hbody e he
  | @leaveOut tag body fields e mem hasDefault atDefault =>
    rw [writtenAs_instr_iff, writtenAs_instr_iff]
    rintro ⟨op, rfl, htag, hshape, hbody⟩
    refine ⟨op, rfl, ?_, hshape, fun e' he' => ?_⟩
    · rw [Fields.get?_without, if_neg (Body.name_ne_inst mem).symm, htag]
    · rw [Entry.WrittenIn, Fields.get?_without]
      by_cases hname : e'.name = e.name
      · obtain rfl := Body.entry_eq_of_name_eq he' mem hname
        exact .inr ⟨if_pos rfl, hasDefault, atDefault⟩
      · rw [if_neg hname]
        exact hbody e' he'
  | @inside S tag body fields e d d' inner mem there edit ih =>
    rw [writtenAs_instr_iff, writtenAs_instr_iff]
    rintro ⟨op, rfl, htag, hshape, hbody⟩
    refine ⟨op, rfl, ?_, hshape, fun e' he' => ?_⟩
    · rw [Fields.get?_set_of_ne _ _ (Body.name_ne_inst mem).symm, htag]
    · by_cases hname : e'.name = e.name
      · obtain rfl := Body.entry_eq_of_name_eq he' mem hname
        rcases hbody e' he' with ⟨x, hx, hw⟩ | ⟨hnone, -⟩
        · obtain rfl : d = x := Option.some.inj (there.symm.trans hx)
          exact .inl ⟨d', Fields.get?_set_self .., Arg.EditedBy.written ih edit hw⟩
        · exact absurd (there.symm.trans hnone) (by simp)
      · rw [Entry.WrittenIn, Fields.get?_set_of_ne _ _ hname]
        exact hbody e' he'

/-- Any number of edits keeps that the document writes the instruction. -/
theorem Operand.written_of_edits {o : Operand} {d d' : Document}
    (h : Relation.ReflTransGen o.Edited d d') (hd : o.WrittenAs d) : o.WrittenAs d' := by
  induction h with
  | refl => exact hd
  | tail _ hstep ih => exact hstep.written ih

namespace Instr

/-- Decoding inverts encoding, for every instruction whose opcodes have operands of the
declared types at all levels.  It still does after operands at their default are left out and
keys that name no operand are added, in any of the objects and any number of times. -/
theorem decode_inverts_encode (i : Instr) (h : ∀ o, Occurs (.instr i) o → o.isWritable = true) :
    decode i.encode = .ok i
      ∧ ∀ d, Relation.ReflTransGen (Operand.instr i).Edited i.encode d → decode d = .ok i := by
  have hwritten : Operand.WrittenAs (.instr i) i.encode := Operand.encode_written _ h
  exact ⟨decode_of_written hwritten,
    fun d hd => decode_of_written (Operand.written_of_edits hd hwritten)⟩

/-- A call with one parameter. -/
def sampleKnock : Instr :=
  .mk (.code 0x1B) (.virtualCall (.document (.text "Knock")) (.list [Listing.sampleConstant]))

/-- The result of the call is assigned to a variable, without a property. -/
def sampleAssignment : Instr :=
  .mk (.code 0x0F) (.assignment Listing.sampleVariable (.instr sampleKnock) .empty)

/-- The call as a document, with a constant that is written as `d`. -/
def sampleKnockWith (d : Document) : Document :=
  .object [("inst", .text "EX_VirtualFunction"), ("function_name", .text "Knock"),
    ("parameters", .list [d])]

/-- The constant as a document. -/
def sampleConstantFields : Fields := [("inst", .text "EX_IntConst"), ("value", .int 7)]

/-- The assignment as a document, with a call that is written as `d` and with `rest` after it. -/
def sampleAssignmentWith (d : Document) (rest : Fields) : Document :=
  .object ([("inst", .text "EX_Let"),
    ("variable", .object [("inst", .text "EX_LocalVariable"), ("variable", .null)]),
    ("assignment", d)] ++ rest)

theorem encode_sampleAssignment : sampleAssignment.encode
    = sampleAssignmentWith (sampleKnockWith (.object sampleConstantFields))
        [("property", .null)] := by
  simp [sampleAssignment, sampleKnock, Listing.sampleVariable, Listing.sampleConstant,
    sampleAssignmentWith, sampleKnockWith, sampleConstantFields, encode, Operand.encode,
    Body.entries, Body.shape, Shape.operands, Body.args, OperandKind.arg, Entry.must, Entry.may,
    Arg.encode, Slot.encode, Datum.encode, List.attach, List.attachWith]
  exact ⟨rfl, rfl, rfl, rfl⟩

theorem isWritable_sampleAssignment :
    ∀ o, Occurs (.instr sampleAssignment) o → o.isWritable = true := by
  have hvariable : ∀ o, Occurs Listing.sampleVariable o → o.isWritable = true :=
    Occurs.forall_iff.mpr ⟨rfl, List.forall_mem_nil _⟩
  have hconstant : ∀ o, Occurs Listing.sampleConstant o → o.isWritable = true :=
    Occurs.forall_iff.mpr ⟨rfl, List.forall_mem_nil _⟩
  have hknock : ∀ o, Occurs (.instr sampleKnock) o → o.isWritable = true :=
    Occurs.forall_iff.mpr ⟨rfl, List.forall_mem_singleton.mpr hconstant⟩
  exact Occurs.forall_iff.mpr ⟨rfl,
    List.forall_mem_cons.mpr ⟨hvariable, List.forall_mem_singleton.mpr hknock⟩⟩

/-- A remark is added to the constant, two levels down. -/
theorem edited_sampleKnock :
    (Operand.instr sampleKnock).Edited (sampleKnockWith (.object sampleConstantFields))
      (sampleKnockWith (.object (sampleConstantFields ++ [("remark", .text "lucky")]))) := by
  have hconstant : Listing.sampleConstant.Edited (.object sampleConstantFields)
      (.object (sampleConstantFields ++ [("remark", .text "lucky")])) := by
    refine Operand.Edited.add (.text "lucky") (show "remark" ≠ "inst" by decide) ?_
    exact List.forall_mem_singleton.mpr (by decide)
  exact .inside (S := Operand.Edited)
    (e := .may "parameters" (.items (.list [Listing.sampleConstant]))) (fun _ _ _ h => h)
    (.tail _ (.head _)) rfl
    ⟨_, _, 0, _, _, _, rfl, rfl, rfl, rfl, hconstant, rfl⟩

theorem decode_inverts_encode_sample :
    (∀ o, Occurs (.instr sampleAssignment) o → o.isWritable = true)
      ∧ decode (sampleAssignmentWith (sampleKnockWith
          (.object (sampleConstantFields ++ [("remark", .text "lucky")]))) [])
        = .ok sampleAssignment := by
  refine ⟨isWritable_sampleAssignment,
    (decode_inverts_encode sampleAssignment isWritable_sampleAssignment).2 _ ?_⟩
  rw [encode_sampleAssignment]
  have hproperty : (Operand.instr sampleAssignment).Edited
      (sampleAssignmentWith (sampleKnockWith (.object sampleConstantFields)) [("property", .null)])
      (sampleAssignmentWith (sampleKnockWith (.object sampleConstantFields)) []) :=
    .leaveOut (e := .may "property" (.path .empty)) (.tail _ (.tail _ (.head _))) rfl rfl
  have hknock : (Operand.instr sampleAssignment).Edited
      (sampleAssignmentWith (sampleKnockWith (.object sampleConstantFields)) [])
      (sampleAssignmentWith (sampleKnockWith
        (.object (sampleConstantFields ++ [("remark", .text "lucky")]))) []) :=
    .inside (S := Operand.Edited) (e := .must "assignment" (.place (.instr sampleKnock)))
      (fun _ _ _ h => h) (.tail _ (.head _)) rfl edited_sampleKnock
  exact .head hproperty (.single hknock)

end Instr

end Kismet
