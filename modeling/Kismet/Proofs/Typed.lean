import Kismet.Proofs.Layout
set_option autoImplicit false

/-!
# Typed: instructions with operands of the declared types

An instruction whose scalar operands are of the declared types can be listed, but for
two things: a whole number that is shown in decimal may have too many digits, and the
kind of a text constant may be unknown.  `itemsAll_bodyItems` says so of the items of
the instruction, and `itemsFault?_eq_some` says where a walk of them stops.
-/

namespace Kismet

/-! ## Operands of the declared types

Only what is converted on the way to a listing has to be of its type; what is
merely displayed may be anything. -/

/-- The slot is empty or holds a reference. -/
def Slot.isUsable {α : Type} : Slot α → Bool
  | .unusable _ => false
  | _ => true

/-- The datum is a whole number. -/
def Datum.isInt : Datum → Bool
  | .document (.int _) => true
  | _ => false

/-- The datum is a real number. -/
def Datum.isReal : Datum → Bool
  | .document (.real _) => true
  | _ => false

/-- The datum is a text. -/
def Datum.isText : Datum → Bool
  | .document (.text _) => true
  | _ => false

/-- The datum has a given number of parts, all of them real numbers. -/
def Datum.areReals (count : Nat) (d : Datum) : Bool :=
  match d.parts with
  | .ok items => items.length == count && items.all isReal
  | .error _ => false

/-- The case is one, and its offset a whole number. -/
def SwitchCase.isTyped : SwitchCase → Bool
  | .mk _ next _ => next.isInt
  | _ => false

/-- A list of typed cases stands in the place of the cases. -/
def Cases.isTyped : Cases → Bool
  | .list items => items.all SwitchCase.isTyped
  | .unusable => false

/-- A text stands in the place of the text, and its kind is a whole number. -/
def ScriptText.isTyped : ScriptText → Bool
  | .mk kind _ _ _ _ _ => kind.isInt
  | .foreign => false

/-- The forms in which literals are shown. -/
inductive LiteralForm where
  | decimal
  | address
  | real
  | text
  deriving DecidableEq, Repr, Inhabited

/-- The form of the literals of an opcode; most opcodes call for no literal. -/
def Opcode.literalForm? : Opcode → Option LiteralForm
  | .intConst | .int64Const | .uInt64Const => some .decimal
  | .skipOffsetConst | .byteConst | .intConstByte => some .address
  | .floatConst | .doubleConst => some .real
  | .stringConst | .unicodeStringConst | .nameConst => some .text
  | _ => none

/-- The literal is of the kind that the opcode calls for, if it calls for one. -/
def Opcode.literalFits (op : Opcode) (value : Datum) : Bool :=
  match op.literalForm? with
  | some .decimal | some .address => value.isInt
  | some .real => value.isReal
  | some .text => value.isText
  | none => true

/-- The scalar operands are of the declared types; `op` is the opcode of the tag,
if it has one. -/
def Body.isTyped (op : Option Opcode) : Body → Bool
  | .variable p | .propertyConst p | .persistentAssignment p _ | .memberContext p _
  | .context _ _ p _ => p.isUsable
  | .classCast c _ | .objectConst c => c.isUsable
  | .virtualCall _ parameters => parameters.isList
  | .finalCall function parameters | .delegateCall function _ parameters =>
    function.isUsable && parameters.isList
  | .jump target | .jumpIfNot target _ | .pushFlow target => target.isInt
  | .literal value => op.all fun op => op.literalFits value
  | .textConst text => text.isTyped
  | .rotationConst x y z | .vectorConst x y z => x.isReal && y.isReal && z.isReal
  | .transformConst rotation translation scale =>
    rotation.areReals 4 && translation.areReals 3 && scale.areReals 3
  | .structConst struct _ members => struct.isUsable && members.isList
  | .setArray elements _ _ | .setSet _ elements | .setMap _ elements => elements.isList
  | .arrayConst inner elements | .setConst inner elements => inner.isUsable && elements.isList
  | .mapConst key value elements => key.isUsable && value.isUsable && elements.isList
  | .switchValue _ finish cases _ => finish.isInt && cases.isTyped
  | .unknown label => label.isNull || label.isText
  | _ => true

/-- Nothing stands there, or a record with a number for a tag and scalar operands
of the declared types. -/
def Operand.isTyped : Operand → Bool
  | .missing => true
  | .instr (.mk (.code n) body) => body.isTyped (Opcode.ofCode? n)
  | _ => false

theorem Datum.eq_int_of_isInt {d : Datum} (h : d.isInt = true) : ∃ n, d = .document (.int n) := by
  unfold isInt at h
  split at h
  · exact ⟨_, rfl⟩
  · simp at h

theorem Datum.eq_real_of_isReal {d : Datum} (h : d.isReal = true) :
    ∃ x, d = .document (.real x) := by
  unfold isReal at h
  split at h
  · exact ⟨_, rfl⟩
  · simp at h

theorem Datum.eq_text_of_isText {d : Datum} (h : d.isText = true) :
    ∃ s, d = .document (.text s) := by
  unfold isText at h
  split at h
  · exact ⟨_, rfl⟩
  · simp at h

/-! ## Numbers in decimal

Some operands are shown in decimal, and whole numbers of more than `maxDigits` digits
have no such text. -/

/-- The name of the object can be shown. -/
def Slot.hasShowableName : Slot ObjectRef → Bool
  | .given r => r.name.isShowable
  | _ => true

/-- The name of the object, after its outer object, can be shown. -/
def Slot.isShowable : Slot ObjectRef → Bool
  | .given r => r.isShowable
  | _ => true

/-- The operands that are shown can be; `op` is the opcode of the tag, if it has one. -/
def Body.isShowable (e : Encoding) (op : Option Opcode) : Body → Bool
  | .primitiveCast d _ | .context _ d _ _ | .virtualCall d _ | .assertion d _ _ | .skip d _
  | .instrumentation d _ | .instanceDelegate d | .bindDelegate d _ _ => d.isShowable
  | .classCast c _ | .objectConst c => c.hasShowableName
  | .finalCall function _ | .delegateCall function _ _ => function.isShowable
  | .literal value => decide (op.bind Opcode.literalForm? ≠ some .decimal) || value.isShowable
  | .textConst (.mk kind _ _ _ _ _) => kind.isShowable
  | .structConst struct size _ => struct.hasShowableName && size.isShowable
  | .setArray _ _ inner => e.setArrayHasProperty || inner.isShowable
  | _ => true

/-- What a listing shows of the place can be shown. -/
def Operand.isShowable (e : Encoding) : Operand → Bool
  | .instr (.mk tag body) => body.isShowable e tag.opcode?
  | _ => true

/-- The kind of the text of a text constant. -/
def Operand.textKind? : Operand → Option Int
  | .instr (.mk _ (.textConst (.mk (.document (.int kind)) _ _ _ _ _))) => some kind
  | _ => none

end Kismet

namespace Kismet.Listing

/-! ## Details -/

section Details

variable {α β : Type}

@[simp] theorem isOk_ok (a : α) : (Except.ok a : Except Fault α).isOk = true := rfl

@[simp] theorem ok_bind (a : α) (f : α → Except Fault β) : (Except.ok a >>= f) = f a := rfl

@[simp] theorem isOk_map (x : Except Fault α) (f : α → β) : (x.map f).isOk = x.isOk := by
  cases x <;> rfl

@[simp] theorem isOk_functor_map (x : Except Fault α) (f : α → β) : (f <$> x).isOk = x.isOk :=
  isOk_map x f

theorem isOk_bind {x : Except Fault α} {f : α → Except Fault β} (hx : x.isOk = true)
    (hf : ∀ a, (f a).isOk = true) : (x >>= f).isOk = true := by
  cases x with
  | error fault => exact hx
  | ok a => exact hf a

end Details

@[simp] theorem isOk_pathText (p : Slot PropertyPath) : (pathText p).isOk = p.isUsable := by
  cases p <;> rfl

@[simp] theorem isOk_count (ps : Operands) : ps.count.isOk = ps.isList := by
  cases ps <;> rfl

theorem isOk_address {d : Datum} (h : d.isInt = true) : d.address.isOk = true := by
  obtain ⟨n, rfl⟩ := Datum.eq_int_of_isInt h
  rfl

theorem isOk_brief {d : Datum} (h : d.isReal = true) : d.brief.isOk = true := by
  obtain ⟨x, rfl⟩ := Datum.eq_real_of_isReal h
  rfl

theorem isOk_tripleText (a b c : String) {x y z : Datum} (hx : x.isReal = true)
    (hy : y.isReal = true) (hz : z.isReal = true) : (tripleText a b c x y z).isOk = true := by
  refine isOk_bind (isOk_brief hx) fun _ => ?_
  refine isOk_bind (isOk_brief hy) fun _ => ?_
  exact isOk_bind (isOk_brief hz) fun _ => rfl

theorem triple_of_areReals {d : Datum} (h : d.areReals 3 = true) :
    ∃ x y z, triple d = .ok (x, y, z) ∧ x.isReal = true ∧ y.isReal = true ∧ z.isReal = true := by
  unfold Datum.areReals at h
  unfold triple
  split at h
  · rename_i items hitems
    rw [hitems]
    match items, h with
    | [x, y, z], h =>
      simp only [List.all_cons, List.all_nil, Bool.and_eq_true] at h
      exact ⟨x, y, z, rfl, h.2.1, h.2.2.1, h.2.2.2.1⟩
  · simp at h

theorem quadruple_of_areReals {d : Datum} (h : d.areReals 4 = true) :
    ∃ x y z w, quadruple d = .ok (x, y, z, w) ∧ x.isReal = true ∧ y.isReal = true
      ∧ z.isReal = true ∧ w.isReal = true := by
  unfold Datum.areReals at h
  unfold quadruple
  split at h
  · rename_i items hitems
    rw [hitems]
    match items, h with
    | [x, y, z, w], h =>
      simp only [List.all_cons, List.all_nil, Bool.and_eq_true] at h
      exact ⟨x, y, z, w, rfl, h.2.1, h.2.2.1, h.2.2.2.1, h.2.2.2.2.1⟩
  · simp at h

theorem isOk_transformText {rotation translation scale : Datum} (hr : rotation.areReals 4 = true)
    (ht : translation.areReals 3 = true) (hs : scale.areReals 3 = true) :
    (transformText rotation translation scale).isOk = true := by
  obtain ⟨rx, ry, rz, rw, hquad, hrx, hry, hrz, hrw⟩ := quadruple_of_areReals hr
  obtain ⟨tx, ty, tz, htrans, htx, hty, htz⟩ := triple_of_areReals ht
  obtain ⟨sx, sy, sz, hscale, hsx, hsy, hsz⟩ := triple_of_areReals hs
  simp only [transformText, hquad, htrans, hscale, ok_bind]
  refine isOk_bind (isOk_tripleText "X" "Y" "Z" hrx hry hrz) fun _ => ?_
  refine isOk_bind (isOk_brief hrw) fun _ => ?_
  refine isOk_bind (isOk_tripleText "X" "Y" "Z" htx hty htz) fun _ => ?_
  exact isOk_bind (isOk_tripleText "X" "Y" "Z" hsx hsy hsz) fun _ => rfl

/-! ## What typed operands are shown as

A detail of a typed instruction has a text, or a number in it cannot be written. -/

section Shown

variable {α : Type} {q : Fault → Bool}

theorem passes_of_isOk {x : Except Fault α} (h : x.isOk = true) :
    passes q (fun _ => true) x = true := by
  cases x with
  | ok a => rfl
  | error f => cases h

@[simp] theorem passes_ite (b : Bool) (a : α) :
    passes q (fun _ => true) (if b then .ok a else .error .badValue) = (b || q .badValue) := by
  cases b <;> rfl

@[simp] theorem passes_shown (d : Datum) :
    passes q (fun _ => true) d.shown = (d.isShowable || q .badValue) :=
  passes_ite _ _

@[simp] theorem passes_shown? (d : Datum) :
    passes q (fun _ => true) d.shown? = (d.isShowable || q .badValue) :=
  passes_ite _ _

/-- A document that is equal to a number of few digits can be shown. -/
theorem isShowable_of_eqInt {d : Document} {k : Int} (h : d.eqInt k = true)
    (hk : Text.Numeral.isWritable k = true) : d.isShowable = true := by
  cases d with
  | list items => simp [Document.eqInt] at h
  | object fields => simp [Document.eqInt] at h
  | scalar s =>
    cases s with
    | int n =>
      obtain rfl : n = k := by simpa [Document.eqInt] using h
      exact hk
    | _ => rfl

/-- The members of an enumeration have few digits, so that a datum has a label just if it
can be shown. -/
theorem passes_labelOf {en : Enumeration}
    (h : ∀ m ∈ en.members, Text.Numeral.isWritable m.2 = true) (d : Datum) :
    passes q (fun _ => true) (en.labelOf d) = (d.isShowable || q .badValue) := by
  unfold Enumeration.labelOf
  split
  · rename_i m
    split
    · rename_i name hname
      obtain ⟨member, hmember, -⟩ := Option.map_eq_some_iff.mp hname
      have heq : m.eqInt member.2 = true := by simpa using List.find?_some hmember
      have hm := isShowable_of_eqInt heq (h member (List.mem_of_find?_eq_some hmember))
      simp [Datum.isShowable, hm]
    · exact passes_shown _
  · exact passes_shown _

theorem objectText_eq {r : Slot ObjectRef} (h : r.isUsable = true) :
    ∃ text, objectText r = if r.hasShowableName then .ok text else .error .badValue := by
  cases r with
  | empty => exact ⟨"", rfl⟩
  | given r => exact ⟨r.name.display, rfl⟩
  | unusable f => simp [Slot.isUsable] at h

theorem passes_objectText {r : Slot ObjectRef} (h : r.isUsable = true) :
    passes q (fun _ => true) (objectText r) = (r.hasShowableName || q .badValue) := by
  obtain ⟨text, htext⟩ := objectText_eq h
  rw [htext, passes_ite]

theorem passes_objectName_shown? {r : Slot ObjectRef} (h : r.isUsable = true) :
    passes q (fun _ => true) (objectName r >>= Datum.shown?)
      = (r.hasShowableName || q .badValue) := by
  cases r with
  | empty => rfl
  | given r => exact passes_shown? r.name
  | unusable f => simp [Slot.isUsable] at h

theorem passes_qualifiedText {r : Slot ObjectRef} (h : r.isUsable = true) :
    passes q (fun _ => true) (qualifiedText r) = (r.isShowable || q .badValue) := by
  cases r with
  | empty => rfl
  | given r => exact passes_ite _ _
  | unusable f => simp [Slot.isUsable] at h

/-- The detail of a structure: the name of its type, and its size. -/
theorem passes_structText {r : Slot ObjectRef} (h : r.isUsable = true) (size : Datum)
    (write : String → String → String) :
    passes q (fun _ => true) (objectText r >>= fun n => write n <$> size.shown)
      = (r.hasShowableName && size.isShowable || q .badValue) := by
  obtain ⟨text, htext⟩ := objectText_eq h
  rw [htext]
  cases r.hasShowableName with
  | false => rfl
  | true =>
    have hmap : passes q (fun _ => true) (write text <$> size.shown)
        = passes q (fun _ => true) size.shown := passes_map q _ _ _
    rw [if_pos rfl, ok_bind, hmap, passes_shown, Bool.true_and]

/-- Opcodes for literals have a form for them. -/
theorem exists_literalForm {op : Opcode} (h : op.shape? = some .literal) :
    ∃ form, op.literalForm? = some form := by
  cases op <;> simp [Opcode.shape?] at h <;> exact ⟨_, rfl⟩

/-- The text of a literal in a form. -/
def literalText (form : LiteralForm) (value : Datum) : Except Fault String :=
  match form with
  | .decimal => decimalText value
  | .address => value.toInt.map Document.addressText
  | .real => value.toReal.map Binary64.brief
  | .text => value.shown

theorem literalParts_snd {op : Opcode} {form : LiteralForm} (h : op.literalForm? = some form)
    (value : Datum) : (literalParts (some op) value).2 = literalText form value := by
  cases op <;> simp [Opcode.literalForm?] at h <;> subst h <;> rfl

theorem passes_literalParts (e : Encoding) {op : Opcode} {value : Datum}
    (hshape : op.shape? = some .literal) (hfits : op.literalFits value = true) :
    passes q (fun _ => true) (literalParts (some op) value).2
      = ((Body.literal value).isShowable e (some op) || q .badValue) := by
  obtain ⟨form, hform⟩ := exists_literalForm hshape
  rw [literalParts_snd hform]
  simp only [Opcode.literalFits, hform] at hfits
  simp only [Body.isShowable, Option.bind_some, hform]
  cases form with
  | decimal =>
    obtain ⟨n, rfl⟩ := Datum.eq_int_of_isInt hfits
    exact passes_shown _
  | address =>
    obtain ⟨n, rfl⟩ := Datum.eq_int_of_isInt hfits
    rfl
  | real =>
    obtain ⟨x, rfl⟩ := Datum.eq_real_of_isReal hfits
    rfl
  | text =>
    obtain ⟨t, rfl⟩ := Datum.eq_text_of_isText hfits
    rfl

end Shown

/-! ## Items of typed instructions -/

/-- The test is about nothing but faults. -/
structure Item.TestsFaults (p : Item → Bool) : Prop extends Item.Lenient p where
  line : ∀ op detail label, p (.line op detail label) = true
  separator : p .separator = true
  forward : ∀ call, p (.forward call) = true

theorem nextText_isOk {c : SwitchCase} (h : c.isTyped = true) : c.nextText.isOk = true := by
  cases c with
  | mk value next term => exact isOk_address h
  | valued value => simp [SwitchCase.isTyped] at h
  | foreign => simp [SwitchCase.isTyped] at h

/-- The kinds of text are the numbers up to four. -/
theorem itemsAll_textItems {p : Item → Bool} (hp : Item.TestsFaults p) {n kind : Int} (op : Opcode)
    (space key source tableId : Layout) (h : ¬(kind < 0 ∨ 4 < kind)) :
    itemsAll p (textItems (.code n) op (.document (.int kind)) space key source tableId)
      = true := by
  have hkind : kind = 0 ∨ kind = 1 ∨ kind = 2 ∨ kind = 3 ∨ kind = 4 := by omega
  rcases hkind with rfl | rfl | rfl | rfl | rfl <;>
    simp [textItems, labelled, detailed, Datum.eqInt, Document.eqInt, Tag.isWord, itemsAll,
      Item.all, hp.bytes, hp.note, hp.nested, hp.line]

theorem textItems_of_unknown {n kind : Int} (op : Opcode) (space key source tableId : Layout)
    (h : kind < 0 ∨ 4 < kind) :
    textItems (.code n) op (.document (.int kind)) space key source tableId
      = [.bytes byteSize, .refuseText (.document (.int kind))] := by
  have hne : ∀ k : Int, 0 ≤ k → k ≤ 4 → (Datum.document (.int kind)).eqInt k = false := by
    intro k hk hk'
    have hkind : kind ≠ k := by omega
    simpa [Datum.eqInt, Document.eqInt] using hkind
  simp [textItems, hne]

theorem isShowable_textKind {kind : Int} (h : ¬(kind < 0 ∨ 4 < kind)) :
    (Datum.document (.int kind)).isShowable = true := by
  have hkind : kind = 0 ∨ kind = 1 ∨ kind = 2 ∨ kind = 3 ∨ kind = 4 := by omega
  rcases hkind with rfl | rfl | rfl | rfl | rfl <;> rfl

/-- An item of a typed instruction fails, unless the instruction is a text constant of an
unknown kind, just if a number cannot be written. -/
theorem itemsAll_bodyItems {p : Item → Bool} (hp : Item.TestsFaults p) (e : Encoding) {n : Int}
    {op : Opcode} {body : Body} (hshape : op.shape? = some body.shape)
    (htyped : body.isTyped (some op) = true)
    (htext : ∀ kind, (Operand.instr (.mk (.code n) body)).textKind? = some kind →
      ¬(kind < 0 ∨ 4 < kind)) :
    itemsAll p (bodyItems e (.code n) op body)
      = (body.isShowable e (some op) || p (.fail .badValue)) := by
  have hlenient := hp.toLenient
  cases body with
  | marker =>
    simp only [bodyItems, markerItems]
    split <;> simp [detailed, undetailed, Body.isShowable, itemsAll, Item.all, Tag.isWord,
      hp.line, hp.separator]
  | primitiveCast conversion target =>
    have hlabel := @passes_labelOf (fun f => p (.fail f)) castTokens (by decide) conversion
    simp [bodyItems, Body.isShowable, itemsAll, Item.all, Tag.isWord, hlabel, hp.line, hp.bytes,
      hp.note, hp.nested]
  | instrumentation event name =>
    have hlabel := @passes_labelOf (fun f => p (.fail f)) instrumentationTypes (by decide) event
    simp only [bodyItems]
    split <;> simp [detailed, Body.isShowable, itemsAll, Item.all, Tag.isWord, hlabel, hp.line,
      hp.bytes]
  | finalCall function parameters =>
    obtain ⟨hfunction, hparameters⟩ := (Bool.and_eq_true _ _).mp htyped
    simp [bodyItems, detailed, Body.isShowable, itemsAll, Item.all, Tag.isWord,
      passes_qualifiedText hfunction, hparameters, itemsAll_stubCall hp.forward, hlenient, hp.line,
      hp.bytes]
  | switchValue index finish cases fallback =>
    obtain ⟨hfinish, hcases⟩ := (Bool.and_eq_true _ _).mp htyped
    cases cases with
    | unusable => simp [Cases.isTyped] at hcases
    | list items =>
      have hitems : ((Cases.list items).nextTexts.all fun x =>
          passes (fun f => p (.fail f)) (fun _ => true) x) = true := by
        rw [Cases.nextTexts, List.all_map, List.all_eq_true]
        exact fun c hc => passes_of_isOk (nextText_isOk (List.all_eq_true.mp hcases c hc))
      simp [bodyItems, detailed, Body.isShowable, itemsAll, Item.all, Tag.isWord, Cases.count,
        passes_of_isOk, isOk_address hfinish, hitems, hlenient, hp.line, hp.bytes, hp.note,
        hp.nested]
  | literal value =>
    have hliteral := @passes_literalParts (fun f => p (.fail f)) e op value hshape htyped
    simp [bodyItems, detailed, exactOpcode, itemsAll, Item.all, Tag.isWord, hliteral, hp.line,
      hp.bytes]
  | structConst struct size members =>
    obtain ⟨hstruct, hmembers⟩ := (Bool.and_eq_true _ _).mp htyped
    have hdetail := @passes_structText (fun f => p (.fail f)) struct hstruct size
      fun n t => n ++ " (serialized size: " ++ t ++ ")"
    simp [bodyItems, detailed, Body.isShowable, itemsAll, Item.all, Tag.isWord, hdetail, hmembers,
      hlenient, hp.line, hp.bytes]
  | textConst text =>
    cases text with
    | foreign => simp [Body.isTyped, ScriptText.isTyped] at htyped
    | mk kind space key source tableId table =>
      obtain ⟨k, rfl⟩ := Datum.eq_int_of_isInt htyped
      rw [bodyItems, scriptTextItems, itemsAll_textItems hp op _ _ _ _ (htext k rfl),
        Body.isShowable, isShowable_textKind (htext k rfl), Bool.true_or]
  | mapConst key value elements =>
    simp only [Body.isTyped, Bool.and_eq_true] at htyped
    have hdetail : (do
        let n ← elements.count
        let k ← pathText key
        let v ← pathText value
        return "Element count: " ++ toString n ++ ", key property: " ++ k
          ++ ", value property: " ++ v : Except Fault String).isOk = true := by
      refine isOk_bind (by simp [htyped]) fun _ => ?_
      refine isOk_bind (by simp [htyped]) fun _ => ?_
      exact isOk_bind (by simp [htyped]) fun _ => rfl
    rw [bodyItems, detailed, List.cons_append, List.cons_append, List.cons_append]
    simp only [itemsAll, Item.all, itemsAll_append, itemsAll_headline, passes_map, Tag.isWord,
      hp.line, hp.bytes, Bool.false_eq_true, if_false, passes_of_isOk hdetail,
      itemsAll_listItems hlenient, htyped, Body.isShowable, Bool.true_or, Bool.and_self]
  | _ =>
    simp only [Body.isTyped, Bool.and_eq_true] at htyped
    simp only [bodyItems]
    repeat' split
    all_goals
      simp [detailed, undetailed, Body.isShowable, itemsAll, Item.all, Tag.isWord, passes_of_isOk,
        isOk_bind, isOk_address, isOk_tripleText, isOk_transformText, passes_objectText,
        passes_objectName_shown?, passes_qualifiedText, hp.line, hp.separator, hp.bytes, hp.note,
        hp.nested, *]

theorem Item.isClean_testsFaults : TestsFaults isClean where
  toLenient := isClean_lenient
  line _ _ _ := rfl
  separator := rfl
  forward _ := rfl

/-- The item fails, if at all, because a number cannot be written. -/
def Item.failsInWriting : Item → Bool
  | .refuseText _ => false
  | .fail .badValue => true
  | .fail _ => false
  | _ => true

theorem Item.failsInWriting_testsFaults : TestsFaults failsInWriting where
  bytes _ := rfl
  note _ := rfl
  nested _ := rfl
  line _ _ _ := rfl
  separator := rfl
  forward _ := rfl

mutual

/-- A walk of items stops because a number cannot be written, or where the walk of the nested
instructions does. -/
theorem itemsFault?_eq_some (level scopes : Nat) (start : Int) (items : List Item)
    (h : itemsAll Item.failsInWriting items = true) (offset : Int) (f : Fault)
    (hf : itemsFault? level start offset items = some f) :
    itemsAll Item.isClean items = false ∧ f = .badValue
      ∨ piecesFault? (level + 1) offset (itemsPieces scopes items) = some f := by
  cases items with
  | nil => simp [itemsFault?] at hf
  | cons item rest =>
    rw [itemsAll, Bool.and_eq_true] at h
    rw [itemsAll, itemsPieces, piecesFault?_append]
    rw [itemsFault?, Option.or_eq_some_iff] at hf
    rcases hf with hf | ⟨hnone, hf⟩
    · rcases item.fault?_eq_some level scopes start h.1 offset f hf with ⟨hclean, rfl⟩ | hpieces
      · exact .inl ⟨by rw [hclean, Bool.false_and], rfl⟩
      · exact .inr (by rw [hpieces, Option.some_or])
    · have hclean := item.isClean_of_fault? level start offset hnone
      rw [item.fault?_eq_piecesFault? level scopes start hclean] at hnone
      rw [item.size_eq_piecesSize scopes] at hf
      rcases itemsFault?_eq_some level scopes start rest h.2 _ f hf with ⟨hclean', rfl⟩ | hpieces
      · exact .inl ⟨by rw [hclean', Bool.and_false], rfl⟩
      · exact .inr (by rw [hnone, hpieces, Option.none_or])

theorem Item.fault?_eq_some (level scopes : Nat) (start : Int) (item : Item)
    (h : item.all Item.failsInWriting = true) (offset : Int) (f : Fault)
    (hf : item.fault? level start offset = some f) :
    item.all Item.isClean = false ∧ f = .badValue
      ∨ piecesFault? (level + 1) offset (item.pieces scopes) = some f := by
  cases item with
  | indented items => exact itemsFault?_eq_some level (scopes + 1) start items h offset f hf
  | nested l =>
    rw [Item.fault?] at hf
    exact .inr (by simp [Item.pieces, piecesFault?, hf])
  | refuseText kind => simp [Item.all, Item.failsInWriting] at h
  | fail g =>
    obtain rfl := Option.some.inj hf
    cases g with
    | badValue => exact .inl ⟨rfl, rfl⟩
    | _ => simp [Item.all, Item.failsInWriting] at h
  | _ => simp [Item.fault?] at hf

end

end Kismet.Listing
