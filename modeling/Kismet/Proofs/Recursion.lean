import Kismet.Asset.Basic
import Kismet.Proofs.Cause
import Kismet.Proofs.Lookup
set_option autoImplicit false

/-!
# Recursion: decoders and their bounds

Fields, values and instructions are decoded level by level, with a bound on the levels.  One
level only looks at documents that are less deeply nested than its own, and it stops early
only where one of them does (`Field.decodeStep_approximates` and its kin).  So a bound above
the depth of the document is never reached and the decoder calls itself on what is nested
(`Leveled.depth_eq`), and below any other bound decoding comes to the same or stops for the
nesting (`Leveled.approximates`).  `Asset.decode_approximates` says the same of the document
of an asset, which has fields, values and instructions in it.
-/

namespace Kismet

/-! ## Bounds -/

/-- A decoder with a bound on the levels goes down by one level at a time; one level looks at
documents that are less deep. -/
structure Leveled {α : Type} (within : Nat → Document → Except Fault α)
    (step : (Document → Except Fault α) → Document → Except Fault α) : Prop where
  zero : ∀ d, within 0 d = .error .tooNested
  succ : ∀ bound d, within (bound + 1) d = step (within bound) d
  step : ∀ {deep self self' d}, (∀ x, x.depth < d.depth → Approximates deep (self x) (self' x)) →
    Approximates deep (step self d) (step self' d)

/-- The document is nested as deep as the limit on levels, or deeper. -/
def Document.Exceeds (d : Document) (limits : Limits) : Prop :=
  ∃ levels, limits.levels = some levels ∧ levels ≤ d.depth

theorem Document.Exceeds.mono {d d' : Document} {limits : Limits} (h : d.Exceeds limits)
    (hle : d.depth ≤ d'.depth) : d'.Exceeds limits := by
  obtain ⟨levels, hlevels, hdepth⟩ := h
  exact ⟨levels, hlevels, Nat.le_trans hdepth hle⟩

namespace Leveled

variable {α : Type} {within : Nat → Document → Except Fault α}
  {step : (Document → Except Fault α) → Document → Except Fault α} (h : Leveled within step)

include h

/-- A bound makes no difference unless the document is as deep. -/
theorem approximates {bound : Nat} : ∀ {bound' : Nat} {d : Document}, d.depth < bound' →
    Approximates (bound ≤ d.depth) (within bound d) (within bound' d) := by
  induction bound with
  | zero => exact fun _ => .inr ⟨Nat.zero_le _, h.zero _⟩
  | succ bound ih =>
    intro bound' d hbound'
    cases bound' with
    | zero => exact absurd hbound' (Nat.not_lt_zero _)
    | succ bound' =>
      rw [h.succ, h.succ]
      refine h.step fun x hx => ?_
      have hx' : x.depth < bound' := Nat.lt_of_lt_of_le hx (Nat.le_of_lt_succ hbound')
      exact (ih hx').mono (by omega)

/-- With a bound above the depth, a document is decoded by decoding what is nested in it. -/
theorem depth_eq (d : Document) :
    within (d.depth + 1) d = step (fun x => within (x.depth + 1) x) d := by
  rw [h.succ]
  refine (h.step fun x hx => ?_).eq_of_not not_false
  exact .inl ((h.approximates (Nat.lt_succ_self _)).eq_of_not (Nat.not_le_of_lt hx))

/-- Within limits a document is decoded as without them, unless it is too deep. -/
theorem room (d : Document) (limits : Limits) :
    Approximates (d.Exceeds limits) (within (d.room limits) d) (within (d.depth + 1) d) := by
  unfold Document.room
  cases hlevels : limits.levels with
  | none => exact .refl _
  | some levels =>
    exact (h.approximates (Nat.lt_succ_self _)).mono fun hle => ⟨levels, hlevels, hle⟩

/-- The faults of decoding are those of one level. -/
theorem failsOnly {p : Fault → Bool} {P : Document → Prop} (hkind : p .wrongKind = true)
    (hstep : ∀ self d, P d → (∀ x, P x → FailsOnly p (self x)) → FailsOnly p (step self d))
    (d : Document) : P d → FailsOnly p (within (d.depth + 1) d) := by
  induction hn : d.depth using Nat.strongRecOn generalizing d with
  | ind n ih =>
    intro hd
    subst hn
    -- Documents that are not less deep are not looked at, so they may as well be refused.
    let self : Document → Except Fault α := fun x =>
      if x.depth < d.depth then within (x.depth + 1) x else .error .wrongKind
    have heq : step (fun x => within (x.depth + 1) x) d = step self d := by
      refine (h.step fun x hx => ?_).eq_of_not not_false
      exact .inl (if_pos hx).symm
    rw [h.depth_eq, heq]
    refine hstep self d hd fun x hx => ?_
    by_cases hdepth : x.depth < d.depth
    · simp only [self, if_pos hdepth]
      exact ih x.depth hdepth x rfl hx
    · simp only [self, if_neg hdepth]
      exact FailsOnly.error_iff.mpr hkind

end Leveled

/-! ## Parts are not deeper -/

namespace Document

theorem depth_lt_of_mem {items : List Document} {d : Document} (h : d ∈ items) :
    d.depth < (Document.list items).depth :=
  Nat.lt_succ_of_le (depth_le_of_mem h)

theorem depth_lt_of_get? {fields : Fields} {key : String} {d : Document}
    (h : Fields.get? fields key = some d) : d.depth < (Document.object fields).depth :=
  Nat.lt_succ_of_le (depth_le_of_get? h)

theorem depth_getOrNull_lt (fields : Fields) (key : String) :
    (Fields.getOrNull fields key).depth < (Document.object fields).depth := by
  rw [Fields.getOrNull]
  cases h : Fields.get? fields key with
  | none => exact Nat.succ_pos _
  | some d => exact depth_lt_of_get? h

/-- The parts of a text and of an object are texts, and so not deeper either. -/
theorem depth_le_of_parts {d : Document} {ps : List Document} (h : d.parts = .ok ps) :
    ∀ p ∈ ps, p.depth ≤ d.depth := by
  unfold parts at h
  split at h
  · obtain rfl := Except.ok.inj h
    exact fun p hp => Nat.le_of_lt (depth_lt_of_mem hp)
  · obtain rfl := Except.ok.inj h
    exact List.forall_mem_map.mpr fun _ _ => Nat.zero_le _
  · obtain rfl := Except.ok.inj h
    exact List.forall_mem_map.mpr fun _ _ => Nat.zero_le _
  · simp at h

theorem depth_le_of_pair {d k v : Document} (h : d.pair = .ok (k, v)) :
    k.depth ≤ d.depth ∧ v.depth ≤ d.depth := by
  unfold pair at h
  split at h
  · rename_i a b hparts
    obtain ⟨rfl, rfl⟩ := Prod.mk.inj (Except.ok.inj h)
    exact ⟨depth_le_of_parts hparts _ (by simp), depth_le_of_parts hparts _ (by simp)⟩
  · simp at h
  · simp at h

end Document

/-! ## Fields -/

namespace Field

theorem decodeStep_approximates {deep : Prop} {self self' : Document → Except Fault (Option Field)}
    {d : Document} (h : ∀ x, x.depth < d.depth → Approximates deep (self x) (self' x)) :
    Approximates deep (decodeStep self d) (decodeStep self' d) := by
  unfold decodeStep
  split
  · exact .refl _
  · rename_i fields
    have hself := fun key => h _ (Document.depth_getOrNull_lt fields key)
    refine .bind (.refl _) fun _ _ => .bind (.refl _) fun _ _ => .bind (.refl _) fun _ _ => ?_
    refine (hself _).bind fun _ _ => (hself _).bind fun _ _ => ?_
    exact (hself _).bind fun _ _ => (hself _).bind fun _ _ => .refl _
  · exact .refl _

theorem leveled : Leveled decodeWithin decodeStep :=
  ⟨fun _ => rfl, fun _ _ => rfl, decodeStep_approximates⟩

end Field

/-! ## Values -/

namespace Value

variable {deep : Prop} {self self' : Document → Except Fault Value}

theorem decodeParts_approximates {α : Type} {read read' : Document → Except Fault α} {d : Document}
    (h : ∀ x, x.depth ≤ d.depth → Approximates deep (read x) (read' x)) :
    Approximates deep (decodeParts read d) (decodeParts read' d) := by
  unfold decodeParts
  split
  · exact .refl _
  · rename_i ps hps
    exact .mapM fun p hp => h p (Document.depth_le_of_parts hps p hp)

theorem decodeMember_approximates {d : Document}
    (h : ∀ x, x.depth ≤ d.depth → Approximates deep (self x) (self' x)) :
    Approximates deep (decodeMember self d) (decodeMember self' d) := by
  unfold decodeMember
  split
  · rename_i fields
    split
    · exact .refl _
    · exact (h _ (Nat.le_of_lt (Document.depth_getOrNull_lt fields "value"))).map _
  · exact .refl _

theorem decodeEntry_eq_bind (self : Document → Except Fault Value) (d : Document) :
    decodeEntry self d = d.pair >>= fun kv => self kv.1 >>= fun key =>
      (self kv.2).map fun value => (key, value) := by
  unfold decodeEntry
  cases d.pair with
  | error f => rfl
  | ok kv =>
    show _ = self kv.1 >>= _
    cases hkey : self kv.1 with
    | error f => simp only [hkey]; rfl
    | ok key => simp only [hkey]; rfl

theorem decodeEntry_approximates {d : Document}
    (h : ∀ x, x.depth ≤ d.depth → Approximates deep (self x) (self' x)) :
    Approximates deep (decodeEntry self d) (decodeEntry self' d) := by
  rw [decodeEntry_eq_bind, decodeEntry_eq_bind]
  refine .bind (.refl _) fun kv hpair => ?_
  obtain ⟨hkey, hvalue⟩ := Document.depth_le_of_pair hpair
  exact (h _ hkey).bind fun _ _ => (h _ hvalue).map _

theorem decodeStep_approximates {d : Document}
    (h : ∀ x, x.depth < d.depth → Approximates deep (self x) (self' x)) :
    Approximates deep (decodeStep self d) (decodeStep self' d) := by
  cases d with
  | scalar s => exact .refl _
  | list items => exact (Approximates.mapM fun x hx => h x (Document.depth_lt_of_mem hx)).map _
  | object fields =>
    have hpart : ∀ {key d}, Fields.get? fields key = some d →
        ∀ x, x.depth ≤ d.depth → Approximates deep (self x) (self' x) :=
      fun hd x hx => h x (Nat.lt_of_le_of_lt hx (Document.depth_lt_of_get? hd))
    rw [decodeStep, decodeStep]
    unfold decodeObject
    split
    · split
      · exact .refl _
      · cases hproperties : Fields.get? fields "properties" with
        | none => exact .refl _
        | some d =>
          refine (decodeParts_approximates fun x hx =>
            decodeMember_approximates fun y hy => ?_).map _
          exact hpart hproperties y (Nat.le_trans hy hx)
    · split
      · rename_i d hd
        exact (decodeParts_approximates (hpart hd)).map _
      · split
        · rename_i d hd
          exact (decodeParts_approximates (hpart hd)).map _
        · split
          · rename_i d hd
            refine (decodeParts_approximates fun x hx =>
              decodeEntry_approximates fun y hy => ?_).map _
            exact hpart hd y (Nat.le_trans hy hx)
          · exact .refl _

theorem leveled : Leveled decodeWithin decodeStep :=
  ⟨fun _ => rfl, fun _ _ => rfl, decodeStep_approximates⟩

/-- A value is decoded by decoding what is nested in it. -/
theorem decode_eq_step (d : Document) : decode d = decodeStep decode d :=
  leveled.depth_eq d

end Value

/-! ## Instructions -/

namespace Instr

variable {deep : Prop} {self self' : Document → Except Fault Instr}

theorem Node.readOperand_approximates {d : Document} (h : Approximates deep (self d) (self' d)) :
    Approximates deep (readOperand self d) (readOperand self' d) := by
  unfold readOperand
  split
  · exact .refl _
  · exact h.map _

theorem Node.readOperands_approximates {d : Document}
    (h : ∀ x, x.depth ≤ d.depth → Approximates deep (self x) (self' x)) :
    Approximates deep (readOperands self d) (readOperands self' d) := by
  unfold readOperands
  split
  · exact .refl _
  · rename_i ps hps
    refine (Approximates.mapM fun p hp => ?_).map _
    exact (h p (Document.depth_le_of_parts hps p hp)).map _

theorem depth_lt_of_ownOperand {d v : Document} {name : String} (h : ownOperand d name = .ok v) :
    v.depth < d.depth := by
  unfold ownOperand at h
  split at h
  · split at h
    · rename_i v' hv
      obtain rfl := Except.ok.inj h
      exact Document.depth_lt_of_get? hv
    · simp at h
  · simp at h

theorem decodeCase_approximates {d : Document}
    (h : ∀ x, x.depth < d.depth → Approximates deep (self x) (self' x)) :
    Approximates deep (decodeCase self d) (decodeCase self' d) := by
  unfold decodeCase
  refine .bind (.refl _) fun value hvalue => ?_
  refine (h value (depth_lt_of_ownOperand hvalue)).bind fun _ _ => ?_
  refine .bind (.refl _) fun _ _ => .bind (.refl _) fun _ _ => .bind (.refl _) fun term hterm => ?_
  exact (h term (depth_lt_of_ownOperand hterm)).bind fun _ _ => .refl _

section Operands

variable (op : Opcode) {fields : Fields}
  (h : ∀ x, x.depth < (Document.object fields).depth → Approximates deep (self x) (self' x))

include h

theorem Node.operand_approximates (name : String) :
    Approximates deep (operand ⟨op, fields, self⟩ name) (operand ⟨op, fields, self'⟩ name) := by
  unfold operand required
  cases hd : Fields.get? fields name with
  | none => exact .refl _
  | some d => exact readOperand_approximates (h d (Document.depth_lt_of_get? hd))

theorem Node.operandOr_approximates (name : String) :
    Approximates deep (operandOr ⟨op, fields, self⟩ name) (operandOr ⟨op, fields, self'⟩ name) :=
  readOperand_approximates (h _ (Document.depth_getOrNull_lt fields name))

theorem Node.operandsOr_approximates (name : String) :
    Approximates deep (operandsOr ⟨op, fields, self⟩ name)
      (operandsOr ⟨op, fields, self'⟩ name) := by
  unfold operandsOr
  cases hd : Fields.get? fields name with
  | none => exact .refl _
  | some d =>
    exact readOperands_approximates fun x hx =>
      h x (Nat.lt_of_le_of_lt hx (Document.depth_lt_of_get? hd))

theorem decodeText_approximates :
    Approximates deep (decodeText ⟨op, fields, self⟩) (decodeText ⟨op, fields, self'⟩) := by
  have hoperand := Node.operandOr_approximates op h
  unfold decodeText
  refine .bind (.refl _) fun _ _ => .bind (.refl _) fun _ _ => ?_
  refine (hoperand _).bind fun _ _ => (hoperand _).bind fun _ _ => ?_
  refine (hoperand _).bind fun _ _ => (hoperand _).bind fun _ _ => ?_
  exact .refl _

theorem decodeSwitch_approximates :
    Approximates deep (decodeSwitch ⟨op, fields, self⟩) (decodeSwitch ⟨op, fields, self'⟩) := by
  have hown : ∀ {name v}, ownOperand (.object fields) name = .ok v →
      Approximates deep (self v) (self' v) :=
    fun hv => h _ (depth_lt_of_ownOperand hv)
  have hcases : ∀ {ps}, ((Fields.get? fields "cases").getD (.list [])).parts = .ok ps →
      Approximates deep (ps.mapM (decodeCase self)) (ps.mapM (decodeCase self')) := by
    intro ps hps
    cases hd : Fields.get? fields "cases" with
    | none =>
      rw [hd] at hps
      obtain rfl := Except.ok.inj hps
      exact .refl _
    | some d =>
      rw [hd] at hps
      refine .mapM fun p hp => decodeCase_approximates fun x hx => h x ?_
      exact Nat.lt_trans (Nat.lt_of_lt_of_le hx (Document.depth_le_of_parts hps p hp))
        (Document.depth_lt_of_get? hd)
  unfold decodeSwitch
  refine .bind (.refl _) fun index hindex => (hown hindex).bind fun _ _ => ?_
  refine .bind (.refl _) fun _ _ => .bind (.refl _) fun _ _ => ?_
  refine .bind (.refl _) fun ps hps => (hcases hps).bind fun _ _ => ?_
  exact .bind (.refl _) fun fallback hfallback => (hown hfallback).bind fun _ _ => .refl _

theorem decodeBody_approximates (shape : Shape) :
    Approximates deep (decodeBody ⟨op, fields, self⟩ shape)
      (decodeBody ⟨op, fields, self'⟩ shape) := by
  have hoperand := Node.operand_approximates op h
  have hoperandOr := Node.operandOr_approximates op h
  have hoperandsOr := Node.operandsOr_approximates op h
  cases shape with
  | textConst => exact decodeText_approximates op h
  | switchValue => exact decodeSwitch_approximates op h
  | _ =>
    unfold decodeBody
    repeat' first
      | exact hoperand _
      | exact hoperandOr _
      | exact hoperandsOr _
      | exact .refl _
      | refine Approximates.bind ?_ fun _ _ => ?_

end Operands

theorem decodeStep_approximates {d : Document}
    (h : ∀ x, x.depth < d.depth → Approximates deep (self x) (self' x)) :
    Approximates deep (decodeStep self d) (decodeStep self' d) := by
  cases d with
  | scalar s => exact .refl _
  | list items => exact .refl _
  | object fields =>
    simp only [decodeStep]
    split
    · exact .refl _
    · split
      · exact .refl _
      · split
        · exact .refl _
        · exact (decodeBody_approximates _ h _).map _

theorem leveled : Leveled decodeWithin decodeStep :=
  ⟨fun _ => rfl, fun _ _ => rfl, decodeStep_approximates⟩

/-- An instruction is decoded by decoding what is nested in it. -/
theorem decode_eq_step (d : Document) : decode d = decodeStep decode d :=
  leveled.depth_eq d

theorem decodeScript_approximates (d : Document) (limits : Limits) :
    Approximates (d.Exceeds limits) (decodeScript d limits) (decodeScript d) := by
  unfold decodeScript
  split
  · exact .refl _
  · rename_i ps hps
    refine .mapM fun p hp => (leveled.room p limits).mono fun hexceeds => ?_
    exact hexceeds.mono (Document.depth_le_of_parts hps p hp)

end Instr

/-! ## Assets -/

section Exports

variable (fields : Fields) (declared : List (Option Field)) (limits : Limits)

theorem Export.decodeFields_approximates :
    Approximates ((Document.object fields).Exceeds limits) (decodeFields fields limits)
      (decodeFields fields) := by
  unfold decodeFields
  cases hd : Fields.get? fields "fields" with
  | none => exact .refl _
  | some d =>
    refine Value.decodeParts_approximates fun x hx => (Field.leveled.room x limits).mono ?_
    exact fun hexceeds => hexceeds.mono
      (Nat.le_trans hx (Nat.le_of_lt (Document.depth_lt_of_get? hd)))

theorem FunctionExport.decode_approximates :
    Approximates ((Document.object fields).Exceeds limits) (decode fields declared limits)
      (decode fields declared) := by
  have hdepth := Document.depth_getOrNull_lt fields "bytecode"
  unfold decode
  refine .bind (.refl _) fun _ _ => .bind (.refl _) fun _ _ => ?_
  split
  · exact .refl _
  · refine .bind (.map (.mono (Instr.decodeScript_approximates _ limits) ?_) _) fun _ _ => .refl _
    exact fun hexceeds => hexceeds.mono (Nat.le_of_lt hdepth)

theorem ClassExport.decode_approximates :
    Approximates ((Document.object fields).Exceeds limits) (decode fields declared limits)
      (decode fields declared) := by
  have hdepth := Document.depth_getOrNull_lt fields "defaults"
  unfold decode
  refine .bind (.refl _) fun _ _ => .bind (.refl _) fun _ _ => ?_
  split
  · exact .refl _
  · refine .bind (.map (Value.decodeParts_approximates fun x hx =>
      Value.decodeMember_approximates fun y hy => (Value.leveled.room y limits).mono ?_) _)
      fun _ _ => .refl _
    exact fun hexceeds => hexceeds.mono (by omega)

end Exports

theorem Export.decode_approximates (d : Document) (limits : Limits) :
    Approximates (d.Exceeds limits) (decode d limits) (decode d) := by
  unfold decode
  refine .bind (.refl _) fun fields hfields => ?_
  obtain rfl : d = .object fields := by
    cases d with
    | object fs => exact congrArg _ (Except.ok.inj hfields)
    | _ => simp [Document.fields] at hfields
  refine (decodeFields_approximates fields limits).bind fun declared _ => ?_
  split
  · exact (FunctionExport.decode_approximates fields declared limits).bind fun _ _ => .refl _
  · split
    · exact (ClassExport.decode_approximates fields declared limits).bind fun _ _ => .refl _
    · exact .refl _

namespace Asset

theorem decodeExports_cons (d : Document) (rest : List Document) (limits : Limits) :
    (decodeExports (d :: rest) limits).2 = Export.decode d limits >>= fun
      | none => (decodeExports rest limits).2
      | some e => (decodeExports rest limits).2.map (e :: ·) := by
  rw [decodeExports]
  cases Export.decode d limits with
  | error f => rfl
  | ok r => cases r <;> rfl

theorem decodeExports_approximates {deep : Prop} {limits : Limits} (entries : List Document)
    (h : ∀ d ∈ entries, d.Exceeds limits → deep) :
    Approximates deep (decodeExports entries limits).2 (decodeExports entries).2 := by
  induction entries with
  | nil => exact .refl _
  | cons d rest ih =>
    rw [List.forall_mem_cons] at h
    rw [decodeExports_cons, decodeExports_cons]
    refine ((Export.decode_approximates d limits).mono h.1).bind fun r _ => ?_
    cases r with
    | none => exact ih h.2
    | some e => exact (ih h.2).map _

theorem decodeObject_approximates (fields : Fields) (path : String) (limits : Limits) :
    Approximates ((Document.object fields).Exceeds limits) (decodeObject fields path limits).2
      (decodeObject fields path).2 := by
  unfold decodeObject
  dsimp only
  split
  · exact .refl _
  · split
    · exact .refl _
    · rename_i entries hentries
      refine (decodeExports_approximates entries fun d hd hexceeds => hexceeds.mono ?_).map _
      have hpart := Document.depth_le_of_parts hentries d hd
      cases hget : Fields.get? fields "exports" with
      | none =>
        obtain rfl : entries = [] := by simpa [hget, Document.parts] using hentries.symm
        simp at hd
      | some exports =>
        rw [hget] at hpart
        exact Nat.le_trans hpart (Nat.le_of_lt (Document.depth_lt_of_get? hget))

/-- The document of an asset is decoded within limits as without them, unless it is too
deep. -/
theorem decode_approximates (d : Document) (path : String) (limits : Limits) :
    Approximates (d.Exceeds limits) (decode d path limits).2 (decode d path).2 := by
  cases d with
  | object fields => exact (decodeObject_approximates fields path limits).mapError rfl
  | _ => exact .refl _

end Asset

end Kismet
