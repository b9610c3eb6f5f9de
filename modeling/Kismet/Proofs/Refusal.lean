import Kismet.Proofs.Load
set_option autoImplicit false

/-!
# Refusal: how a document that is no asset is reported

A document that cannot be decoded is to be reported as badly formed, whatever is wrong
with it.  `Asset.decode_refusal` says that this is so up to two faults, a number that is too
large and nesting that is too deep, and where they come from: the one from the first export
that cannot be decoded, which then holds an oversized number, the other from a document that
exceeds the limits.  `Asset.decode_oversized_samples` shows that oversized numbers of either
kind are let through, and so is nesting whatever the limit.
-/

namespace Kismet

theorem Fault.kind_of_isMalformed {f : Fault} (h : f.isMalformed = true) :
    f.kind = "MalformedStream" := by
  cases f <;> first | rfl | simp [isMalformed] at h

/-- Without oversized numbers the faults that concern the form cover a document. -/
theorem Document.covered_concernsForm {d : Document} (h : ¬d.Oversized) :
    d.Covered Fault.concernsForm :=
  ⟨fun _ hf => hf, fun hs => absurd hs h⟩

/-- An export in which a number is too large cannot be covered by the faults that concern the
form. -/
theorem Export.not_covered_of_decode {d : Document} (h : decode d = .error .tooLarge) :
    ¬d.Covered Fault.concernsForm := by
  intro hd
  have hform := decode_failsOnly hd .tooLarge h
  simp [Fault.concernsForm, Fault.isMalformed, Fault.concernsData] at hform

namespace Asset

/-- Exports are decoded in order up to the first one that cannot be. -/
theorem decodeExports_eq_error_iff {f : Fault} {entries : List Document} :
    (decodeExports entries).2 = .error f ↔
      ∃ front e back, entries = front ++ e :: back
        ∧ (∀ x ∈ front, ∃ r, Export.decode x = .ok r) ∧ Export.decode e = .error f := by
  induction entries with
  | nil => simp [decodeExports]
  | cons d rest ih =>
    cases hd : Export.decode d with
    | error f' =>
      have hfirst : (decodeExports (d :: rest)).2 = .error f' := by simp only [decodeExports, hd]
      rw [hfirst]
      constructor
      · rintro ⟨⟩
        exact ⟨[], d, rest, rfl, by simp, hd⟩
      · rintro ⟨front, e, back, hsplit, hfront, he⟩
        -- The first export fails, so nothing can stand in front of the one that does.
        cases front with
        | nil =>
          obtain ⟨rfl, -⟩ := List.cons.inj hsplit
          exact congrArg _ (Except.error.inj (hd.symm.trans he))
        | cons x front =>
          obtain ⟨rfl, -⟩ := List.cons.inj hsplit
          obtain ⟨r, hr⟩ := hfront d (by simp)
          simp [hd] at hr
    | ok r =>
      have hnext : (decodeExports (d :: rest)).2 = .error f
          ↔ (decodeExports rest).2 = .error f := by
        cases r with
        | none => simp only [decodeExports, hd]
        | some e => simp only [decodeExports, hd, map_eq_error_iff]
      rw [hnext, ih]
      constructor
      · rintro ⟨front, e, back, rfl, hfront, he⟩
        refine ⟨d :: front, e, back, rfl, ?_, he⟩
        intro x hx
        rcases List.mem_cons.mp hx with rfl | hx
        · exact ⟨r, hd⟩
        · exact hfront x hx
      · rintro ⟨front, e, back, hsplit, hfront, he⟩
        cases front with
        | nil =>
          obtain ⟨rfl, -⟩ := List.cons.inj hsplit
          simp [hd] at he
        | cons x front =>
          obtain ⟨-, rfl⟩ := List.cons.inj hsplit
          exact ⟨front, e, back, rfl, fun y hy => hfront y (List.mem_cons_of_mem _ hy), he⟩

/-- The export `e` is the first one of an object that cannot be decoded, for the fault `f`;
the versions of the object can be compared. -/
def FirstFault (fields : Fields) (e : Document) (f : Fault) : Prop :=
  ∃ encoding front back,
    Encoding.ofVersions (Fields.getOrNull fields "file_version_ue4")
        (Fields.getOrNull fields "file_version_ue5") = .ok encoding
      ∧ ((Fields.get? fields "exports").getD (.list [])).parts = .ok (front ++ e :: back)
      ∧ (∀ x ∈ front, ∃ r, Export.decode x = .ok r) ∧ Export.decode e = .error f

theorem inDocument_eq_tooLarge_iff {path : String} {f : Fault} :
    inDocument path f = .tooLarge ↔ f = .tooLarge := by
  unfold inDocument
  split
  · rename_i hdata
    constructor
    · simp
    · rintro rfl
      simp [Fault.concernsData] at hdata
  · exact Iff.rfl

theorem mapError_eq_error_iff {α : Type} {x : Except Fault α} {g : Fault → Fault} {f : Fault} :
    x.mapError g = .error f ↔ ∃ f', x = .error f' ∧ g f' = f := by
  cases x with
  | error f' =>
    constructor
    · exact fun h => ⟨f', rfl, Except.error.inj h⟩
    · rintro ⟨_, ⟨⟩, rfl⟩
      rfl
  | ok a =>
    constructor
    · exact fun h => nomatch h
    · rintro ⟨_, h, -⟩
      exact nomatch h

/-- A number that is too large is found in an export, and only once all is well before it. -/
theorem decodeObject_eq_tooLarge_iff {fields : Fields} {path : String} :
    (decodeObject fields path).2 = .error .tooLarge ↔ ∃ e, FirstFault fields e .tooLarge := by
  -- Comparing versions and listing exports have faults of other kinds.
  have hform : Fault.concernsForm .tooLarge = false := rfl
  unfold FirstFault
  cases hversions : Encoding.ofVersions (Fields.getOrNull fields "file_version_ue4")
      (Fields.getOrNull fields "file_version_ue5") with
  | error f =>
    have hf := Encoding.ofVersions_failsOnly _ _ f hversions
    simp only [decodeObject, hversions]
    constructor
    · rintro ⟨⟩
      simp [hform] at hf
    · rintro ⟨e, encoding, front, back, hencoding, -⟩
      simp at hencoding
  | ok encoding =>
    cases hparts : ((Fields.get? fields "exports").getD (.list [])).parts with
    | error f =>
      have hf := Document.parts_concernsForm _ f hparts
      simp only [decodeObject, hversions, hparts]
      constructor
      · rintro ⟨⟩
        simp [hform] at hf
      · rintro ⟨e, encoding, front, back, -, hentries, -⟩
        simp at hentries
    | ok entries =>
      simp only [decodeObject, hversions, hparts, map_eq_error_iff]
      rw [decodeExports_eq_error_iff]
      constructor
      · rintro ⟨front, e, back, rfl, hfront, he⟩
        exact ⟨e, encoding, front, back, rfl, rfl, hfront, he⟩
      · rintro ⟨e, _, front, back, -, hentries, hfront, he⟩
        exact ⟨front, e, back, Except.ok.inj hentries, hfront, he⟩

/-- Decoding a document within any limits gives an asset, reports the document as badly
formed, or lets the fault through of a number that is too large or of nesting that is too
deep.  The last happens only if the document exceeds the limits; if it does not happen,
decoding comes to the same as without limits.  A number is too large just when the first
export that cannot be decoded has this fault, and such an export holds an infinity where a
whole number is needed or a whole number beyond the doubles where a double is. -/
theorem decode_refusal (d : Document) (path : String) (limits : Limits) :
    ((∃ a, (decode d path limits).2 = .ok a)
      ∨ (∃ f, (decode d path limits).2 = .error f ∧ f.kind = "MalformedStream")
      ∨ (decode d path limits).2 = .error .tooLarge
      ∨ (decode d path limits).2 = .error .tooNested)
    ∧ ((decode d path limits).2 = .error .tooNested → d.Exceeds limits)
    ∧ ((decode d path limits).2 ≠ .error .tooNested →
        (decode d path limits).2 = (decode d path).2)
    ∧ ((decode d path).2 = .error .tooLarge ↔
        ∃ fields e, d = .object fields ∧ FirstFault fields e .tooLarge)
    ∧ ∀ fields e, FirstFault fields e .tooLarge →
        e.Oversized ∧ (Document.object fields).Oversized := by
  refine ⟨?_, ?_, ?_, ?_, ?_⟩
  · cases hresult : (decode d path limits).2 with
    | ok a => exact .inl ⟨a, rfl⟩
    | error f =>
      rcases refuses_of_decode hresult with hf | ⟨rfl, -⟩
      · by_cases hlarge : f = .tooLarge
        · exact .inr (.inr (.inl (congrArg _ hlarge)))
        · have hmalformed : f.isMalformed = true := by
            unfold refuses at hf
            split at hf
            · exact absurd rfl hlarge
            · exact hf
          exact .inr (.inl ⟨f, rfl, Fault.kind_of_isMalformed hmalformed⟩)
      · exact .inr (.inr (.inr rfl))
  · intro hnested
    rcases refuses_of_decode hnested with hf | ⟨-, hexceeds⟩
    · simp [refuses, Fault.isMalformed] at hf
    · exact hexceeds
  · intro hnested
    exact (decode_approximates d path limits).resolve_right fun hstop => hnested hstop.2
  · cases d with
    | object fields =>
      simp only [decode, mapError_eq_error_iff, inDocument_eq_tooLarge_iff, exists_eq_right,
        decodeObject_eq_tooLarge_iff, Document.object.injEq]
      constructor
      · rintro ⟨e, he⟩
        exact ⟨fields, e, rfl, he⟩
      · rintro ⟨_, e, rfl, he⟩
        exact ⟨e, he⟩
    | _ => simp [decode]
  · rintro fields e ⟨encoding, front, back, -, hparts, -, he⟩
    have hexport := Export.not_covered_of_decode he
    constructor
    · exact Classical.byContradiction fun h => hexport (Document.covered_concernsForm h)
    · refine Classical.byContradiction fun h => hexport ?_
      have hexports := (Document.covered_concernsForm h).of_getD_nil "exports"
      exact hexports.of_parts hparts e (by simp)

/-- An asset document with one function that declares a field with the given flags. -/
def sampleFlags (flags : Document) : Document :=
  .object [("exports", .list [.object [("type", .text "Function"), ("name", .text "Open"),
    ("fields", .list [.object [("kind", .text "FIntProperty"), ("flags", flags)]])]])]

/-- Infinite flags are let through, and they are what is oversized in the document. -/
theorem decode_refusal_flags :
    (decode (sampleFlags (.real (.inf false))) "Door.uasset").2 = .error .tooLarge
    ∧ (sampleFlags (.real (.inf false))).Oversized := by
  obtain ⟨-, -, -, hiff, hoversized⟩ :=
    decode_refusal (sampleFlags (.real (.inf false))) "Door.uasset" {}
  obtain ⟨fields, e, hd, hfirst⟩ := hiff.mp rfl
  exact ⟨rfl, hd ▸ (hoversized fields e hfirst).2⟩

/-- An asset document with one function that scales by the given numbers. -/
def sampleScale (scale : List Document) : Document :=
  .object [("exports", .list [.object [("type", .text "Function"), ("name", .text "Open"),
    ("bytecode", .list [.object [("inst", .text "EX_TransformConst"), ("rotation", .list []),
      ("translation", .list []), ("scale", .list scale)]])]])]

/-- Instructions that return what the next one gives, and the last one nothing. -/
def sampleReturns : Nat → Document
  | 0 => .object [("inst", .text "EX_Nothing")]
  | n + 1 => .object [("inst", .text "EX_Return"), ("operand", sampleReturns n)]

theorem decodeWithin_sampleReturns (n : Nat) :
    Instr.decodeWithin n (sampleReturns n) = .error .tooNested := by
  induction n with
  | zero => rfl
  | succ n ih =>
    show (do return Body.unary (← Instr.Node.readOperand (Instr.decodeWithin n) (sampleReturns n))
      : Except Fault Body).map _ = _
    have hread : Instr.Node.readOperand (Instr.decodeWithin n) (sampleReturns n)
        = (Instr.decodeWithin n (sampleReturns n)).map .instr := by
      cases n <;> rfl
    rw [hread, ih]
    rfl

/-- The object of a function with these instructions. -/
def sampleNested (n : Nat) : Fields :=
  [("type", .text "Function"), ("name", .text "Open"), ("bytecode", .list [sampleReturns n])]

/-- As many instructions inside each other as there are levels are too many. -/
theorem decode_sampleNested (n : Nat) :
    (decode (.object [("exports", .list [.object (sampleNested n)])]) "Door.uasset"
      { levels := some n }).2 = .error .tooNested := by
  have hscript : Instr.decodeScript (.list [sampleReturns n]) { levels := some n }
      = .error .tooNested := by
    show (do return [← Instr.decodeWithin n (sampleReturns n)] : Except Fault _) = _
    rw [decodeWithin_sampleReturns]
    rfl
  have hfunction : FunctionExport.decode (sampleNested n) [] { levels := some n }
      = .error .tooNested := by
    show (do
      let script ← (Instr.decodeScript (.list [sampleReturns n]) { levels := some n }).map some
      return ⟨.text "Open", .number 0, [], script⟩ : Except Fault FunctionExport) = _
    rw [hscript]
    rfl
  have hexport : Export.decode (.object (sampleNested n)) { levels := some n }
      = .error .tooNested := by
    show (do return some (Export.function (← FunctionExport.decode _ [] { levels := some n }))
      : Except Fault (Option Export)) = _
    rw [hfunction]
    rfl
  show ((decodeExports [_] { levels := some n }).2.map _).mapError _ = _
  rw [decodeExports_cons, hexport]
  rfl

/-- Infinite flags, a scale beyond the doubles and too many instructions inside each other are
not reported as badly formed. -/
theorem decode_oversized_samples :
    (∃ f, (decode (sampleFlags (.real (.inf false))) "Door.uasset").2 = .error f
      ∧ f.kind = "OverflowError")
    ∧ (∃ f, (decode (sampleScale [.int Binary64.wholeBound]) "Door.uasset").2 = .error f
      ∧ f.kind = "OverflowError")
    ∧ ∀ n, ∃ f, (decode (.object [("exports", .list [.object (sampleNested n)])]) "Door.uasset"
        { levels := some n }).2 = .error f ∧ f.kind = "RecursionError" := by
  refine ⟨⟨_, rfl, rfl⟩, ?_, fun n => ⟨_, decode_sampleNested n, rfl⟩⟩
  have hkind : (match (decode (sampleScale [.int Binary64.wholeBound]) "Door.uasset").2 with
      | .error f => f.kind
      | .ok _ => "") = "OverflowError" := by
    decide +kernel
  split at hkind
  · rename_i f hf
    exact ⟨f, hf, hkind⟩
  · simp at hkind

end Asset

end Kismet
