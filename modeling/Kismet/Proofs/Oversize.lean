import Kismet.Proofs.Cause
set_option autoImplicit false

/-!
# Oversize: numbers that are too large to convert

A number is converted where a document is decoded: to a whole number under some keys, to
a double under others.  An infinity has no whole part, and a whole number from
`Binary64.wholeBound` on has no nearest double.  `Document.Oversized` says that a document
holds such a number under such a key, at any depth.  Nothing else can make a conversion
fail for its size, so the faults of decoding are stated against it, by
`Document.Covered`.
-/

namespace Kismet

/-! ## Whole numbers as doubles -/

/-- Rounding reaches an even bound from below just when at most a half is missing. -/
theorem roundHalfEven_eq_iff {num den bound : Nat} (hden : 0 < den) (heven : bound % 2 = 0)
    (hnum : num < bound * den) :
    roundHalfEven num den = bound ↔ bound * den * 2 ≤ num * 2 + den := by
  have hsplit : den * (num / den) + num % den = num := Nat.div_add_mod num den
  have hrest : num % den < den := Nat.mod_lt num hden
  have hquotient : num / den < bound := (Nat.div_lt_iff_lt_mul hden).mpr hnum
  obtain ⟨gap, hgap⟩ : ∃ gap, bound = num / den + 1 + gap := ⟨bound - (num / den + 1), by omega⟩
  have hproduct : bound * den = den * (num / den) + den + gap * den := by
    rw [hgap, Nat.add_mul, Nat.add_mul, Nat.mul_comm, Nat.one_mul]
  unfold roundHalfEven
  dsimp only
  rcases Nat.eq_zero_or_pos gap with rfl | hpos
  · rw [Nat.zero_mul] at hproduct
    repeat' split
    all_goals omega
  · have hwide : den ≤ gap * den := Nat.le_mul_of_pos_left den hpos
    repeat' split
    all_goals omega

namespace Binary64

/-- The exponent of a whole number follows from its number of bits. -/
theorem exponentOf_one {num : Nat} (h : num ≠ 0) :
    exponentOf num 1 = (Nat.log2 num : Int) - 52 := by
  have hlow : Nat.pow 2 (Nat.log2 num) ≤ num := Nat.log2_self_le h
  have hfull : ¬(descale num 1 ((Nat.log2 num : Int) - 52)).1
      / (descale num 1 ((Nat.log2 num : Int) - 52)).2 < Nat.pow 2 (precision - 1) := by
    unfold descale
    split
    · rename_i hexp
      obtain ⟨k, hk⟩ : ∃ k : Nat, Nat.log2 num = k + 52 := ⟨Nat.log2 num - 52, by omega⟩
      have htoNat : ((Nat.log2 num : Int) - 52).toNat = k := by omega
      rw [hk] at hlow
      have hpow : Nat.pow 2 (k + 52) = Nat.pow 2 52 * Nat.pow 2 k := by
        rw [Nat.mul_comm]; exact Nat.pow_add 2 k 52
      rw [hpow] at hlow
      rw [htoNat, Nat.one_mul, Nat.not_lt]
      exact (Nat.le_div_iff_mul_le (Nat.pow_pos (by decide))).mpr hlow
    · rename_i hexp
      have htoNat : (-((Nat.log2 num : Int) - 52)).toNat = 52 - Nat.log2 num := by omega
      have hpow : Nat.pow 2 52 = Nat.pow 2 (Nat.log2 num) * Nat.pow 2 (52 - Nat.log2 num) := by
        refine Eq.trans ?_ (Nat.pow_add 2 _ _)
        rw [show Nat.log2 num + (52 - Nat.log2 num) = 52 by omega]
      rw [htoNat, Nat.div_one, Nat.not_lt]
      show Nat.pow 2 52 ≤ _
      rw [hpow]
      exact Nat.mul_le_mul_right _ hlow
  have hlog : Nat.log2 1 = 0 := by decide
  simp only [exponentOf, hlog, Int.natCast_zero, Int.sub_zero, if_neg hfull, minExponent]
  omega

/-- The exponent of half a step between the largest doubles. -/
def halfStep : Nat := (maxExponent - 1).toNat

/-- The number half a step beyond the largest double, which is `2 ^ 1024 - 2 ^ 970`. -/
def wholeBound : Nat := (Nat.pow 2 54 - 1) * Nat.pow 2 halfStep

/-- The mantissa of a whole number, before a full one is carried over. -/
def wholeMantissa (num : Nat) : Nat :=
  let (n, d) := descale num 1 ((Nat.log2 num : Int) - 52)
  roundHalfEven n d

theorem wholeBound_eq : wholeBound = 18014398509481983 * Nat.pow 2 halfStep := by
  rw [wholeBound, show Nat.pow 2 54 - 1 = 18014398509481983 by decide]

theorem maxExponent_eq : maxExponent = (halfStep : Int) + 1 := by decide

/-- A whole number becomes infinite if its exponent is too large, or if it is the largest one
and the mantissa is carried over. -/
theorem ofInt?_eq_none_iff_log2 {n : Int} (h : n.natAbs ≠ 0) :
    ofInt? n = none ↔ halfStep + 53 < Nat.log2 n.natAbs
      ∨ Nat.log2 n.natAbs = halfStep + 53 ∧ wholeMantissa n.natAbs = Nat.pow 2 precision := by
  have hmax := maxExponent_eq
  have hratio : ofRatio (n < 0) n.natAbs 1
      = if wholeMantissa n.natAbs = Nat.pow 2 precision then
          if maxExponent < (Nat.log2 n.natAbs : Int) - 52 + 1 then .inf (n < 0)
          else .finite (n < 0) (Nat.pow 2 (precision - 1)) ((Nat.log2 n.natAbs : Int) - 52 + 1)
        else if maxExponent < (Nat.log2 n.natAbs : Int) - 52 then .inf (n < 0)
          else .finite (n < 0) (wholeMantissa n.natAbs) ((Nat.log2 n.natAbs : Int) - 52) := by
    rw [ofRatio, if_neg h, exponentOf_one h]
    unfold wholeMantissa
    dsimp only
    split <;> rfl
  unfold ofInt?
  rw [hratio]
  by_cases hcarry : wholeMantissa n.natAbs = Nat.pow 2 precision
  · rw [if_pos hcarry]
    by_cases hlarge : maxExponent < (Nat.log2 n.natAbs : Int) - 52 + 1
    · simp only [if_pos hlarge, true_iff, hcarry, and_true]
      omega
    · simp only [if_neg hlarge, reduceCtorEq, false_iff, hcarry, and_true]
      omega
  · rw [if_neg hcarry]
    by_cases hlarge : maxExponent < (Nat.log2 n.natAbs : Int) - 52
    · simp only [if_pos hlarge, true_iff, hcarry, and_false, or_false]
      omega
    · simp only [if_neg hlarge, reduceCtorEq, false_iff, hcarry, and_false, or_false]
      omega

/-- The mantissa of the largest numbers is carried over from the bound on. -/
theorem wholeMantissa_eq_iff {num : Nat} (hlog : Nat.log2 num = halfStep + 53)
    (hnum : num < 18014398509481984 * Nat.pow 2 halfStep) :
    wholeMantissa num = Nat.pow 2 precision ↔ wholeBound ≤ num := by
  have hstep : ∀ k, Nat.pow 2 (k + 1) = Nat.pow 2 k * 2 := fun _ => rfl
  have hdescale : descale num 1 ((Nat.log2 num : Int) - 52) = (num, Nat.pow 2 halfStep * 2) := by
    have htoNat : ((Nat.log2 num : Int) - 52).toNat = halfStep + 1 := by omega
    rw [descale, if_pos (by omega), htoNat, hstep, Nat.one_mul]
  have hpos : ∀ k, 0 < Nat.pow 2 k := fun _ => Nat.pow_pos (by decide)
  have hunit := hpos halfStep
  have hprecision : Nat.pow 2 precision = 9007199254740992 := by decide
  have hbound := wholeBound_eq
  rw [wholeMantissa, hdescale]
  dsimp only
  rw [hprecision, roundHalfEven_eq_iff (by omega) (by decide) (by omega), hbound]
  omega

/-- A whole number has a nearest double as long as it is below the bound. -/
theorem ofInt?_eq_none_iff (n : Int) : ofInt? n = none ↔ wholeBound ≤ n.natAbs := by
  have hpos : ∀ k, 0 < Nat.pow 2 k := fun _ => Nat.pow_pos (by decide)
  have hunit := hpos halfStep
  have hbound := wholeBound_eq
  have htop : ∀ k, Nat.pow 2 (54 + k) = 18014398509481984 * Nat.pow 2 k := Nat.pow_add 2 54
  have hhalf : ∀ k, Nat.pow 2 (53 + k) = 9007199254740992 * Nat.pow 2 k := Nat.pow_add 2 53
  rcases Nat.eq_zero_or_pos n.natAbs with hzero | hpos
  · have hn : n = 0 := by omega
    have hsome : ofInt? 0 ≠ none := by decide
    rw [hn]
    simp only [hsome, false_iff]
    omega
  · have hne : n.natAbs ≠ 0 := by omega
    have hlow : Nat.pow 2 (Nat.log2 n.natAbs) ≤ n.natAbs := Nat.log2_self_le hne
    have hhigh : n.natAbs < Nat.pow 2 (Nat.log2 n.natAbs + 1) := Nat.lt_log2_self
    rw [ofInt?_eq_none_iff_log2 hne]
    have hmono : ∀ {i j : Nat}, i ≤ j → Nat.pow 2 i ≤ Nat.pow 2 j :=
      fun hij => Nat.pow_le_pow_right (by decide) hij
    rcases Nat.lt_trichotomy (Nat.log2 n.natAbs) (halfStep + 53) with hlog | hlog | hlog
    · have hsmall : Nat.pow 2 (Nat.log2 n.natAbs + 1) ≤ Nat.pow 2 (53 + halfStep) :=
        hmono (by omega)
      rw [hhalf] at hsmall
      omega
    · have hnext : Nat.log2 n.natAbs + 1 = 54 + halfStep := by omega
      rw [hnext, htop] at hhigh
      rw [wholeMantissa_eq_iff hlog hhigh]
      simp [hlog]
    · have hlarge : Nat.pow 2 (54 + halfStep) ≤ Nat.pow 2 (Nat.log2 n.natAbs) :=
        hmono (by omega)
      rw [htop] at hlarge
      omega

end Binary64

/-! ## Documents -/

namespace Document

/-- The keys whose values are converted to whole numbers. -/
def wholeKeys : List String :=
  ["flags", "literal_type", "end_offset", "next_offset", "conversion", "event_type"]

/-- The keys whose values are lists of numbers that are converted to doubles. -/
def realKeys : List String :=
  ["rotation", "translation", "scale"]

/-- A number that is too large for its conversion stands somewhere in the document. -/
inductive Oversized : Document → Prop where
  | whole {fields : Fields} {key : String} {neg : Bool} : key ∈ wholeKeys →
      Fields.get? fields key = some (.real (.inf neg)) → Oversized (.object fields)
  | real {fields : Fields} {key : String} {items : List Document} {n : Int} : key ∈ realKeys →
      Fields.get? fields key = some (.list items) → .int n ∈ items →
      Binary64.wholeBound ≤ n.natAbs → Oversized (.object fields)
  | item {items : List Document} {d : Document} : d ∈ items → Oversized d →
      Oversized (.list items)
  | field {fields : Fields} {key : String} {d : Document} : Fields.get? fields key = some d →
      Oversized d → Oversized (.object fields)

theorem not_oversized_scalar (s : Scalar) : ¬(Document.scalar s).Oversized := by
  rintro ⟨⟩

theorem not_oversized_nil : ¬(Document.list []).Oversized := by
  rintro ⟨⟩
  contradiction

end Document

/-! ## Faults that cover a document -/

/-- The fault concerns the form of a document or the use of its data, but not the size of a
number. -/
def Fault.concernsForm (f : Fault) : Bool :=
  f.isMalformed || f.concernsData

namespace Document

/-- All faults that the form of the document or the size of its numbers can cause are of the
given kind. -/
structure Covered (p : Fault → Bool) (d : Document) : Prop where
  form : ∀ f, f.concernsForm = true → p f = true
  size : d.Oversized → p .tooLarge = true

namespace Covered

variable {p : Fault → Bool} {d : Document} {fields : Fields} {key : String}

theorem of_scalar (h : d.Covered p) (s : Scalar) : (Document.scalar s).Covered p :=
  ⟨h.form, fun hs => absurd hs (not_oversized_scalar s)⟩

theorem of_item {items : List Document} (h : (Document.list items).Covered p) (hd : d ∈ items) :
    d.Covered p :=
  ⟨h.form, fun hs => h.size (.item hd hs)⟩

section Fields

variable (h : (Document.object fields).Covered p)

include h

theorem of_get? (hd : Fields.get? fields key = some d) : d.Covered p :=
  ⟨h.form, fun hs => h.size (.field hd hs)⟩

theorem of_getOrNull (key : String) : (Fields.getOrNull fields key).Covered p := by
  unfold Fields.getOrNull
  cases hd : Fields.get? fields key with
  | none => exact h.of_scalar .null
  | some d => exact h.of_get? hd

theorem of_getD_nil (key : String) : ((Fields.get? fields key).getD (.list [])).Covered p := by
  cases hd : Fields.get? fields key with
  | none => exact ⟨h.form, fun hs => absurd hs not_oversized_nil⟩
  | some d => exact h.of_get? hd

end Fields

/-- The parts of a document are covered with it. -/
theorem of_parts (h : d.Covered p) {ps : List Document} (hps : d.parts = .ok ps) :
    ∀ x ∈ ps, x.Covered p := by
  intro x hx
  unfold parts at hps
  split at hps
  · obtain rfl := Except.ok.inj hps
    exact h.of_item hx
  · obtain rfl := Except.ok.inj hps
    obtain ⟨c, -, rfl⟩ := List.mem_map.mp hx
    exact h.of_scalar _
  · obtain rfl := Except.ok.inj hps
    obtain ⟨f, -, rfl⟩ := List.mem_map.mp hx
    exact h.of_scalar _
  · simp at hps

/-- A computation whose faults concern the form only. -/
theorem failsOnly {α : Type} {x : Except Fault α} (h : d.Covered p)
    (hx : FailsOnly Fault.concernsForm x) : FailsOnly p x :=
  hx.mono h.form

end Covered

/-! ## Conversions -/

section Conversions

variable {p : Fault → Bool} (hform : ∀ f, f.concernsForm = true → p f = true)

include hform

/-- Of the documents only infinities are too large for whole numbers. -/
theorem toInt_failsOnly_of {d : Document} (hsize : ∀ neg, d = .real (.inf neg) →
    p .tooLarge = true) : FailsOnly p d.toInt := by
  unfold toInt
  split
  · exact FailsOnly.ok _
  · exact FailsOnly.ok _
  · exact FailsOnly.error_iff.mpr (hform _ rfl)
  · rename_i x hnan
    cases x with
    | nan => simp at hnan
    | inf neg => exact FailsOnly.error_iff.mpr (hsize neg rfl)
    | finite neg m e => exact FailsOnly.ok _
  · split
    · exact FailsOnly.ok _
    · exact FailsOnly.error_iff.mpr (hform _ rfl)
  · exact FailsOnly.error_iff.mpr (hform _ rfl)

/-- Of the documents only whole numbers from the bound on are too large for doubles. -/
theorem toReal_failsOnly_of {d : Document} (hsize : ∀ n : Int, d = .int n →
    Binary64.wholeBound ≤ n.natAbs → p .tooLarge = true) : FailsOnly p d.toReal := by
  have hofInt : ∀ n : Int, (Binary64.wholeBound ≤ n.natAbs → p .tooLarge = true) →
      FailsOnly p (Binary64.ofInt n) := by
    intro n hn
    unfold Binary64.ofInt
    split
    · exact FailsOnly.ok _
    · rename_i hnone
      exact FailsOnly.error_iff.mpr (hn ((Binary64.ofInt?_eq_none_iff n).mp hnone))
  unfold toReal
  split
  · exact FailsOnly.ok _
  · exact hofInt _ (hsize _ rfl)
  · rename_i b
    refine hofInt _ fun hbound => ?_
    -- Truth values are small.
    have hnone := (Binary64.ofInt?_eq_none_iff (truthInt b)).mpr hbound
    cases b <;> exact absurd hnone (by decide)
  · split
    · exact FailsOnly.ok _
    · exact FailsOnly.error_iff.mpr (hform _ rfl)
  · exact FailsOnly.error_iff.mpr (hform _ rfl)

end Conversions

namespace Covered

variable {p : Fault → Bool} {d : Document} {fields : Fields} {key : String}
  (h : (Document.object fields).Covered p)

include h

/-- An infinity is covered under the keys of whole numbers. -/
theorem inf_of_get? (hkey : key ∈ wholeKeys) (hd : Fields.get? fields key = some d) (neg : Bool)
    (hinf : d = .real (.inf neg)) : p .tooLarge = true :=
  h.size (.whole hkey (hinf ▸ hd))

/-- The numbers under the keys of doubles can be converted, or their size is covered. -/
theorem toReal_of_get? (hkey : key ∈ realKeys) (hd : Fields.get? fields key = some d)
    {ps : List Document} (hps : d.parts = .ok ps) {x : Document} (hx : x ∈ ps) :
    FailsOnly p x.toReal := by
  refine toReal_failsOnly_of h.form ?_
  rintro n rfl hbound
  unfold parts at hps
  split at hps
  · obtain rfl := Except.ok.inj hps
    exact h.size (.real hkey hd hx hbound)
  · obtain rfl := Except.ok.inj hps
    simp [ofChars] at hx
  · obtain rfl := Except.ok.inj hps
    simp at hx
  · simp at hps

end Covered

end Document

end Kismet
