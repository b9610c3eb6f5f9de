import Kismet.Binary64.Fixed
import Kismet.Text.Numeral
import Mathlib.Algebra.Order.Field.Rat
import Mathlib.Data.List.DropRight
import Mathlib.Tactic.FieldSimp
import Mathlib.Tactic.Linarith
import Mathlib.Tactic.NormNum
import Mathlib.Tactic.Positivity
import Mathlib.Tactic.Ring
set_option autoImplicit false

/-!
# FixedText: what the short text of a double stands for

A finite double is an exact fraction.  Its fixed text is the nearest number of four places, a half
going to the even one, and its short text is the fixed one without the zeros at its end.  Texts
are given a meaning here by `Text.Numeral.pointed?`, which reads digits around a point as a sign
and a rational number.  Both texts have the same meaning, so the short one is as near to the double
as the fixed one, and it tells the same doubles apart: `Binary64.brief_denotes`.
-/

namespace Kismet

/-! ## Rounding -/

/-- `n` is the integer nearest to `q`, and the even one if two are equally near. -/
structure IsNearestEven (q : ℚ) (n : ℤ) : Prop where
  near : |(n : ℚ) - q| ≤ 1 / 2
  even_of_tie : |(n : ℚ) - q| = 1 / 2 → Even n

namespace IsNearestEven

theorem of_lt {q : ℚ} {n : ℤ} (h : |(n : ℚ) - q| < 1 / 2) : IsNearestEven q n :=
  ⟨h.le, fun htie => absurd htie h.ne⟩

theorem neg {q : ℚ} {n : ℤ} (h : IsNearestEven q n) : IsNearestEven (-q) (-n) := by
  have hdistance : |((-n : ℤ) : ℚ) - -q| = |(n : ℚ) - q| := by
    rw [← abs_neg, Int.cast_neg, neg_sub_neg, neg_sub]
  exact ⟨hdistance ▸ h.near, fun htie => (h.even_of_tie (hdistance ▸ htie)).neg⟩

end IsNearestEven

theorem roundHalfEven_isNearestEven (num : Nat) {den : Nat} (hden : 0 < den) :
    IsNearestEven ((num : ℚ) / den) (roundHalfEven num den) := by
  have hpos : (0 : ℚ) < den := by exact_mod_cast hden
  -- the fraction is the quotient and a rest, which is compared with a half
  obtain ⟨k, hk⟩ : ∃ k, num / den = k := ⟨_, rfl⟩
  obtain ⟨rest, hrest⟩ : ∃ rest, num % den = rest := ⟨_, rfl⟩
  have hlt : rest < den := hrest ▸ Nat.mod_lt num hden
  have hsplit : (num : ℚ) / den = k + (rest : ℚ) / den := by
    have hnum : (num : ℚ) = den * k + rest := by
      exact_mod_cast (hk ▸ hrest ▸ (Nat.div_add_mod num den).symm)
    rw [hnum]
    field_simp
  have hrestLt : (rest : ℚ) / den < 1 := by
    rw [div_lt_one hpos]
    exact_mod_cast hlt
  have hrestNonneg : 0 ≤ (rest : ℚ) / den := by positivity
  simp only [roundHalfEven, hk, hrest, hsplit]
  split
  · rename_i hlow
    have hhalf : (rest : ℚ) / den < 1 / 2 := by
      rw [div_lt_div_iff₀ hpos two_pos]
      exact_mod_cast (by omega : rest * 2 < 1 * den)
    refine .of_lt ?_
    rw [Int.cast_natCast, sub_add_cancel_left, abs_neg, abs_of_nonneg hrestNonneg]
    exact hhalf
  · split
    · rename_i hhigh
      have hhalf : 1 / 2 < (rest : ℚ) / den := by
        rw [div_lt_div_iff₀ two_pos hpos]
        exact_mod_cast (by omega : 1 * den < rest * 2)
      refine .of_lt ?_
      push_cast
      rw [abs_lt]
      constructor <;> linarith
    · have hhalf : (rest : ℚ) / den = 1 / 2 := by
        rw [div_eq_div_iff hpos.ne' two_ne_zero]
        exact_mod_cast (by omega : rest * 2 = 1 * den)
      rw [hhalf]
      rcases Nat.even_or_odd k with heven | hodd
      · rw [Nat.even_iff.mp heven]
        refine ⟨le_of_eq ?_, fun _ => by exact_mod_cast heven⟩
        rw [Nat.add_zero, Int.cast_natCast, sub_add_cancel_left, abs_neg, abs_of_pos (by norm_num)]
      · rw [Nat.odd_iff.mp hodd]
        refine ⟨le_of_eq ?_, fun _ => by exact_mod_cast hodd.add_one⟩
        push_cast
        rw [add_sub_add_left_eq_sub, abs_of_pos (by norm_num)]
        norm_num

namespace Binary64

/-- The exact value of a finite double. -/
def exactValue (neg : Bool) (m : Nat) (e : Int) : ℚ :=
  (signed neg m : ℚ) * 2 ^ e

theorem ratio_pos (m : Nat) (e : Int) : 0 < (ratio m e).2 := by
  unfold ratio
  split
  · exact Nat.one_pos
  · exact Nat.pow_pos Nat.two_pos

theorem ratio_eq (m : Nat) (e : Int) : ((ratio m e).1 : ℚ) / (ratio m e).2 = m * 2 ^ e := by
  unfold ratio
  split
  · rename_i he
    obtain ⟨k, rfl⟩ := Int.eq_ofNat_of_zero_le he
    simp [Nat.pow_eq]
  · rename_i he
    obtain ⟨k, hk⟩ := Int.eq_ofNat_of_zero_le (a := -e) (by omega)
    obtain rfl : e = -(k : Int) := by omega
    simp [Nat.pow_eq, zpow_neg, div_eq_mul_inv]

/-- The units of the last place are the exact value in these units, rounded. -/
theorem lastPlaceUnits_isNearestEven (neg : Bool) (m : Nat) (e : Int) :
    IsNearestEven (exactValue neg m e * 10 ^ 4) (signed neg (lastPlaceUnits m e)) := by
  have hmagnitude : IsNearestEven (m * 2 ^ e * 10 ^ 4) (lastPlaceUnits m e) := by
    have hround := roundHalfEven_isNearestEven ((ratio m e).1 * Nat.pow 10 places) (ratio_pos m e)
    have hvalue : (((ratio m e).1 * Nat.pow 10 places : ℕ) : ℚ) / (ratio m e).2
        = m * 2 ^ e * 10 ^ 4 := by
      rw [Nat.cast_mul, mul_div_right_comm, ratio_eq]
      norm_num [places, Nat.pow_eq]
    rwa [hvalue] at hround
  cases neg with
  | false => simpa [exactValue, signed] using hmagnitude
  | true => simpa [exactValue, signed] using hmagnitude.neg

end Binary64

/-! ## Digits around a point -/

namespace Text.Numeral

/-- The number that digits around a point stand for. -/
def pointedValue (whole fraction : List Char) : ℚ :=
  (decimalValue (whole ++ fraction) : ℚ) / 10 ^ fraction.length

/-- Sign and value of digits around a point after an optional sign, the value with its sign;
`none` for any other text. -/
def pointed? (cs : List Char) : Option (Bool × ℚ) :=
  let (neg, body) := splitSign cs
  match body.dropWhile Char.isDigit with
  | '.' :: fraction =>
    let whole := body.takeWhile Char.isDigit
    if whole ≠ [] ∧ fraction ≠ [] ∧ fraction.all Char.isDigit then
      some (neg, (if neg then -1 else 1) * pointedValue whole fraction)
    else none
  | _ => none

theorem decimalValue_append (a b : List Char) :
    decimalValue (a ++ b) = 10 ^ b.length * decimalValue a + decimalValue b :=
  (Nat.ofDigitChars_append 0).trans Nat.ofDigitChars_eq_ofDigitChars_zero

theorem decimalValue_toDigits (n : Nat) : decimalValue (Nat.toDigits 10 n) = n :=
  Nat.ofDigitChars_ten_toDigits

theorem decimalValue_replicate_zero (k : Nat) : decimalValue (List.replicate k '0') = 0 :=
  Nat.ofDigitChars_replicate_zero.trans (Nat.mul_zero _)

/-- Zeros at the end of a fraction do not count. -/
theorem pointedValue_append_zeros (whole fraction : List Char) (k : Nat) :
    pointedValue whole (fraction ++ List.replicate k '0') = pointedValue whole fraction := by
  unfold pointedValue
  rw [← List.append_assoc, decimalValue_append, decimalValue_replicate_zero, List.length_append,
    List.length_replicate, pow_add]
  push_cast
  rw [add_zero, mul_comm, mul_div_mul_right _ _ (by positivity)]

/-- The sign in front of a number. -/
def signChars (neg : Bool) : List Char :=
  if neg then ['-'] else []

theorem splitSign_signChars (neg : Bool) {c : Char} (hc : c.isDigit = true) (rest : List Char) :
    splitSign (signChars neg ++ c :: rest) = (neg, c :: rest) := by
  cases neg with
  | true => rfl
  | false =>
    have hminus : c ≠ '-' := by rintro rfl; simp at hc
    have hplus : c ≠ '+' := by rintro rfl; simp at hc
    show splitSign (c :: rest) = (false, c :: rest)
    unfold splitSign
    split
    · rename_i heq
      exact absurd (List.cons.inj heq).1 hminus
    · rename_i heq
      exact absurd (List.cons.inj heq).1 hplus
    · rfl

theorem pointed?_eq (neg : Bool) {whole fraction : List Char} (hwhole : whole ≠ [])
    (hdigits : ∀ c ∈ whole, c.isDigit = true) (hfraction : fraction ≠ [])
    (hplaces : ∀ c ∈ fraction, c.isDigit = true) :
    pointed? (signChars neg ++ (whole ++ '.' :: fraction))
      = some (neg, (if neg then -1 else 1) * pointedValue whole fraction) := by
  obtain ⟨c, rest, rfl⟩ := List.exists_cons_of_ne_nil hwhole
  have hsign := splitSign_signChars neg (hdigits c (by simp)) (rest ++ '.' :: fraction)
  have hdrop : (c :: rest ++ '.' :: fraction).dropWhile Char.isDigit = '.' :: fraction := by
    rw [List.dropWhile_append_of_pos hdigits]
    rfl
  have htake : (c :: rest ++ '.' :: fraction).takeWhile Char.isDigit = c :: rest := by
    rw [List.takeWhile_append_of_pos hdigits]
    simp
  rw [List.cons_append] at hdrop htake ⊢
  simp only [pointed?, hsign, hdrop, htake]
  rw [if_pos ⟨hwhole, hfraction, List.all_eq_true.mpr hplaces⟩]

end Text.Numeral

/-! ## Zeros at the end -/

namespace Binary64

open Text.Numeral

/-- The digits after the point of the short text. -/
def briefFraction (fraction : List Char) : List Char :=
  if fraction.rdropWhile (· == '0') = [] then ['0'] else fraction.rdropWhile (· == '0')

/-- Only digits after the point are cut off. -/
theorem trimPlaces_append (front : List Char) {fraction : List Char}
    (h : ∀ c ∈ fraction, c.isDigit = true) :
    trimPlaces (front ++ '.' :: fraction) = front ++ '.' :: briefFraction fraction := by
  have hcontains : (front ++ '.' :: fraction).contains '.' = true := by simp
  have hreverse : (front ++ '.' :: fraction).reverse
      = fraction.reverse ++ '.' :: front.reverse := by
    simp
  rw [trimPlaces, if_pos hcontains, hreverse, List.dropWhile_append, briefFraction, List.rdropWhile]
  cases hkept : fraction.reverse.dropWhile (· == '0') with
  | nil => simp
  | cons d kept =>
    -- what is kept ends in a digit, so that it does not end in the point
    have hmem : d ∈ fraction := by
      have hsub := (List.dropWhile_sublist (· == '0') (l := fraction.reverse)).subset
      exact List.mem_reverse.mp (hsub (by simp [hkept]))
    have hd : d ≠ '.' := by
      rintro rfl
      simpa using h _ hmem
    simp [hd]

/-- The digits that are cut off are zeros. -/
theorem exists_zeros (fraction : List Char) :
    ∃ k, fraction = fraction.rdropWhile (· == '0') ++ List.replicate k '0' := by
  refine ⟨(fraction.rtakeWhile (· == '0')).length, ?_⟩
  have hzeros : fraction.rtakeWhile (· == '0')
      = List.replicate (fraction.rtakeWhile (· == '0')).length '0' := by
    rw [List.eq_replicate_iff]
    exact ⟨rfl, fun c hc => by simpa using List.mem_rtakeWhile_imp hc⟩
  rw [← hzeros, List.rdropWhile_append_rtakeWhile]

theorem pointedValue_briefFraction (whole fraction : List Char) :
    pointedValue whole (briefFraction fraction) = pointedValue whole fraction := by
  obtain ⟨k, hk⟩ := exists_zeros fraction
  have hkept : pointedValue whole fraction
      = pointedValue whole (fraction.rdropWhile (· == '0')) := by
    conv_lhs => rw [hk]
    exact pointedValue_append_zeros _ _ _
  rw [hkept, briefFraction]
  split
  · rename_i hnil
    rw [hnil]
    exact pointedValue_append_zeros whole [] 1
  · rfl

/-- One to `places` digits, of which the last one is a zero only if there is no other. -/
structure IsBriefFraction (fraction : List Char) : Prop where
  digits : ∀ c ∈ fraction, c.isDigit = true
  pos : 1 ≤ fraction.length
  le : fraction.length ≤ 4
  zero : fraction.getLast? = some '0' → fraction.length = 1

theorem isBriefFraction_briefFraction {fraction : List Char} (hlength : fraction.length = 4)
    (h : ∀ c ∈ fraction, c.isDigit = true) : IsBriefFraction (briefFraction fraction) := by
  unfold briefFraction
  split
  · exact ⟨by simp, by simp, by simp, by simp⟩
  · rename_i hkept
    have hfront : fraction.rdropWhile (· == '0') <+: fraction := List.rdropWhile_prefix _ _
    refine ⟨fun c hc => h c (hfront.subset hc), List.length_pos_iff.mpr hkept,
      hlength ▸ hfront.length_le, fun hlast => ?_⟩
    have hnot := List.rdropWhile_last_not (· == '0') fraction hkept
    rw [List.getLast?_eq_some_getLast hkept] at hlast
    simp [Option.some.inj hlast] at hnot

/-! ## The two texts -/

theorem isDigit_of_mem_toDigits {n : Nat} {c : Char} (h : c ∈ Nat.toDigits 10 n) :
    c.isDigit = true :=
  Nat.isDigit_of_mem_toDigits (by decide) (by decide) h

theorem isDigit_of_mem_fractionDigits {n : Nat} {c : Char} (h : c ∈ fractionDigits n) :
    c.isDigit = true := by
  rcases List.mem_append.mp h with h | h
  · rw [List.eq_of_mem_replicate h]
    rfl
  · exact isDigit_of_mem_toDigits h

theorem length_fractionDigits {n : Nat} (h : n < 10 ^ 4) : (fractionDigits n).length = 4 := by
  have hlength : (Nat.toDigits 10 n).length ≤ 4 :=
    (Nat.length_toDigits_le_iff (by decide) (by decide)).mpr h
  simp only [fractionDigits, places, List.length_append, List.length_replicate]
  omega

theorem decimalValue_fractionDigits (n : Nat) : decimalValue (fractionDigits n) = n := by
  rw [fractionDigits, decimalValue_append, decimalValue_replicate_zero, decimalValue_toDigits,
    Nat.mul_zero, Nat.zero_add]

/-- The digits of the fixed text stand for the units of its last place. -/
theorem pointedValue_units (n : Nat) :
    pointedValue (Nat.toDigits 10 (n / 10 ^ 4)) (fractionDigits (n % 10 ^ 4))
      = (n : ℚ) / 10 ^ 4 := by
  rw [pointedValue, decimalValue_append, decimalValue_toDigits, decimalValue_fractionDigits,
    length_fractionDigits (Nat.mod_lt n (by decide)), Nat.div_add_mod]

theorem fixedChars_finite (neg : Bool) (m : Nat) (e : Int) :
    fixedChars (.finite neg m e)
      = signChars neg ++ (Nat.toDigits 10 (lastPlaceUnits m e / 10 ^ 4)
        ++ '.' :: fractionDigits (lastPlaceUnits m e % 10 ^ 4)) :=
  List.append_assoc _ _ _

theorem toList_brief_finite (neg : Bool) (m : Nat) (e : Int) :
    (brief (.finite neg m e)).toList
      = signChars neg ++ (Nat.toDigits 10 (lastPlaceUnits m e / 10 ^ 4)
        ++ '.' :: briefFraction (fractionDigits (lastPlaceUnits m e % 10 ^ 4))) := by
  rw [brief, String.toList_ofList, fixedChars_finite, ← List.append_assoc,
    trimPlaces_append _ fun _ => isDigit_of_mem_fractionDigits, List.append_assoc]

theorem signed_div (neg : Bool) (n : Nat) :
    (if neg then -1 else 1) * ((n : ℚ) / 10 ^ 4) = (signed neg n : ℚ) / 10 ^ 4 := by
  cases neg <;> simp [signed, neg_div]

theorem pointed?_fixedChars (neg : Bool) (m : Nat) (e : Int) :
    pointed? (fixedChars (.finite neg m e))
      = some (neg, (signed neg (lastPlaceUnits m e) : ℚ) / 10 ^ 4) := by
  have hlength : (fractionDigits (lastPlaceUnits m e % 10 ^ 4)).length = 4 :=
    length_fractionDigits (Nat.mod_lt _ (by decide))
  have hne : fractionDigits (lastPlaceUnits m e % 10 ^ 4) ≠ [] :=
    List.ne_nil_of_length_pos (by omega)
  rw [fixedChars_finite, pointed?_eq neg Nat.toDigits_ne_nil (fun _ => isDigit_of_mem_toDigits) hne
    fun _ => isDigit_of_mem_fractionDigits, pointedValue_units, signed_div]

theorem isBriefFraction_units (n : Nat) :
    IsBriefFraction (briefFraction (fractionDigits (n % 10 ^ 4))) :=
  isBriefFraction_briefFraction (length_fractionDigits (Nat.mod_lt n (by decide)))
    fun _ => isDigit_of_mem_fractionDigits

theorem pointed?_brief (neg : Bool) (m : Nat) (e : Int) :
    pointed? (brief (.finite neg m e)).toList
      = some (neg, (signed neg (lastPlaceUnits m e) : ℚ) / 10 ^ 4) := by
  have hbrief := isBriefFraction_units (lastPlaceUnits m e)
  rw [toList_brief_finite, pointed?_eq neg Nat.toDigits_ne_nil (fun _ => isDigit_of_mem_toDigits)
    (List.ne_nil_of_length_pos hbrief.pos) hbrief.digits, pointedValue_briefFraction,
    pointedValue_units, signed_div]

/-- A number of four places is within half a unit of what it was rounded from. -/
theorem abs_sub_le_of_isNearestEven {q : ℚ} {n : ℤ} (h : IsNearestEven (q * 10 ^ 4) n) :
    |(n : ℚ) / 10 ^ 4 - q| ≤ 1 / 20000 := by
  have hnear := abs_le.mp h.near
  rw [abs_le]
  constructor <;> linarith [hnear.1, hnear.2]

/-- The fixed text of a finite double is its exact value, rounded to four places, with its sign.
The short text has the same sign, the same digits before the point and the same value, so that it
is within half a unit of the last place.  It keeps one to four digits after the point, and ends in
a zero only if there is one.  It tells doubles apart just as the fixed text does. -/
theorem brief_denotes (neg : Bool) (m : Nat) (e : Int) :
    (∃ n : ℕ, IsNearestEven (exactValue neg m e * 10 ^ 4) (signed neg n)
      ∧ pointed? (fixedChars (.finite neg m e)) = some (neg, (signed neg n : ℚ) / 10 ^ 4)
      ∧ pointed? (brief (.finite neg m e)).toList = some (neg, (signed neg n : ℚ) / 10 ^ 4)
      ∧ |(signed neg n : ℚ) / 10 ^ 4 - exactValue neg m e| ≤ 1 / 20000)
    ∧ (∃ whole fixed fraction, whole ≠ [] ∧ (∀ c ∈ whole, c.isDigit = true)
      ∧ fixedChars (.finite neg m e) = signChars neg ++ (whole ++ '.' :: fixed)
      ∧ (∀ c ∈ fixed, c.isDigit = true) ∧ fixed.length = 4
      ∧ (brief (.finite neg m e)).toList = signChars neg ++ (whole ++ '.' :: fraction)
      ∧ IsBriefFraction fraction)
    ∧ ∀ neg' m' e', brief (.finite neg m e) = brief (.finite neg' m' e')
      ↔ fixedChars (.finite neg m e) = fixedChars (.finite neg' m' e') := by
  have hnearest := lastPlaceUnits_isNearestEven neg m e
  refine ⟨⟨lastPlaceUnits m e, hnearest, pointed?_fixedChars neg m e, pointed?_brief neg m e,
      abs_sub_le_of_isNearestEven hnearest⟩,
    ⟨_, _, _, Nat.toDigits_ne_nil, fun _ => isDigit_of_mem_toDigits, fixedChars_finite neg m e,
      fun _ => isDigit_of_mem_fractionDigits, length_fractionDigits (Nat.mod_lt _ (by decide)),
      toList_brief_finite neg m e, isBriefFraction_units _⟩,
    fun neg' m' e' => ⟨fun htext => ?_, fun htext => ?_⟩⟩
  · -- equal texts are read alike, and sign and units make up the fixed text
    have hread := pointed?_brief neg m e
    rw [htext, pointed?_brief, Option.some.injEq, Prod.mk.injEq] at hread
    obtain ⟨rfl, hvalue⟩ := hread
    have hunits : lastPlaceUnits m' e' = lastPlaceUnits m e := by
      rw [div_left_inj' (by norm_num), Int.cast_inj] at hvalue
      cases neg' <;> simpa [signed] using hvalue
    rw [fixedChars_finite, fixedChars_finite, hunits]
  · rw [brief, htext, brief]

/-- A thirty-second, `0.03125`, lies halfway between two numbers of four places. -/
example : brief (.finite false 1 (-5)) = "0.0312" := by decide +kernel

end Binary64

end Kismet
