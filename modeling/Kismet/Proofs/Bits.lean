import Kismet.Flags
import Mathlib.Data.Int.Bitwise
set_option autoImplicit false

/-!
# Bits: the bits of integers

A negative integer has infinitely many bits.  `areSet_two_pow` and `testBit_clear` say what the
operations on flag words do to single bits, and `eq_of_testBit_eq` that an integer is its bits.
-/

namespace Kismet.Bits

theorem areSet_natCast (m bits : Nat) : areSet m bits = (m &&& bits == bits) := by
  simp [areSet]

theorem areSet_negSucc (m bits : Nat) : areSet (.negSucc m) bits = (m &&& bits == 0) := by
  have hnat : (-Int.negSucc m - 1).toNat = m := by omega
  rw [areSet, if_neg (by omega), hnat]

/-- A single bit is set if it is there. -/
theorem areSet_two_pow (n : Int) (i : Nat) : areSet n (2 ^ i) = n.testBit i := by
  have hpow : 2 ^ i ≠ 0 := Nat.pos_iff_ne_zero.mp (Nat.two_pow_pos i)
  cases n with
  | ofNat m =>
    have hm : Int.testBit (.ofNat m) i = m.testBit i := rfl
    rw [Int.ofNat_eq_natCast, areSet_natCast, Nat.and_two_pow, ← Int.ofNat_eq_natCast, hm]
    cases m.testBit i <;> simp [hpow.symm]
  | negSucc m =>
    have hm : Int.testBit (.negSucc m) i = !m.testBit i := rfl
    rw [areSet_negSucc, Nat.and_two_pow, hm]
    cases m.testBit i <;> simp

theorem clear_eq_ldiff (n : Int) (bits : Nat) : clear n bits = n.ldiff bits := by
  cases n with
  | ofNat m =>
    have hdiff : m ^^^ (m &&& bits) = m.ldiff bits := by
      apply Nat.eq_of_testBit_eq
      intro i
      rw [Nat.testBit_xor, Nat.testBit_and, Nat.testBit_ldiff]
      cases m.testBit i <;> cases bits.testBit i <;> rfl
    have hldiff : Int.ldiff (.ofNat m) bits = (m.ldiff bits : Nat) := rfl
    rw [hldiff, ← hdiff]
    simp [clear]
  | negSucc m =>
    have hnat : (-Int.negSucc m - 1).toNat = m := by omega
    have hldiff : Int.ldiff (.negSucc m) bits = .negSucc (m ||| bits) := rfl
    rw [clear, if_neg (by omega), hnat, hldiff]
    omega

/-- Clearing takes away the cleared bits and no others. -/
theorem testBit_clear (n : Int) (bits i : Nat) :
    (clear n bits).testBit i = (n.testBit i && !bits.testBit i) := by
  rw [clear_eq_ldiff, Int.testBit_ldiff]
  rfl

/-- Far enough to the left, a number has no bits. -/
theorem exists_testBit_eq_false (a b : Nat) :
    ∃ i, a.testBit i = false ∧ b.testBit i = false := by
  have hlt : ∀ c, c ≤ a + b → c < 2 ^ (a + b) := fun c hc =>
    Nat.lt_of_le_of_lt hc Nat.lt_two_pow_self
  exact ⟨a + b, Nat.testBit_lt_two_pow (hlt a (by omega)),
    Nat.testBit_lt_two_pow (hlt b (by omega))⟩

/-- Integers with the same bits are equal. -/
theorem eq_of_testBit_eq {a b : Int} (h : ∀ i, a.testBit i = b.testBit i) : a = b := by
  cases a with
  | ofNat a =>
    cases b with
    | ofNat b => exact congrArg Int.ofNat (Nat.eq_of_testBit_eq h)
    | negSucc b =>
      obtain ⟨i, ha, hb⟩ := exists_testBit_eq_false a b
      have hi : a.testBit i = !b.testBit i := h i
      simp [ha, hb] at hi
  | negSucc a =>
    cases b with
    | ofNat b =>
      obtain ⟨i, ha, hb⟩ := exists_testBit_eq_false a b
      have hi : (!a.testBit i) = b.testBit i := h i
      simp [ha, hb] at hi
    | negSucc b =>
      have hbits : ∀ i, a.testBit i = b.testBit i := fun i => Bool.not_inj (h i)
      exact congrArg Int.negSucc (Nat.eq_of_testBit_eq hbits)

theorem testBit_zero (i : Nat) : Int.testBit 0 i = false :=
  Nat.zero_testBit i

theorem eq_zero_iff (n : Int) : n = 0 ↔ ∀ i, n.testBit i = false := by
  constructor
  · rintro rfl
    exact testBit_zero
  · intro h
    exact eq_of_testBit_eq fun i => (h i).trans (testBit_zero i).symm

end Kismet.Bits
