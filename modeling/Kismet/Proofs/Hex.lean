import Kismet.Text.Hex
set_option autoImplicit false

/-!
# Hex: hexadecimal numbers are read back

Digits in upper case are read from the left, zeros in front do not count, and a minus sign
stands in front of the digits.  `readHex_hexDigits` says this of natural numbers, and
`readSigned_hexChars` of all integers.
-/

namespace Kismet.Text

/-! ## Digits -/

/-- The value of an upper-case hexadecimal digit. -/
def hexValue? (c : Char) : Option Nat :=
  if '0' ≤ c ∧ c ≤ '9' then some (c.toNat - 0x30)
  else if 'A' ≤ c ∧ c ≤ 'F' then some (c.toNat - 0x37)
  else none

/-- The character is an upper-case hexadecimal digit. -/
def isHexDigit (c : Char) : Bool :=
  (hexValue? c).isSome

/-- The number that digits stand for. -/
def readHex (cs : List Char) : Nat :=
  cs.foldl (fun n c => 16 * n + (hexValue? c).getD 0) 0

theorem hexValue?_upperDigit : ∀ d, d < 16 → hexValue? (upperDigit (Nat.digitChar d)) = some d := by
  decide

theorem readHex_append (cs : List Char) (c : Char) :
    readHex (cs ++ [c]) = 16 * readHex cs + (hexValue? c).getD 0 := by
  simp [readHex, List.foldl_append]

/-- The last digit, and those in front of it. -/
theorem hexDigits_eq (n : Nat) :
    hexDigits n
      = (if n < 16 then [] else hexDigits (n / 16)) ++ [upperDigit (Nat.digitChar (n % 16))] := by
  unfold hexDigits
  rw [Nat.toDigits_eq_if (by decide)]
  split
  · rename_i hlt
    simp [Nat.mod_eq_of_lt hlt]
  · simp

theorem readHex_hexDigits (n : Nat) : readHex (hexDigits n) = n := by
  induction n using Nat.strongRecOn with
  | ind n ih =>
    have hlast := hexValue?_upperDigit (n % 16) (Nat.mod_lt _ (by decide))
    rw [hexDigits_eq, readHex_append, hlast]
    split
    · rename_i hlt
      simpa [readHex] using Nat.mod_eq_of_lt hlt
    · rw [ih (n / 16) (by omega)]
      exact Nat.div_add_mod n 16

theorem isHexDigit_of_mem_hexDigits (n : Nat) : ∀ c ∈ hexDigits n, isHexDigit c = true := by
  induction n using Nat.strongRecOn with
  | ind n ih =>
    intro c hc
    have hlast := hexValue?_upperDigit (n % 16) (Nat.mod_lt _ (by decide))
    rw [hexDigits_eq, List.mem_append, List.mem_singleton] at hc
    rcases hc with hc | rfl
    · split at hc
      · simp at hc
      · exact ih (n / 16) (by omega) c hc
    · rw [isHexDigit, hlast]
      rfl

theorem readHex_zeroFill (width : Nat) (cs : List Char) :
    readHex (zeroFill width cs) = readHex cs := by
  have hzeros : ∀ count, (List.replicate count '0').foldl
      (fun n c => 16 * n + (hexValue? c).getD 0) 0 = 0 := by
    intro count
    induction count with
    | zero => rfl
    | succ count ih => simpa [List.replicate_succ, hexValue?] using ih
  rw [readHex, zeroFill, List.foldl_append, hzeros, readHex]

theorem isHexDigit_of_mem_zeroFill {width : Nat} {cs : List Char}
    (h : ∀ c ∈ cs, isHexDigit c = true) : ∀ c ∈ zeroFill width cs, isHexDigit c = true := by
  intro c hc
  rw [zeroFill, List.mem_append, List.mem_replicate] at hc
  rcases hc with ⟨-, rfl⟩ | hc
  · rfl
  · exact h c hc

theorem toList_hex (width n : Nat) : (hex width n).toList = zeroFill width (hexDigits n) := by
  have hnonneg : ¬((n : Int) < 0) := by omega
  simp [hex, hexChars, hnonneg]

/-! ## Signs -/

theorem isHexDigit_of_mem_hexChars {width : Nat} {n : Int} {c : Char} (hc : c ∈ hexChars width n)
    (hsign : c ≠ '-') : isHexDigit c = true := by
  unfold hexChars at hc
  split at hc
  · have hdigit : c ∈ zeroFill (width - 1) (hexDigits n.natAbs) :=
      (List.mem_cons.mp hc).resolve_left hsign
    exact isHexDigit_of_mem_zeroFill (isHexDigit_of_mem_hexDigits _) c hdigit
  · exact isHexDigit_of_mem_zeroFill (isHexDigit_of_mem_hexDigits _) c hc

/-- The number that digits stand for, with or without a minus sign in front. -/
def readSigned : List Char → Int
  | '-' :: cs => -(readHex cs)
  | cs => readHex cs

theorem readSigned_of_isHexDigit {cs : List Char} (h : ∀ c ∈ cs, isHexDigit c = true) :
    readSigned cs = readHex cs := by
  unfold readSigned
  split
  · have hsign := h '-' (List.mem_cons_self ..)
    exact absurd hsign (by decide)
  · rfl

/-- Every integer is read back. -/
theorem readSigned_hexChars (n : Int) : readSigned (hexChars 0 n) = n := by
  have hfill : ∀ cs, zeroFill 0 cs = cs := fun cs => by simp [zeroFill]
  unfold hexChars
  split
  · rename_i hneg
    rw [readSigned, hfill, readHex_hexDigits]
    omega
  · rename_i hnonneg
    rw [hfill, readSigned_of_isHexDigit (isHexDigit_of_mem_hexDigits _), readHex_hexDigits]
    omega

end Kismet.Text
