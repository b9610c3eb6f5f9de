import Kismet.Document.Parser
import Kismet.Proofs.Cause
set_option autoImplicit false

/-!
# Parsing: why a text is no document

A reader goes from the front of the characters towards their end.  What it leaves is the end
of what it was given, or it fails, and then because the characters are not those of a
document, a number has too many digits, a string has half of a surrogate pair in it, or too
many lists and objects are open at once (`value_proceeds`).  Half of a pair has to be written
as an escape, and there have to be as many opening brackets among the characters, so without a
limit they are never too many (`document_refuses`).
-/

namespace Kismet.Document.Parser

/-- The character opens a list or an object. -/
def isOpening (c : Char) : Bool :=
  c == '[' || c == '\x7b'

/-- The number of characters that open a list or an object. -/
def openings (cs : List Char) : Nat :=
  cs.countP isOpening

theorem openings_le_of_suffix {cs cs' : List Char} (h : cs' <:+ cs) :
    openings cs' ≤ openings cs :=
  h.sublist.countP_le

/-- The escape of half of a surrogate pair stands among the characters. -/
def HasHalf (cs : List Char) : Prop :=
  ∃ a b c d n, ['\\', 'u', a, b, c, d] <:+: cs ∧ unit? a b c d = some n
    ∧ (isHigh n || isLow n) = true

theorem HasHalf.of_suffix {cs cs' : List Char} (h : HasHalf cs') (hsuffix : cs' <:+ cs) :
    HasHalf cs := by
  obtain ⟨a, b, c, d, n, hescape, hn⟩ := h
  exact ⟨a, b, c, d, n, hescape.trans hsuffix.isInfix, hn⟩

/-- The fault says that a text is not a document or cannot be read as one; it can be that a
string is no text only if `halved` holds, and that it is nested too deeply only if `deep` does. -/
def Refuses (halved deep : Prop) : Fault → Prop
  | .notJson | .badValue => True
  | .unpaired => halved
  | .tooNested => deep
  | _ => False

theorem Refuses.mono {halved halved' deep deep' : Prop} {f : Fault} (h : Refuses halved deep f)
    (hhalved : halved → halved') (hdeep : deep → deep') : Refuses halved' deep' f := by
  unfold Refuses at h ⊢
  split at h
  · trivial
  · trivial
  · exact hhalved h
  · exact hdeep h
  · exact h.elim

/-- The reader leaves the end of the characters, or it fails; a string is no text only if half of
a pair is written in it, and too deeply nested the characters are only if they open more than
`room` lists and objects. -/
def Proceeds {α : Type} (room : Nat) (cs : List Char) : Result α → Prop
  | .ok (_, rest) => rest <:+ cs
  | .error f => Refuses (HasHalf cs) (room < openings cs) f

theorem Proceeds.of_suffix {α : Type} {room room' : Nat} {cs cs' : List Char} {r : Result α}
    (h : Proceeds room cs' r) (hsuffix : cs' <:+ cs)
    (hroom : room < openings cs' → room' < openings cs) : Proceeds room' cs r := by
  cases r with
  | ok x => exact List.IsSuffix.trans h hsuffix
  | error f => exact Refuses.mono h (fun hhalf => hhalf.of_suffix hsuffix) hroom

/-- A reader may start further on. -/
theorem Proceeds.later {α : Type} {room : Nat} {cs cs' : List Char} {r : Result α}
    (h : Proceeds room cs' r) (hsuffix : cs' <:+ cs) : Proceeds room cs r :=
  h.of_suffix hsuffix fun hroom => Nat.lt_of_lt_of_le hroom (openings_le_of_suffix hsuffix)

/-! ## Scalars -/

theorem skipGap_suffix (cs : List Char) : skipGap cs <:+ cs :=
  List.dropWhile_suffix _

theorem single_refuses {a b c d : Char} {rest : List Char} {n : Nat} {f : Fault}
    (hn : unit? a b c d = some n) (h : single n = .error f) (deep : Prop) :
    Refuses (HasHalf ('\\' :: 'u' :: a :: b :: c :: d :: rest)) deep f := by
  unfold single at h
  split at h
  · rename_i hhalf
    rw [← Except.error.inj h]
    exact ⟨a, b, c, d, n, ⟨[], rest, rfl⟩, hn, hhalf⟩
  · simp at h

theorem suffix_of_drop {n : Nat} {cs rest : List Char} (h : cs.drop n = rest) : rest <:+ cs :=
  h ▸ List.drop_suffix n cs

theorem stringTail_proceeds (room : Nat) (acc cs : List Char) :
    Proceeds room cs (stringTail acc cs) := by
  fun_induction stringTail acc cs with
  | case1 => trivial
  | case2 => exact List.suffix_cons _ _
  | case3 _ _ _ _ _ _ _ _ _ _ _ _ _ _ _ ih => exact ih.later (suffix_of_drop (n := 12) rfl)
  | case4 _ _ _ _ _ _ _ _ _ _ _ _ _ hn _ _ hsingle => exact single_refuses hn hsingle _
  | case5 _ _ _ _ _ _ _ _ _ _ _ _ _ _ _ _ _ ih => exact ih.later (suffix_of_drop (n := 6) rfl)
  | case6 => trivial
  | case7 _ _ _ _ _ _ _ _ hn _ hsingle => exact single_refuses hn hsingle _
  | case8 _ _ _ _ _ _ _ _ _ _ _ ih => exact ih.later (suffix_of_drop (n := 6) rfl)
  | case9 => trivial
  | case10 _ _ _ _ _ _ _ ih => exact ih.later (suffix_of_drop (n := 2) rfl)
  | case11 => trivial
  | case12 => trivial
  | case13 _ _ _ _ _ _ _ _ ih => exact ih.later (List.suffix_cons _ _)

theorem fraction_suffix (cs : List Char) : (fraction cs).2 <:+ cs := by
  unfold fraction
  split
  · dsimp only
    split
    · exact List.suffix_refl _
    · exact (List.dropWhile_suffix _).trans (List.suffix_cons _ _)
  · exact List.suffix_refl _

theorem splitSign_suffix (cs : List Char) : (Text.Numeral.splitSign cs).2 <:+ cs := by
  unfold Text.Numeral.splitSign
  split
  · exact List.suffix_cons _ _
  · exact List.suffix_cons _ _
  · exact List.suffix_refl _

theorem exponent_suffix (cs : List Char) : (exponent cs).2 <:+ cs := by
  unfold exponent
  split
  · split
    · dsimp only
      split
      · exact List.suffix_refl _
      · exact (List.dropWhile_suffix _).trans
          ((splitSign_suffix _).trans (List.suffix_cons _ _))
    · exact List.suffix_refl _
  · exact List.suffix_refl _

theorem number_proceeds (room : Nat) (neg : Bool) (cs : List Char) :
    Proceeds room cs (number neg cs) := by
  have hrest : ∀ n, (exponent (fraction (cs.drop n)).2).2 <:+ cs := fun n =>
    (exponent_suffix _).trans ((fraction_suffix _).trans (List.drop_suffix n cs))
  unfold number
  dsimp only
  split
  · trivial
  · split
    · split
      · trivial
      · exact hrest _
    · exact hrest _

theorem plain_proceeds (room : Nat) (cs : List Char) : Proceeds room cs (plain cs) := by
  unfold plain
  split
  · rename_i found hfound
    obtain ⟨w, -, hw⟩ := List.exists_of_findSome?_eq_some hfound
    dsimp only at hw
    split at hw
    · obtain rfl := Option.some.inj hw
      exact List.drop_suffix _ _
    · simp at hw
  · split
    · exact (number_proceeds room true _).later (List.suffix_cons _ _)
    · exact number_proceeds room false cs

/-! ## Documents -/

theorem openings_cons_of_isOpening {c : Char} (h : isOpening c = true) (cs : List Char) :
    openings (c :: cs) = openings cs + 1 := by
  simp [openings, h]

/-- What follows an opening bracket has room for one list or object less. -/
theorem Proceeds.opened {α : Type} {room : Nat} {c : Char} {cs : List Char} {r : Result α}
    (h : Proceeds room (skipGap cs) r) (hc : isOpening c = true) :
    Proceeds (room + 1) (c :: cs) r := by
  have hgap := skipGap_suffix cs
  refine h.of_suffix (hgap.trans (List.suffix_cons _ _)) fun hroom => ?_
  have hle := openings_le_of_suffix hgap
  rw [openings_cons_of_isOpening hc]
  omega

/-- The room for brackets is used up at one of them. -/
theorem refuses_opening {c : Char} (h : isOpening c = true) (cs : List Char) :
    Refuses (HasHalf (c :: cs)) (0 < openings (c :: cs)) .tooNested := by
  show 0 < openings (c :: cs)
  rw [openings_cons_of_isOpening h]
  omega

theorem suffix_of_skipGap {cs rest after : List Char} {c : Char} (h : skipGap rest = c :: after)
    (hrest : rest <:+ cs) : after <:+ cs :=
  (List.suffix_cons c after).trans ((h ▸ skipGap_suffix rest).trans hrest)

section Steps

variable {fuel : Nat}

theorem value_succ_proceeds (hitems : ∀ room acc cs, Proceeds room cs (items fuel room acc cs))
    (hmembers : ∀ room acc cs, Proceeds room cs (members fuel room acc cs)) (room : Nat)
    (cs : List Char) : Proceeds room cs (value (fuel + 1) room cs) := by
  unfold value
  split
  · rename_i rest
    have hstring := (stringTail_proceeds room [] rest).later (List.suffix_cons '"' rest)
    cases hread : stringTail [] rest with
    | error f => rwa [hread] at hstring
    | ok x => rwa [hread] at hstring
  · rename_i rest
    cases room with
    | zero => exact refuses_opening rfl rest
    | succ room =>
      dsimp only
      split
      · rename_i hclosed
        exact suffix_of_skipGap hclosed (List.suffix_cons _ _)
      · exact (hitems room [] _).opened rfl
  · rename_i rest
    cases room with
    | zero => exact refuses_opening rfl rest
    | succ room =>
      dsimp only
      split
      · rename_i hclosed
        exact suffix_of_skipGap hclosed (List.suffix_cons _ _)
      · exact (hmembers room [] _).opened rfl
  · exact plain_proceeds room cs

theorem items_succ_proceeds (hvalue : ∀ room cs, Proceeds room cs (value fuel room cs))
    (hitems : ∀ room acc cs, Proceeds room cs (items fuel room acc cs)) (room : Nat)
    (acc : List Document) (cs : List Char) :
    Proceeds room cs (items (fuel + 1) room acc cs) := by
  have hfirst := hvalue room cs
  unfold items
  cases hread : value fuel room cs with
  | error f => rwa [hread] at hfirst
  | ok x =>
    rw [hread] at hfirst
    dsimp only
    split
    · rename_i hclosed
      exact suffix_of_skipGap hclosed hfirst
    · rename_i after hcomma
      exact (hitems room _ _).later ((skipGap_suffix after).trans (suffix_of_skipGap hcomma hfirst))
    · trivial

theorem members_succ_proceeds (hvalue : ∀ room cs, Proceeds room cs (value fuel room cs))
    (hmembers : ∀ room acc cs, Proceeds room cs (members fuel room acc cs)) (room : Nat)
    (acc : Fields) (cs : List Char) : Proceeds room cs (members (fuel + 1) room acc cs) := by
  unfold members
  split
  · rename_i start
    have hkey := (stringTail_proceeds room [] start).later (List.suffix_cons '"' start)
    cases hread : stringTail [] start with
    | error f => rwa [hread] at hkey
    | ok x =>
      rw [hread] at hkey
      dsimp only
      split
      · rename_i after hcolon
        have hfirst := (hvalue room (skipGap after)).later
          ((skipGap_suffix after).trans (suffix_of_skipGap hcolon hkey))
        cases hvalue' : value fuel room (skipGap after) with
        | error f => rwa [hvalue'] at hfirst
        | ok y =>
          rw [hvalue'] at hfirst
          dsimp only
          split
          · rename_i hclosed
            exact suffix_of_skipGap hclosed hfirst
          · rename_i next hcomma
            exact (hmembers room _ _).later
              ((skipGap_suffix next).trans (suffix_of_skipGap hcomma hfirst))
          · trivial
      · trivial
  · trivial

end Steps

/-- One reading of a document or its parts, with as many steps as there is fuel. -/
theorem value_proceeds (fuel : Nat) :
    (∀ room cs, Proceeds room cs (value fuel room cs))
      ∧ (∀ room acc cs, Proceeds room cs (items fuel room acc cs))
      ∧ ∀ room acc cs, Proceeds room cs (members fuel room acc cs) := by
  induction fuel with
  | zero => exact ⟨fun _ _ => trivial, fun _ _ _ => trivial, fun _ _ _ => trivial⟩
  | succ fuel ih =>
    obtain ⟨hvalue, hitems, hmembers⟩ := ih
    exact ⟨value_succ_proceeds hitems hmembers, items_succ_proceeds hvalue hitems,
      members_succ_proceeds hvalue hmembers⟩

/-- A string of a document is no text only if half of a pair is written there, and a document is
nested too deeply only if there is a limit and it opens more lists and objects than that. -/
theorem document_refuses {s : String} {limits : Limits} {f : Fault}
    (h : document s limits = .error f) :
    Refuses (HasHalf s.toList) (∃ n, limits.brackets = some n ∧ n < openings s.toList) f := by
  have hread := ((value_proceeds (2 * s.toList.length + 2)).1
    (limits.brackets.getD s.toList.length) (skipGap s.toList)).later (skipGap_suffix _)
  unfold document at h
  dsimp only at h
  split at h
  · rename_i f' hf'
    obtain rfl := Except.error.inj h
    rw [hf'] at hread
    refine Refuses.mono hread id fun hroom => ?_
    cases hlimit : limits.brackets with
    | some n => exact ⟨n, rfl, by simpa [hlimit] using hroom⟩
    | none =>
      have hle : openings s.toList ≤ s.toList.length := List.countP_le_length
      simp only [hlimit, Option.getD_none] at hroom
      omega
  · split at h
    · simp at h
    · rw [← Except.error.inj h]
      trivial

end Kismet.Document.Parser
