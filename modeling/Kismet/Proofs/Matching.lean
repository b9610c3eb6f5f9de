import Kismet.Catalog
import Mathlib.Data.List.Infix
import Mathlib.Data.List.TakeWhile
set_option autoImplicit false

/-!
# Matching: finding a piece of a path again

A path matches a text if the text in lower case occurs in the path in lower case.  The two are
lower-cased apart from each other, and the form of a sigma depends on what stands around it.  So a
piece of a path, lower-cased by itself, need not be what the piece becomes in the path.
`Text.CutsSigma` says where it is not: a word goes on behind the piece right after its last sigma,
or a word from in front of the piece ends with its first one.  `Catalog.select_piece` says that
this is the only thing that can hide a piece, and that it does hide it at its place.
-/

namespace Kismet

namespace Text

/-! ## Occurrences -/

theorem occurs_iff (needle hay : List Char) : occurs needle hay = true ↔ needle <:+: hay := by
  unfold occurs
  induction hay with
  | nil => simp [indexOf?]
  | cons c rest ih =>
    rw [indexOf?, List.infix_cons_iff, ← ih, ← List.isPrefixOf_iff_prefix]
    split
    · rename_i hfront
      simp [hfront]
    · rename_i hfront
      simp [hfront]

theorem infix_iff_drop {α : Type} (needle hay : List α) :
    needle <:+: hay ↔ ∃ k, needle <+: hay.drop k := by
  constructor
  · rintro ⟨front, back, rfl⟩
    exact ⟨front.length, by simp⟩
  · rintro ⟨k, hk⟩
    exact hk.isInfix.trans (List.drop_suffix k hay).isInfix

/-! ## The context of a sigma -/

/-- The letter whose lower-case form depends on its place in the word. -/
def capitalSigma : Char := Char.ofNat 0x3A3

/-- All characters ignore case. -/
def AllIgnorable (cs : List Char) : Prop :=
  ∀ c ∈ cs, caseIgnorable.has c = true

theorem startsCased_append_of_allIgnorable {cs : List Char} (h : AllIgnorable cs)
    (rest : List Char) : startsCased (cs ++ rest) = startsCased rest := by
  rw [startsCased, startsCased, List.dropWhile_append_of_pos h]

theorem startsCased_of_allIgnorable {cs : List Char} (h : AllIgnorable cs) :
    startsCased cs = false := by
  have hempty := startsCased_append_of_allIgnorable h []
  rwa [List.append_nil] at hempty

theorem startsCased_append_of_not_allIgnorable {cs : List Char} (h : ¬AllIgnorable cs)
    (rest : List Char) : startsCased (cs ++ rest) = startsCased cs := by
  have hkept : cs.dropWhile caseIgnorable.has ≠ [] := by
    rwa [Ne, List.dropWhile_eq_nil_iff]
  obtain ⟨c, kept, hc⟩ := List.exists_cons_of_ne_nil hkept
  simp [startsCased, List.dropWhile_append, hc]

/-- A sigma between two texts ends a word. -/
def endsWord (before after : List Char) : Bool :=
  startsCased before && !startsCased after

/-! ## Lower case within a text -/

/-- The lower-case form of a piece between the reversed text `before` and the text `after`. -/
def lowerWithin (before : List Char) : List Char → List Char → List Char
  | [], _ => []
  | c :: rest, after =>
    lowerBetween before c (rest ++ after) ++ lowerWithin (c :: before) rest after

theorem lowerAfter_append (cs rest : List Char) : ∀ before,
    lowerAfter before (cs ++ rest)
      = lowerWithin before cs rest ++ lowerAfter (cs.reverse ++ before) rest := by
  induction cs with
  | nil => intro before; rfl
  | cons c cs ih =>
    intro before
    rw [List.cons_append, lowerAfter, lowerWithin, ih (c :: before)]
    simp

theorem lowerAfter_eq_lowerWithin (before cs : List Char) :
    lowerAfter before cs = lowerWithin before cs [] := by
  have happend := lowerAfter_append cs [] before
  rwa [List.append_nil, lowerAfter, List.append_nil] at happend

theorem lowerBetween_capitalSigma (before after : List Char) :
    lowerBetween before capitalSigma after
      = [Char.ofNat (if endsWord before after then 0x3C2 else 0x3C3)] := by
  rw [lowerBetween, if_pos (by decide)]
  rfl

theorem lowerBetween_of_ne {c : Char} (h : c ≠ capitalSigma) (before after : List Char) :
    lowerBetween before c after = lowerChar c := by
  have hcode : c.toNat ≠ 0x3A3 := fun hcode => h (by rw [capitalSigma, ← hcode, Char.ofNat_toNat])
  rw [lowerBetween, if_neg hcode]

theorem length_lowerBetween (before before' after after' : List Char) (c : Char) :
    (lowerBetween before c after).length = (lowerBetween before' c after').length := by
  by_cases hc : c = capitalSigma
  · rw [hc, lowerBetween_capitalSigma, lowerBetween_capitalSigma]
    rfl
  · rw [lowerBetween_of_ne hc, lowerBetween_of_ne hc]

/-- The length of the lower-case form does not depend on the context. -/
theorem length_lowerWithin (cs after after' : List Char) : ∀ before before',
    (lowerWithin before cs after).length = (lowerWithin before' cs after').length := by
  induction cs with
  | nil => intro before before'; rfl
  | cons c rest ih =>
    intro before before'
    rw [lowerWithin, lowerWithin, List.length_append, List.length_append, ih,
      length_lowerBetween before before' _ (rest ++ after')]

theorem lowerBetween_eq_iff (before before' after after' : List Char) (c : Char) :
    lowerBetween before c after = lowerBetween before' c after'
      ↔ (c = capitalSigma → endsWord before after = endsWord before' after') := by
  by_cases hc : c = capitalSigma
  · rw [hc, lowerBetween_capitalSigma, lowerBetween_capitalSigma]
    cases endsWord before after <;> cases endsWord before' after' <;> simp
  · simp [lowerBetween_of_ne hc, hc]

/-- A piece has the same lower-case form in two contexts just when each sigma in it ends a word in
both or in none. -/
theorem lowerWithin_eq_iff (cs after after' : List Char) : ∀ before before',
    lowerWithin before cs after = lowerWithin before' cs after'
      ↔ ∀ x y, cs = x ++ capitalSigma :: y →
        endsWord (x.reverse ++ before) (y ++ after)
          = endsWord (x.reverse ++ before') (y ++ after') := by
  induction cs with
  | nil => intro before before'; simp [lowerWithin]
  | cons c rest ih =>
    intro before before'
    rw [lowerWithin, lowerWithin]
    constructor
    · intro heq x y hsplit
      obtain ⟨hfirst, hrest⟩ := List.append_inj heq (length_lowerBetween _ _ _ _ c)
      cases x with
      | nil =>
        obtain ⟨rfl, rfl⟩ := List.cons.inj hsplit
        simpa using (lowerBetween_eq_iff _ _ _ _ _).mp hfirst rfl
      | cons d x =>
        obtain ⟨rfl, htail⟩ := List.cons.inj hsplit
        simpa using (ih _ _).mp hrest x y htail
    · intro hends
      have hfirst : lowerBetween before c (rest ++ after)
          = lowerBetween before' c (rest ++ after') :=
        (lowerBetween_eq_iff _ _ _ _ c).mpr fun hc => by simpa using hends [] rest (by rw [hc]; rfl)
      have hrest : lowerWithin (c :: before) rest after = lowerWithin (c :: before') rest after' :=
        (ih _ _).mpr fun x y hsplit => by simpa using hends (c :: x) y (by rw [hsplit]; rfl)
      rw [hfirst, hrest]

/-! ## Pieces -/

/-- A sigma of the piece `m` ends a word in the piece but not in the text `a ++ m ++ b`, since the
word goes on in `b`, or in the text but not in the piece, since the word lies in `a`.  Between
the sigma and that end of the piece stand only characters that ignore case. -/
def CutsSigma (a m b : List Char) : Prop :=
  ∃ x y, m = x ++ capitalSigma :: y
    ∧ (startsCased x.reverse = true ∧ AllIgnorable y ∧ startsCased b = true
      ∨ AllIgnorable x ∧ startsCased a.reverse = true ∧ startsCased (y ++ b) = false)

/-- One sigma of a piece, in the piece and in the text around it. -/
theorem endsWord_ne_iff (a b x y : List Char) :
    endsWord (x.reverse ++ a.reverse) (y ++ b) ≠ endsWord x.reverse y
      ↔ startsCased x.reverse = true ∧ AllIgnorable y ∧ startsCased b = true
        ∨ AllIgnorable x ∧ startsCased a.reverse = true ∧ startsCased (y ++ b) = false := by
  have hreverse : AllIgnorable x.reverse ↔ AllIgnorable x := by simp [AllIgnorable]
  unfold endsWord
  by_cases hx : AllIgnorable x
  · -- no letter stands before the sigma in the piece
    have hbefore := startsCased_of_allIgnorable (hreverse.mpr hx)
    rw [startsCased_append_of_allIgnorable (hreverse.mpr hx), hbefore]
    simp [hx]
  · rw [startsCased_append_of_not_allIgnorable (mt hreverse.mp hx)]
    by_cases hy : AllIgnorable y
    · -- no letter stands behind the sigma in the piece
      rw [startsCased_append_of_allIgnorable hy, startsCased_of_allIgnorable hy]
      simp [hx, hy]
    · rw [startsCased_append_of_not_allIgnorable hy]
      simp [hx, hy]

/-- A piece becomes in the text what it becomes by itself, unless a sigma is cut off. -/
theorem lowerWithin_eq_lowerAfter_iff (a m b : List Char) :
    lowerWithin a.reverse m b = lowerAfter [] m ↔ ¬CutsSigma a m b := by
  rw [lowerAfter_eq_lowerWithin, lowerWithin_eq_iff]
  simp only [List.append_nil]
  constructor
  · rintro hends ⟨x, y, hsplit, hcut⟩
    exact (endsWord_ne_iff a b x y).mpr hcut (hends x y hsplit)
  · intro hcut x y hsplit
    by_contra hne
    exact hcut ⟨x, y, hsplit, (endsWord_ne_iff a b x y).mp hne⟩

/-- The lower-case form of a text with a piece in it. -/
theorem toList_lower_append (a m b : String) :
    (lower (a ++ m ++ b)).toList
      = lowerWithin [] a.toList (m.toList ++ b.toList)
        ++ (lowerWithin a.toList.reverse m.toList b.toList
          ++ lowerAfter (m.toList.reverse ++ a.toList.reverse) b.toList) := by
  rw [lower, String.toList_ofList, String.toList_append, String.toList_append, List.append_assoc,
    lowerAfter_append, lowerAfter_append, List.append_nil]

theorem length_lower (a : String) (after : List Char) :
    (lower a).length = (lowerWithin [] a.toList after).length := by
  rw [lower, String.length_ofList, lowerAfter_eq_lowerWithin]
  exact length_lowerWithin _ _ _ _ _

/-- The lower-case form of a piece stands at its place in the lower-case form of the text just when
no sigma is cut off. -/
theorem lower_prefix_drop_iff (a m b : String) :
    (lower m).toList <+: (lower (a ++ m ++ b)).toList.drop (lower a).length
      ↔ ¬CutsSigma a.toList m.toList b.toList := by
  rw [toList_lower_append, length_lower a (m.toList ++ b.toList), List.drop_left,
    ← lowerWithin_eq_lowerAfter_iff, lower, String.toList_ofList]
  constructor
  · rintro ⟨rest, hrest⟩
    refine (List.append_inj_left hrest ?_).symm
    rw [lowerAfter_eq_lowerWithin]
    exact length_lowerWithin _ _ _ _ _
  · intro heq
    rw [heq]
    exact List.prefix_append _ _

end Text

/-! ## Selection -/

namespace Catalog

open Text

theorem mem_select_iff (needle path : String) :
    path ∈ select needle [path] ↔ (lower needle).toList <:+: (lower path).toList := by
  rw [← occurs_iff, select, List.mem_filter, isMatch]
  simp

/-- A path is found by a text that stands in it in lower case.  A piece of the path stands there at
its own place if and only if no sigma of it is cut off, and then the path is found.  Only a piece
with a capital sigma can be missed, and only if one of its ends lies within a word. -/
theorem select_piece (a m b : String) :
    (a ++ m ++ b ∈ select m [a ++ m ++ b]
      ↔ ∃ k, (lower m).toList <+: (lower (a ++ m ++ b)).toList.drop k)
    ∧ ((lower m).toList <+: (lower (a ++ m ++ b)).toList.drop (lower a).length
      ↔ ¬CutsSigma a.toList m.toList b.toList)
    ∧ (¬CutsSigma a.toList m.toList b.toList → a ++ m ++ b ∈ select m [a ++ m ++ b])
    ∧ (a ++ m ++ b ∉ select m [a ++ m ++ b] → capitalSigma ∈ m.toList
      ∧ (startsCased a.toList.reverse = true ∨ startsCased b.toList = true)) := by
  have hplace := lower_prefix_drop_iff a m b
  have hsome : a ++ m ++ b ∈ select m [a ++ m ++ b]
      ↔ ∃ k, (lower m).toList <+: (lower (a ++ m ++ b)).toList.drop k := by
    rw [mem_select_iff, infix_iff_drop]
  have hfound (hcut : ¬CutsSigma a.toList m.toList b.toList) :
      a ++ m ++ b ∈ select m [a ++ m ++ b] := hsome.mpr ⟨_, hplace.mpr hcut⟩
  refine ⟨hsome, hplace, hfound, fun hmissed => ?_⟩
  obtain ⟨x, y, hsplit, hcut⟩ := not_not.mp (mt hfound hmissed)
  refine ⟨by simp [hsplit], ?_⟩
  rcases hcut with ⟨-, -, hb⟩ | ⟨-, ha, -⟩
  · exact .inr hb
  · exact .inl ha

/-- Whole names of directories are found.  The name of an asset is not the whole word, since the
suffix belongs to it. -/
theorem select_piece_names :
    (¬CutsSigma "Game/".toList "ΣΤΟΑ/ΟΔΟΣ".toList "/Map.uasset".toList
      ∧ "Game/" ++ "ΣΤΟΑ/ΟΔΟΣ" ++ "/Map.uasset"
        ∈ select "ΣΤΟΑ/ΟΔΟΣ" ["Game/" ++ "ΣΤΟΑ/ΟΔΟΣ" ++ "/Map.uasset"])
    ∧ "Game/" ++ "ΟΔΟΣ" ++ ".uasset" ∉ select "ΟΔΟΣ" ["Game/" ++ "ΟΔΟΣ" ++ ".uasset"]
    ∧ capitalSigma ∈ "ΟΔΟΣ".toList
    ∧ (startsCased "Game/".toList.reverse = true ∨ startsCased ".uasset".toList = true) := by
  have hleft : startsCased "Game/".toList.reverse = false := by decide +kernel
  have hright : startsCased "/Map.uasset".toList = false := by decide +kernel
  have hcut : ¬CutsSigma "Game/".toList "ΣΤΟΑ/ΟΔΟΣ".toList "/Map.uasset".toList := by
    rintro ⟨x, y, -, ⟨-, -, hb⟩ | ⟨-, ha, -⟩⟩
    · exact Bool.false_ne_true (hright.symm.trans hb)
    · exact Bool.false_ne_true (hleft.symm.trans ha)
  have hmissed : "Game/" ++ "ΟΔΟΣ" ++ ".uasset"
      ∉ select "ΟΔΟΣ" ["Game/" ++ "ΟΔΟΣ" ++ ".uasset"] := by
    decide +kernel
  exact ⟨⟨hcut, (select_piece "Game/" "ΣΤΟΑ/ΟΔΟΣ" "/Map.uasset").2.2.1 hcut⟩, hmissed,
    (select_piece "Game/" "ΟΔΟΣ" ".uasset").2.2.2 hmissed⟩

/-- The name of an asset that ends in a sigma does not find the asset: in its path the letters of
the suffix follow behind a point, which ignores case. -/
theorem select_misses_name :
    "Game/ΟΔΟΣ.uasset" = "Game/" ++ "ΟΔΟΣ" ++ ".uasset"
    ∧ "Game/ΟΔΟΣ.uasset" ∉ select "ΟΔΟΣ" ["Game/ΟΔΟΣ.uasset"] := by
  decide +kernel

end Catalog

end Kismet
