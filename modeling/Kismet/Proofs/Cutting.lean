import Kismet.Text.Search
set_option autoImplicit false

/-!
# Cutting: texts cut at a separator and joined again

A text is cut into pieces without the separator, of which there is one at least, and joining them
gives the text back.  Pieces of this kind are in turn given back by cutting the text that they are
joined to.
-/

namespace Kismet.Text

theorem cutAt_ne_nil (separator : Char) (cs : List Char) : cutAt separator cs ≠ [] := by
  fun_induction cutAt separator cs <;> simp

/-- What stands in front of the first separator belongs to the first piece. -/
theorem cutAt_append {separator : Char} {piece : List Char} (h : separator ∉ piece)
    (rest : List Char) :
    cutAt separator (piece ++ rest) = (cutAt separator rest).modifyHead (piece ++ ·) := by
  induction piece with
  | nil => cases hrest : cutAt separator rest <;> simp [hrest]
  | cons c piece ih =>
    rw [List.mem_cons, not_or] at h
    obtain ⟨first, pieces, hrest⟩ := List.exists_cons_of_ne_nil (cutAt_ne_nil separator rest)
    simp [cutAt, ih h.2, hrest, Ne.symm h.1]

theorem cutAt_eq_singleton {separator : Char} {cs : List Char} (h : separator ∉ cs) :
    cutAt separator cs = [cs] := by
  have hcut := cutAt_append h []
  rw [List.append_nil] at hcut
  simp [hcut, cutAt]

/-- Pieces without the separator are cut apart again. -/
theorem cut_intercalate {separator : Char} {pieces : List String}
    (h : ∀ p ∈ pieces, separator ∉ p.toList) (hne : pieces ≠ []) :
    cut separator ((String.singleton separator).intercalate pieces) = pieces := by
  induction pieces with
  | nil => exact absurd rfl hne
  | cons p rest ih =>
    rw [List.forall_mem_cons] at h
    cases rest with
    | nil => simp [cut, cutAt_eq_singleton h.1]
    | cons q rest =>
      have hrest := ih h.2 (by simp)
      rw [cut] at hrest ⊢
      rw [String.intercalate_cons_cons, String.append_assoc, String.toList_append, cutAt_append h.1,
        String.toList_append]
      simpa [cutAt] using hrest

/-- Joining undoes cutting. -/
theorem intercalate_cutAt (separator : Char) (cs : List Char) :
    [separator].intercalate (cutAt separator cs) = cs := by
  fun_induction cutAt separator cs with
  | case1 => simp
  | case2 rest ih =>
    -- a separator in front: an empty piece before the others, of which there is one at least
    obtain ⟨first, pieces, hrest⟩ := List.exists_cons_of_ne_nil (cutAt_ne_nil separator rest)
    rw [hrest] at ih ⊢
    rw [List.intercalate_cons_cons, ih]
    rfl
  | case3 c rest hc hnil => exact absurd hnil (cutAt_ne_nil separator rest)
  | case4 c rest hc piece pieces hrest ih =>
    rw [hrest] at ih
    cases pieces with
    | nil => simpa using ih
    | cons q pieces => simpa using ih

/-- No piece has the separator in it. -/
theorem not_mem_of_mem_cutAt {separator : Char} {cs piece : List Char}
    (h : piece ∈ cutAt separator cs) : separator ∉ piece := by
  fun_induction cutAt separator cs generalizing piece with
  | case1 => simp_all
  | case2 rest ih =>
    rcases List.mem_cons.mp h with rfl | h
    · exact List.not_mem_nil
    · exact ih h
  | case3 c rest hc hnil => exact absurd hnil (cutAt_ne_nil separator rest)
  | case4 c rest hc first pieces hrest ih =>
    rcases List.mem_cons.mp h with rfl | h
    · have hfirst : separator ∉ first := ih (by simp [hrest])
      simp [hfirst, Ne.symm hc]
    · exact ih (by simp [hrest, h])

/-- The pieces of a text, joined, are the text. -/
theorem intercalate_cut (separator : Char) (s : String) :
    (String.singleton separator).intercalate (cut separator s) = s := by
  rw [← String.toList_inj, String.toList_intercalate, cut, List.map_map]
  simpa using intercalate_cutAt separator s.toList

end Kismet.Text
