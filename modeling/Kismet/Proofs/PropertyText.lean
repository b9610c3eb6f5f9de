import Kismet.Proofs.Cutting
import Kismet.Symbol
set_option autoImplicit false

/-!
# PropertyText: a property and its text

A property is written as the names on the way to it with points between them, and a text is
read by cutting it at its points.  Cutting a text and joining the pieces gives the text back,
whatever it is: an empty text is one empty name, and points that lead, trail or follow each other
have empty names beside them.  Joining and cutting gives the names back if there are any and none
has a point in it (`PropertyPath.IsPlain`).  So texts and plain paths stand for each other,
which is `PropertyPath.decode_display`.
-/

namespace Kismet

namespace PropertyPath

/-- There are names on the path, and none of them has a point in it. -/
def IsPlain (p : PropertyPath) : Prop :=
  p.segments ≠ [] ∧ ∀ s ∈ p.segments, '.' ∉ s.toList

theorem display_ofText (s : String) : (ofText s).display = s :=
  Text.intercalate_cut '.' s

theorem isPlain_ofText (s : String) : (ofText s).IsPlain := by
  refine ⟨by simp [ofText, Text.cut, Text.cutAt_ne_nil], fun name hname => ?_⟩
  obtain ⟨piece, hpiece, rfl⟩ := List.mem_map.mp hname
  rw [String.toList_ofList]
  exact Text.not_mem_of_mem_cutAt hpiece

theorem IsPlain.ofText_display {p : PropertyPath} (h : p.IsPlain) : ofText p.display = p := by
  have hcut : Text.cut '.' p.display = p.segments := Text.cut_intercalate h.2 h.1
  rw [ofText, hcut]

/-- Every text is read as a plain path, whose text it is, and every plain path is read from its
text; so different plain paths have different texts. -/
theorem decode_display :
    (∀ s, ∃ p, decode (.text s) = .ok (some p) ∧ p.IsPlain ∧ p.display = s)
    ∧ (∀ p : PropertyPath, p.IsPlain → decode (.text p.display) = .ok (some p))
    ∧ ∀ p q : PropertyPath, p.IsPlain → q.IsPlain → p.display = q.display → p = q := by
  refine ⟨fun s => ⟨ofText s, rfl, isPlain_ofText s, display_ofText s⟩, fun p hp => ?_,
    fun p q hp hq htext => ?_⟩
  · rw [decode, hp.ofText_display]
  · rw [← hp.ofText_display, htext, hq.ofText_display]

/-- A path that begins and ends with an empty name. -/
theorem decode_display_sample :
    (⟨["", "Health", ""]⟩ : PropertyPath).IsPlain
    ∧ (⟨["", "Health", ""]⟩ : PropertyPath).display = ".Health."
    ∧ decode (.text ".Health.") = .ok (some ⟨["", "Health", ""]⟩) := by
  have hplain : (⟨["", "Health", ""]⟩ : PropertyPath).IsPlain := ⟨by simp, by simp⟩
  have htext : (⟨["", "Health", ""]⟩ : PropertyPath).display = ".Health." := by
    simp [display]
  refine ⟨hplain, htext, ?_⟩
  rw [← htext]
  exact decode_display.2.1 _ hplain

/-- Without names there is a text all the same, which is that of one empty name. -/
example : (⟨[]⟩ : PropertyPath).display = (⟨[""]⟩ : PropertyPath).display := rfl

end PropertyPath

end Kismet
