import Kismet.Document.Basic
set_option autoImplicit false

/-!
# Lookup: the fields of an object by name

What is found under a name is the first field of that name.  The lemmas say how lookups
see an object that is put together or changed, and that what is found is less deeply nested
than the object.
-/

namespace Kismet

namespace Fields

@[simp] theorem get?_nil (key : String) : get? [] key = none := rfl

theorem get?_cons (name : String) (d : Document) (rest : Fields) (key : String) :
    get? ((name, d) :: rest) key = if name = key then some d else get? rest key := by
  by_cases h : name = key <;> simp [get?, h]

theorem get?_append (a b : Fields) (key : String) :
    get? (a ++ b) key = (get? a key).or (get? b key) := by
  rw [get?, List.find?_append, Option.map_or]
  rfl

/-- Nothing is found under a name that no field has. -/
theorem get?_eq_none {fields : Fields} {key : String} (h : ¬has fields key = true) :
    get? fields key = none := by
  rw [get?, Option.map_eq_none_iff, List.find?_eq_none]
  intro f hf hkey
  exact h (List.any_eq_true.mpr ⟨f, hf, hkey⟩)

/-- Where names are distinct, every field is found. -/
theorem get?_of_mem {fields : Fields} {key : String} {d : Document} (hkeys : (keys fields).Nodup)
    (h : (key, d) ∈ fields) : get? fields key = some d := by
  induction fields with
  | nil => simp at h
  | cons f rest ih =>
    obtain ⟨name, d'⟩ := f
    obtain ⟨hname, hrest⟩ := List.nodup_cons.mp hkeys
    rw [get?_cons]
    rcases List.mem_cons.mp h with hhead | htail
    · obtain ⟨rfl, rfl⟩ := Prod.mk.inj hhead
      exact if_pos rfl
    · have hne : name ≠ key := fun heq => hname (List.mem_map.mpr ⟨_, htail, heq.symm⟩)
      rw [if_neg hne]
      exact ih hrest htail

/-- The object without the fields of a name. -/
def without (fields : Fields) (key : String) : Fields :=
  fields.filter fun f => f.1 != key

theorem get?_without (fields : Fields) (key other : String) :
    get? (without fields key) other = if other = key then none else get? fields other := by
  induction fields with
  | nil => simp [without]
  | cons f rest ih =>
    obtain ⟨name, d⟩ := f
    have hcons : without ((name, d) :: rest) key
        = if name = key then without rest key else (name, d) :: without rest key := by
      by_cases hname : name = key <;> simp [without, hname]
    rw [hcons, get?_cons]
    by_cases hname : name = key
    · -- The field is dropped; it would have been found under its own name only.
      subst hname
      rw [if_pos rfl, ih]
      split
      · rfl
      · rename_i hother
        rw [if_neg (Ne.symm hother)]
    · rw [if_neg hname, get?_cons, ih]
      by_cases hother : name = other
      · subst hother
        rw [if_pos rfl, if_neg hname, if_pos rfl]
      · rw [if_neg hother, if_neg hother]

/-- A field that is replaced wherever it stands is found with its new value. -/
theorem get?_map_replace (fields : Fields) (key : String) (value : Document) (other : String) :
    get? (fields.map fun f => if f.1 == key then (key, value) else f) other
      = if other = key then (get? fields key).map fun _ => value else get? fields other := by
  induction fields with
  | nil => simp
  | cons f rest ih =>
    obtain ⟨name, d⟩ := f
    by_cases hname : name = key <;> by_cases hother : other = key <;>
      grind [get?_cons]

theorem get?_set_self (fields : Fields) (key : String) (value : Document) :
    get? (set fields key value) key = some value := by
  unfold set
  split
  · rename_i hhas
    obtain ⟨f, hf, hkey⟩ := List.any_eq_true.mp hhas
    have hsome : (get? fields key).isSome = true := by
      rw [get?, Option.isSome_map, List.find?_isSome]
      exact ⟨f, hf, hkey⟩
    obtain ⟨d, hd⟩ := Option.isSome_iff_exists.mp hsome
    rw [get?_map_replace, if_pos rfl, hd]
    rfl
  · rename_i hhas
    rw [get?_append, get?_eq_none hhas, get?_cons, if_pos rfl]
    rfl

theorem get?_set_of_ne (fields : Fields) {key other : String} (value : Document)
    (h : other ≠ key) : get? (set fields key value) other = get? fields other := by
  unfold set
  split
  · rw [get?_map_replace, if_neg h]
  · rw [get?_append, get?_cons, if_neg h.symm, get?_nil, Option.or_none]

theorem getOrNull_set_of_ne (fields : Fields) {key other : String} (value : Document)
    (h : other ≠ key) : getOrNull (set fields key value) other = getOrNull fields other := by
  rw [getOrNull, getOrNull, get?_set_of_ne fields value h]

end Fields

namespace Document

theorem depth_le_of_get? {fields : Fields} {key : String} {d : Document}
    (h : Fields.get? fields key = some d) : d.depth ≤ fieldsDepth fields := by
  induction fields with
  | nil => simp at h
  | cons f rest ih =>
    obtain ⟨name, d'⟩ := f
    rw [Fields.get?_cons] at h
    rw [fieldsDepth]
    split at h
    · obtain rfl := Option.some.inj h
      exact Nat.le_max_left ..
    · exact Nat.le_trans (ih h) (Nat.le_max_right ..)

theorem depth_le_of_mem {items : List Document} {d : Document} (h : d ∈ items) :
    d.depth ≤ itemsDepth items := by
  induction h with
  | head rest => exact Nat.le_max_left ..
  | tail first _ ih => exact Nat.le_trans ih (Nat.le_max_right ..)

end Document

end Kismet
