import Kismet.Symbol
import Mathlib.Data.List.Forall2
set_option autoImplicit false

/-!
# Cause: which faults a computation can end in

Two kinds of facts are stated about a computation that may fail: what its steps
have come to if it has a result, and among which faults its fault is if it has
none.  Both are followed step by step, so each combinator has a lemma of either
kind, and each use of a single piece of data has one that names its faults.  A third kind
compares two computations, of which the first one may stop early because a document is
nested too deeply (`Approximates`).
-/

namespace Kismet

/-! ## Computations with a result -/

section Results

variable {α β : Type}

theorem bind_eq_ok_iff {x : Except Fault α} {f : α → Except Fault β} {b : β} :
    (x >>= f) = .ok b ↔ ∃ a, x = .ok a ∧ f a = .ok b := by
  cases x <;> simp [bind, Except.bind]

theorem map_eq_ok_iff {x : Except Fault α} {f : α → β} {b : β} :
    x.map f = .ok b ↔ ∃ a, x = .ok a ∧ f a = b := by
  cases x <;> simp [Except.map]

theorem map_eq_error_iff {x : Except Fault α} {f : α → β} {e : Fault} :
    x.map f = .error e ↔ x = .error e := by
  cases x <;> simp [Except.map]

theorem pure_eq_ok_iff {a b : α} : (pure a : Except Fault α) = .ok b ↔ a = b := by
  simp [pure, Except.pure]

/-- What a traversal has collected came from the items that it went through. -/
theorem mem_of_mapM_eq_ok {f : α → Except Fault β} {xs : List α} : ∀ {ys : List β},
    xs.mapM f = .ok ys → ∀ y ∈ ys, ∃ x ∈ xs, f x = .ok y := by
  induction xs with
  | nil =>
    intro ys h y hy
    rw [List.mapM_nil, pure_eq_ok_iff] at h
    simp [← h] at hy
  | cons x rest ih =>
    intro ys h y hy
    rw [List.mapM_cons, bind_eq_ok_iff] at h
    obtain ⟨b, hb, h⟩ := h
    obtain ⟨bs, hbs, h⟩ := bind_eq_ok_iff.mp h
    rw [pure_eq_ok_iff] at h
    subst h
    rcases List.mem_cons.mp hy with rfl | hy
    · exact ⟨x, List.mem_cons_self .., hb⟩
    · obtain ⟨x', hx', hfx'⟩ := ih hbs y hy
      exact ⟨x', List.mem_cons_of_mem _ hx', hfx'⟩

/-- A traversal comes to what its items come to. -/
theorem mapM_eq_ok {f : α → Except Fault β} {xs : List α} {ys : List β}
    (h : List.Forall₂ (fun y x => f x = .ok y) ys xs) : xs.mapM f = .ok ys := by
  induction h with
  | nil => rfl
  | cons hfirst _ ih =>
    rw [List.mapM_cons, hfirst, ih]
    rfl

/-- A traversal comes to the same if its items do. -/
theorem mapM_of_forall₂ {f : α → Except Fault β} {r : α → α → Prop} {xs xs' : List α}
    (h : List.Forall₂ r xs xs') {ys : List β} (hys : xs.mapM f = .ok ys)
    (hf : ∀ x x', r x x' → ∀ y ∈ ys, f x = .ok y → f x' = .ok y) : xs'.mapM f = .ok ys := by
  induction h generalizing ys with
  | nil => exact hys
  | cons hfirst _ ih =>
    simp only [List.mapM_cons, bind_eq_ok_iff, pure_eq_ok_iff] at hys ⊢
    obtain ⟨y, hy, rest, hrest, rfl⟩ := hys
    exact ⟨y, hf _ _ hfirst y (by simp) hy, rest,
      ih hrest fun x x' hx z hz => hf x x' hx z (List.mem_cons_of_mem _ hz), rfl⟩

end Results

/-! ## Computations without a result -/

/-- If the computation fails, then with a fault of the given kind. -/
def FailsOnly {α : Type} (p : Fault → Bool) (x : Except Fault α) : Prop :=
  ∀ f, x = .error f → p f = true

namespace FailsOnly

variable {α β : Type} {p q : Fault → Bool}

@[simp] theorem ok (a : α) : FailsOnly p (Except.ok a : Except Fault α) := by
  intro f h
  simp at h

@[simp] theorem pure (a : α) : FailsOnly p (Pure.pure a : Except Fault α) := ok a

@[simp] theorem error_iff {f : Fault} :
    FailsOnly p (Except.error f : Except Fault α) ↔ p f = true := by
  simp [FailsOnly]

theorem mono {x : Except Fault α} (hx : FailsOnly p x) (h : ∀ f, p f = true → q f = true) :
    FailsOnly q x :=
  fun f hf => h f (hx f hf)

@[simp] theorem map_iff {x : Except Fault α} (g : α → β) :
    FailsOnly p (x.map g) ↔ FailsOnly p x := by
  cases x <;> simp [Except.map]

@[simp] theorem functor_map_iff {x : Except Fault α} (g : α → β) :
    FailsOnly p (g <$> x) ↔ FailsOnly p x :=
  map_iff g

theorem mapError {x : Except Fault α} {g : Fault → Fault} (hx : FailsOnly p x)
    (h : ∀ f, p f = true → q (g f) = true) : FailsOnly q (x.mapError g) := by
  cases x with
  | error f => exact error_iff.mpr (h f (hx f rfl))
  | ok a => exact ok a

theorem bind {x : Except Fault α} {g : α → Except Fault β} (hx : FailsOnly p x)
    (hg : ∀ a, x = .ok a → FailsOnly p (g a)) : FailsOnly p (x >>= g) := by
  cases x with
  | error f => exact error_iff.mpr (error_iff.mp hx)
  | ok a => exact hg a rfl

theorem mapM {g : α → Except Fault β} {xs : List α} (h : ∀ x ∈ xs, FailsOnly p (g x)) :
    FailsOnly p (xs.mapM g) := by
  induction xs with
  | nil => exact ok _
  | cons x rest ih =>
    rw [List.mapM_cons]
    refine bind (h x (List.mem_cons_self ..)) fun b _ => ?_
    refine bind (ih fun y hy => h y (List.mem_cons_of_mem _ hy)) fun bs _ => ?_
    exact ok _

end FailsOnly

/-! ## Computations that may stop early -/

/-- The first computation comes to the same as the second one, or it stops because a document
is nested too deeply, which it does only if `deep` holds. -/
def Approximates {α : Type} (deep : Prop) (x y : Except Fault α) : Prop :=
  x = y ∨ deep ∧ x = .error .tooNested

namespace Approximates

variable {α β : Type} {deep deep' : Prop} {x y : Except Fault α}

theorem refl (x : Except Fault α) : Approximates deep x x := .inl rfl

theorem mono (h : Approximates deep x y) (hdeep : deep → deep') : Approximates deep' x y :=
  h.imp_right (And.imp_left hdeep)

/-- Without the need to stop early both computations come to the same. -/
theorem eq_of_not (h : Approximates deep x y) (hdeep : ¬deep) : x = y :=
  h.resolve_right fun hstop => hdeep hstop.1

theorem map (h : Approximates deep x y) (g : α → β) : Approximates deep (x.map g) (y.map g) := by
  rcases h with rfl | ⟨hdeep, rfl⟩
  · exact refl _
  · exact .inr ⟨hdeep, rfl⟩

theorem mapError (h : Approximates deep x y) {g : Fault → Fault} (hg : g .tooNested = .tooNested) :
    Approximates deep (x.mapError g) (y.mapError g) := by
  rcases h with rfl | ⟨hdeep, rfl⟩
  · exact refl _
  · exact .inr ⟨hdeep, congrArg _ hg⟩

theorem bind (h : Approximates deep x y) {f g : α → Except Fault β}
    (hfg : ∀ a, y = .ok a → Approximates deep (f a) (g a)) :
    Approximates deep (x >>= f) (y >>= g) := by
  rcases h with rfl | ⟨hdeep, rfl⟩
  · cases x with
    | error e => exact refl _
    | ok a => exact hfg a rfl
  · exact .inr ⟨hdeep, rfl⟩

theorem mapM {f g : α → Except Fault β} {xs : List α}
    (h : ∀ x ∈ xs, Approximates deep (f x) (g x)) : Approximates deep (xs.mapM f) (xs.mapM g) := by
  induction xs with
  | nil => exact refl _
  | cons x rest ih =>
    rw [List.forall_mem_cons] at h
    rw [List.mapM_cons, List.mapM_cons]
    exact h.1.bind fun _ _ => (ih h.2).bind fun _ _ => refl _

end Approximates

/-! ## Tests of results and faults -/

section Tests

variable {α β : Type}

/-- The result of the computation passes a test, or its fault passes another. -/
def passes (onFault : Fault → Bool) (onResult : α → Bool) : Except Fault α → Bool
  | .ok a => onResult a
  | .error f => onFault f

@[simp] theorem passes_ok (q : Fault → Bool) (r : α → Bool) (a : α) :
    passes q r (.ok a) = r a := rfl

@[simp] theorem passes_error (q : Fault → Bool) (r : α → Bool) (f : Fault) :
    passes q r (.error f) = q f := rfl

@[simp] theorem passes_map (q : Fault → Bool) (r : β → Bool) (x : Except Fault α) (g : α → β) :
    passes q r (x.map g) = passes q (fun a => r (g a)) x := by
  cases x <;> rfl

@[simp] theorem passes_true (x : Except Fault α) :
    passes (fun _ => true) (fun _ => true) x = true := by
  cases x <;> rfl

theorem passes_iff_failsOnly {q : Fault → Bool} {x : Except Fault α} :
    passes q (fun _ => true) x = true ↔ FailsOnly q x := by
  cases x <;> simp

end Tests

/-! ## Uses of data -/

/-- The fault is that a single piece of data could not be used. -/
def Fault.concernsUse : Fault → Bool
  | .wrongKind | .badValue | .noMember | .tooLarge => true
  | _ => false

theorem Binary64.ofInt_failsOnly (n : Int) : FailsOnly Fault.concernsUse (Binary64.ofInt n) := by
  unfold ofInt
  split <;> simp [Fault.concernsUse]

namespace Document

theorem toInt_failsOnly (d : Document) : FailsOnly Fault.concernsUse d.toInt := by
  unfold toInt
  repeat' split
  all_goals simp [Fault.concernsUse]

theorem toReal_failsOnly (d : Document) : FailsOnly Fault.concernsUse d.toReal := by
  unfold toReal
  repeat' split
  all_goals simp [Fault.concernsUse, Binary64.ofInt_failsOnly]

theorem brief_failsOnly (d : Document) : FailsOnly Fault.concernsUse d.brief := by
  unfold brief
  split <;> simp [Fault.concernsUse, Binary64.ofInt_failsOnly]

theorem address_failsOnly (d : Document) : FailsOnly Fault.concernsUse d.address := by
  unfold address
  repeat' split
  all_goals simp [Fault.concernsUse]

theorem parts_failsOnly (d : Document) : FailsOnly Fault.concernsUse d.parts := by
  unfold parts
  split <;> simp [Fault.concernsUse]

end Document

namespace Datum

theorem withDocument_failsOnly {α : Type} {use : Document → Except Fault α}
    (h : ∀ d, FailsOnly Fault.concernsUse (use d)) (d : Datum) :
    FailsOnly Fault.concernsUse (d.withDocument use) := by
  unfold withDocument
  split
  · exact h _
  · simp [Fault.concernsUse]

theorem toInt_failsOnly (d : Datum) : FailsOnly Fault.concernsUse d.toInt :=
  withDocument_failsOnly Document.toInt_failsOnly d

theorem toReal_failsOnly (d : Datum) : FailsOnly Fault.concernsUse d.toReal :=
  withDocument_failsOnly Document.toReal_failsOnly d

theorem brief_failsOnly (d : Datum) : FailsOnly Fault.concernsUse d.brief :=
  withDocument_failsOnly Document.brief_failsOnly d

theorem address_failsOnly (d : Datum) : FailsOnly Fault.concernsUse d.address :=
  withDocument_failsOnly Document.address_failsOnly d

theorem parts_failsOnly (d : Datum) : FailsOnly Fault.concernsUse d.parts := by
  cases d with
  | document d => exact (FailsOnly.map_iff _).mpr d.parts_failsOnly
  | tuple items => exact FailsOnly.ok _
  | record title fields => simp [parts, Fault.concernsUse]

theorem shown_failsOnly (d : Datum) : FailsOnly Fault.concernsUse d.shown := by
  unfold shown
  split <;> simp [Fault.concernsUse]

theorem shown?_failsOnly (d : Datum) : FailsOnly Fault.concernsUse d.shown? := by
  unfold shown?
  split <;> simp [Fault.concernsUse]

end Datum

theorem Enumeration.labelOf_failsOnly (e : Enumeration) (d : Datum) :
    FailsOnly Fault.concernsUse (e.labelOf d) := by
  unfold labelOf
  repeat' split
  all_goals simp [Datum.shown_failsOnly]

end Kismet
