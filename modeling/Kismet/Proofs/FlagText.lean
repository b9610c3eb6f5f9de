import Kismet.Proofs.Bits
import Kismet.Proofs.Hex
import Mathlib.Data.List.Nodup
set_option autoImplicit false

/-!
# FlagText: the text of a flag word loses nothing

A flag word is written as the names of its bits and a hexadecimal remainder.  Cut at the commas,
the text gives back these parts: `IsFlagSet.written` says that they are names of members in
ascending order, followed by the bits that no member has, and that together they are the word.
From this follow `IsFlagSet.parse_split_format`, that a word of member bits is read back, and
`IsFlagSet.format_injective`.  What the tables of flags have to be for this is said once, by
`IsFlagTable`, and decided for each of them.
-/

namespace Kismet.Text

/-! ## Splitting -/

/-- The pieces of a text without its first `skip` characters, between the occurrences of
`separator`, which are taken from the left without overlap. -/
def splitAfter (separator : List Char) : Nat → List Char → List (List Char)
  | _, [] => [[]]
  | skip + 1, _ :: rest => splitAfter separator skip rest
  | 0, c :: rest =>
    if separator.isPrefixOf (c :: rest) then [] :: splitAfter separator (separator.length - 1) rest
    else
      match splitAfter separator 0 rest with
      | [] => [[c]]
      | piece :: pieces => (c :: piece) :: pieces

/-- The pieces of a text between the occurrences of a separator. -/
def split (separator s : String) : List String :=
  (splitAfter separator.toList 0 s.toList).map String.ofList

theorem splitAfter_skip (separator front rest : List Char) :
    splitAfter separator front.length (front ++ rest) = splitAfter separator 0 rest := by
  induction front with
  | nil => rfl
  | cons c front ih =>
    rw [List.length_cons, List.cons_append, splitAfter, ih]

/-- A piece without the first character of the separator is not cut. -/
theorem splitAfter_piece (x : Char) (xs : List Char) {piece : List Char} (h : x ∉ piece) :
    splitAfter (x :: xs) 0 piece = [piece] := by
  induction piece with
  | nil => rfl
  | cons c piece ih =>
    rw [List.mem_cons, not_or] at h
    rw [splitAfter, if_neg (by simp [h.1]), ih h.2]

theorem splitAfter_append (x : Char) (xs : List Char) {piece : List Char} (h : x ∉ piece)
    (rest : List Char) :
    splitAfter (x :: xs) 0 (piece ++ (x :: xs ++ rest)) = piece :: splitAfter (x :: xs) 0 rest := by
  induction piece with
  | nil =>
    rw [List.nil_append, List.cons_append, splitAfter, if_pos (by simp [List.isPrefixOf])]
    simp [splitAfter_skip]
  | cons c piece ih =>
    rw [List.mem_cons, not_or] at h
    rw [List.cons_append, splitAfter, if_neg (by simp [h.1]), ih h.2]

/-- Pieces that are put together are taken apart again. -/
theorem split_intercalate {separator : String} {x : Char} {xs : List Char}
    (hsep : separator.toList = x :: xs) {pieces : List String}
    (h : ∀ p ∈ pieces, x ∉ p.toList) (hne : pieces ≠ []) :
    split separator (separator.intercalate pieces) = pieces := by
  induction pieces with
  | nil => exact absurd rfl hne
  | cons p rest ih =>
    rw [List.forall_mem_cons] at h
    cases rest with
    | nil => simp [split, hsep, splitAfter_piece x xs h.1]
    | cons q rest =>
      have hrest := ih h.2 (by simp)
      rw [split, hsep] at hrest ⊢
      rw [String.intercalate_cons_cons, String.append_assoc, String.toList_append,
        String.toList_append, hsep, splitAfter_append x xs h.1, List.map_cons, hrest]
      simp

end Kismet.Text

namespace Kismet.Enumeration

/-! ## Tables of flags -/

/-- The characters of the names of flags. -/
def flagChars : Text.Ranges :=
  [(0x41, 0x5A), (0x5F, 0x5F), (0x61, 0x7A)]

/-- The character may stand in the name of a flag. -/
def isFlagChar (c : Char) : Bool :=
  flagChars.has c

theorem isBlank_of_isFlagChar {c : Char} (hc : isFlagChar c = true) : Text.isBlank c = false := by
  simp only [isFlagChar, flagChars, Text.Ranges.has, List.any_cons, List.any_nil, Bool.or_false,
    Bool.or_eq_true, Bool.and_eq_true, decide_eq_true_eq] at hc
  simp only [Text.isBlank, Text.Ranges.has, Text.blanks, List.any_cons, List.any_nil,
    Bool.or_false, Bool.or_eq_false_iff, Bool.and_eq_false_iff, decide_eq_false_iff_not]
  omega

theorem strip_of_isFlagChar {s : String} (hs : ∀ c ∈ s.toList, isFlagChar c = true) :
    Text.strip s = s := by
  have hdrop : ∀ cs : List Char, (∀ c ∈ cs, isFlagChar c = true) →
      cs.dropWhile Text.isBlank = cs := by
    intro cs hcs
    cases cs with
    | nil => rfl
    | cons c cs =>
      have hblank := isBlank_of_isFlagChar (hcs c (List.mem_cons_self ..))
      exact List.dropWhile_cons_of_neg (by simp [hblank])
  rw [Text.strip, Text.trimBoth, hdrop _ hs, hdrop _ fun c hc => hs c (List.mem_reverse.mp hc),
    List.reverse_reverse, String.ofList_toList]

/-- A member with the characters of its name. -/
def row (m : String × Nat) : List Char × Nat :=
  (m.1.toList, m.2)

/-- The rows are those of a set of flags: single bits in ascending order, with names of their own
that begin with the mark once. -/
structure IsFlagTable (mark : List Char) (rows : List (List Char × Nat)) : Prop where
  /-- One of them is the empty word. -/
  none_mem : (mark ++ ['N', 'o', 'n', 'e'], 0) ∈ rows
  ascending : rows.Pairwise fun a b => a.2 < b.2
  single : ∀ r ∈ rows, r.2 = 0 ∨ r.2 = 2 ^ r.2.log2
  nodup : (rows.map Prod.fst).Nodup
  marked : ∀ r ∈ rows, mark <+: r.1
  marked_once : ∀ r ∈ rows, ¬mark <+: r.1.drop mark.length
  plain : ∀ r ∈ rows, r.1.all isFlagChar = true

instance (mark : List Char) (rows : List (List Char × Nat)) : Decidable (IsFlagTable mark rows) :=
  decidable_of_iff
    ((mark ++ ['N', 'o', 'n', 'e'], 0) ∈ rows ∧ (rows.Pairwise fun a b => a.2 < b.2)
      ∧ (∀ r ∈ rows, r.2 = 0 ∨ r.2 = 2 ^ r.2.log2) ∧ (rows.map Prod.fst).Nodup
      ∧ (∀ r ∈ rows, mark <+: r.1) ∧ (∀ r ∈ rows, ¬mark <+: r.1.drop mark.length)
      ∧ ∀ r ∈ rows, r.1.all isFlagChar = true)
    ⟨fun ⟨h₁, h₂, h₃, h₄, h₅, h₆, h₇⟩ => ⟨h₁, h₂, h₃, h₄, h₅, h₆, h₇⟩,
      fun ⟨h₁, h₂, h₃, h₄, h₅, h₆, h₇⟩ => ⟨h₁, h₂, h₃, h₄, h₅, h₆, h₇⟩⟩

/-- The members are a set of flags. -/
def IsFlagSet (e : Enumeration) : Prop :=
  IsFlagTable e.mark.toList (e.members.map row)

-- The characters of a literal are read off it member by member, which is much cheaper than
-- decoding its bytes.
theorem map_row_cons {members : List (String × Nat)} {rows : List (List Char × Nat)}
    (cs : List Char) (n : Nat) (h : members.map row = rows) :
    ((String.ofList cs, n) :: members).map row = (cs, n) :: rows := by
  rw [List.map_cons, h, row, String.toList_ofList]

theorem isFlagSet_of_rows {e : Enumeration} (mark : List Char) (hmark : e.mark = String.ofList mark)
    (h : ∃ rows, e.members.map row = rows ∧ IsFlagTable mark rows) : e.IsFlagSet := by
  obtain ⟨rows, hrows, htable⟩ := h
  rwa [IsFlagSet, hrows, hmark, String.toList_ofList]

theorem isFlagSet_functionFlags : functionFlags.IsFlagSet := by
  apply isFlagSet_of_rows ['F', 'U', 'N', 'C', '_'] rfl
  apply Exists.intro
  constructor
  · unfold functionFlags
    repeat apply map_row_cons
    exact List.map_nil
  · decide +kernel

theorem isFlagSet_classFlags : classFlags.IsFlagSet := by
  apply isFlagSet_of_rows ['C', 'L', 'A', 'S', 'S', '_'] rfl
  apply Exists.intro
  constructor
  · unfold classFlags
    repeat apply map_row_cons
    exact List.map_nil
  · decide +kernel

theorem isFlagSet_propertyFlags : propertyFlags.IsFlagSet := by
  apply isFlagSet_of_rows ['C', 'P', 'F', '_'] rfl
  apply Exists.intro
  constructor
  · unfold propertyFlags
    repeat apply map_row_cons
    exact List.map_nil
  · decide +kernel

/-- The sets of flags. -/
def flagSets : List Enumeration :=
  [functionFlags, classFlags, propertyFlags]

theorem isFlagSet_of_mem {e : Enumeration} (he : e ∈ flagSets) : e.IsFlagSet := by
  rw [flagSets, List.mem_cons, List.mem_cons, List.mem_singleton] at he
  rcases he with rfl | rfl | rfl
  · exact isFlagSet_functionFlags
  · exact isFlagSet_classFlags
  · exact isFlagSet_propertyFlags

namespace IsFlagSet

variable {e : Enumeration} (h : e.IsFlagSet)
include h

theorem pairwise_members : e.members.Pairwise fun a b => a.2 < b.2 :=
  (List.pairwise_map (f := row)).mp h.ascending

theorem ascending_eq : e.ascending = e.members := by
  apply List.mergeSort_of_pairwise
  exact h.pairwise_members.imp fun hlt => decide_eq_true (Nat.le_of_lt hlt)

theorem none_mem_members : (e.mark ++ "None", 0) ∈ e.members := by
  obtain ⟨m, hm, hrow⟩ := List.mem_map.mp h.none_mem
  obtain ⟨hname, hvalue⟩ := Prod.mk.inj hrow
  have hnone : (e.mark ++ "None").toList = m.1.toList := by
    rw [hname, String.toList_append]
    rfl
  rwa [String.toList_inj.mp hnone, ← hvalue]

/-- A member is a single bit, or none. -/
theorem exists_two_pow {m : String × Nat} (hm : m ∈ e.members) (hne : m.2 ≠ 0) :
    ∃ i, m.2 = 2 ^ i :=
  ⟨_, (h.single (row m) (List.mem_map_of_mem hm)).resolve_left hne⟩

/-- A name is the mark and the short name. -/
theorem mark_append_memberText {m : String × Nat} (hm : m ∈ e.members) :
    e.mark ++ e.memberText true m.1 = m.1 := by
  have hmark := List.prefix_iff_eq_append.mp (h.marked (row m) (List.mem_map_of_mem hm))
  rw [← String.toList_inj, memberText, if_pos rfl, String.toList_append, String.toList_ofList]
  exact hmark

theorem isFlagChar_of_mem_memberText (bare : Bool) {m : String × Nat} (hm : m ∈ e.members) :
    ∀ c ∈ (e.memberText bare m.1).toList, isFlagChar c = true := by
  have hplain := List.all_eq_true.mp (h.plain (row m) (List.mem_map_of_mem hm))
  intro c hc
  cases bare with
  | false => exact hplain c hc
  | true =>
    rw [memberText, if_pos rfl, String.toList_ofList] at hc
    exact hplain c (List.mem_of_mem_drop hc)

/-! ### Names are read back -/

theorem value?_of_mem {m : String × Nat} (hm : m ∈ e.members) : e.value? m.1 = some m.2 := by
  have hinj := List.inj_on_of_nodup_map (f := fun m : String × Nat => m.1.toList)
    (by simpa [List.map_map, Function.comp_def, row] using h.nodup)
  cases hfind : e.members.find? fun m' => m'.1 == m.1 with
  | none =>
    have hne := List.find?_eq_none.mp hfind m hm
    simp at hne
  | some m' =>
    have hname : m'.1 = m.1 := by simpa using List.find?_some hfind
    have hsame : m' = m := hinj (List.mem_of_find?_eq_some hfind) hm (congrArg _ hname)
    rw [value?, hfind, Option.map_some, hsame]

/-- A short name is not the name of another member, as it does not begin with the mark. -/
theorem value?_memberText_true {m : String × Nat} (hm : m ∈ e.members) :
    e.value? (e.memberText true m.1) = none := by
  rw [value?, Option.map_eq_none_iff, List.find?_eq_none]
  intro m' hm' hname
  have hname : m'.1 = e.memberText true m.1 := by simpa using hname
  have hmark : e.mark.toList <+: m'.1.toList := h.marked (row m') (List.mem_map_of_mem hm')
  rw [hname, memberText, if_pos rfl, String.toList_ofList] at hmark
  exact h.marked_once (row m) (List.mem_map_of_mem hm) hmark

theorem flag?_memberText (bare : Bool) {m : String × Nat} (hm : m ∈ e.members) :
    e.flag? (e.memberText bare m.1) = some m.2 := by
  cases bare with
  | false =>
    have hname : e.memberText false m.1 = m.1 := rfl
    rw [flag?, hname, h.value?_of_mem hm]
  | true =>
    rw [flag?, h.value?_memberText_true hm, h.mark_append_memberText hm, h.value?_of_mem hm]

theorem strip_memberText (bare : Bool) {m : String × Nat} (hm : m ∈ e.members) :
    Text.strip (e.memberText bare m.1) = e.memberText bare m.1 :=
  strip_of_isFlagChar (h.isFlagChar_of_mem_memberText bare hm)

/-- Reading the names of members gives the union of the members. -/
theorem unite_names (bare : Bool) {named : List (String × Nat)}
    (hnamed : ∀ m ∈ named, m ∈ e.members) (start : Nat) :
    e.unite start (named.map fun m => .text (e.memberText bare m.1))
      = .ok (named.foldl (fun n m => n ||| m.2) start) := by
  induction named generalizing start with
  | nil => rfl
  | cons m named ih =>
    rw [List.forall_mem_cons] at hnamed
    rw [List.map_cons, unite, h.strip_memberText bare hnamed.1, h.flag?_memberText bare hnamed.1,
      List.foldl_cons]
    exact ih hnamed.2 _

end IsFlagSet

/-! ## Bits of members -/

/-- Some member has the bit `i`. -/
def covers (e : Enumeration) (i : Nat) : Bool :=
  e.members.any fun m => m.2.testBit i

theorem testBit_foldl_clear (members : List (String × Nat)) (n : Int) (i : Nat) :
    (members.foldl (fun rest m => Bits.clear rest m.2) n).testBit i
      = (n.testBit i && !members.any fun m => m.2.testBit i) := by
  induction members generalizing n with
  | nil => simp
  | cons m members ih =>
    rw [List.foldl_cons, ih, Bits.testBit_clear, List.any_cons, Bool.not_or, Bool.and_assoc]

theorem testBit_foldl_or (members : List (String × Nat)) (start i : Nat) :
    (members.foldl (fun n m => n ||| m.2) start).testBit i
      = (start.testBit i || members.any fun m => m.2.testBit i) := by
  induction members generalizing start with
  | nil => simp
  | cons m members ih =>
    rw [List.foldl_cons, ih, Nat.testBit_or, List.any_cons, Bool.or_assoc]

theorem covers_eq_false_iff (e : Enumeration) (i : Nat) :
    e.covers i = false ↔ ∀ m ∈ e.members, m.2.testBit i = false := by
  simp [covers]

namespace IsFlagSet

variable {e : Enumeration} (h : e.IsFlagSet)
include h

theorem testBit_present (n : Int) (i : Nat) :
    ((e.present n).any fun m => m.2.testBit i) = (n.testBit i && e.covers i) := by
  have hmember : ∀ m ∈ e.members, ((m.2 != 0 && Bits.areSet n m.2) && m.2.testBit i)
      = (n.testBit i && m.2.testBit i) := by
    intro m hm
    by_cases hzero : m.2 = 0
    · simp [hzero]
    · obtain ⟨j, hj⟩ := h.exists_two_pow hm hzero
      rw [hj, Bits.areSet_two_pow, Nat.testBit_two_pow]
      by_cases hij : j = i <;> simp [hij]
  rw [present, h.ascending_eq, List.any_filter, covers, Bool.eq_iff_iff]
  simp only [List.any_eq_true, Bool.and_eq_true (n.testBit i)]
  constructor
  · rintro ⟨m, hm, hbit⟩
    rw [hmember m hm, Bool.and_eq_true] at hbit
    exact ⟨hbit.1, m, hm, hbit.2⟩
  · rintro ⟨hn, m, hm, hbit⟩
    exact ⟨m, hm, by rw [hmember m hm, hn, hbit]; rfl⟩

/-- The remainder has the bits that no member has. -/
theorem testBit_remainder (n : Int) (i : Nat) :
    (e.remainder n).testBit i = (n.testBit i && !e.covers i) := by
  rw [remainder, testBit_foldl_clear, h.testBit_present]
  cases n.testBit i <;> simp

theorem remainder_zero : e.remainder 0 = 0 := by
  rw [Bits.eq_zero_iff]
  intro i
  rw [h.testBit_remainder, Bits.testBit_zero, Bool.false_and]

end IsFlagSet

/-! ## The parts of a text -/

/-- Two ways to cut a list before its first element without `p` are the same. -/
theorem append_inj_of_forall {α : Type} {p : α → Prop} [DecidablePred p] {as bs xs ys : List α}
    (heq : as ++ xs = bs ++ ys) (has : ∀ a ∈ as, p a) (hbs : ∀ b ∈ bs, p b) (hxs : ∀ x ∈ xs, ¬p x)
    (hys : ∀ y ∈ ys, ¬p y) : as = bs ∧ xs = ys := by
  have hfilter := congrArg (List.filter fun a => decide (p a)) heq
  have hnone : ∀ zs : List α, (∀ z ∈ zs, ¬p z) → zs.filter (fun z => decide (p z)) = [] := by
    simp
  have hall : ∀ zs : List α, (∀ z ∈ zs, p z) → zs.filter (fun z => decide (p z)) = zs := by
    simp
  rw [List.filter_append, List.filter_append, hnone xs hxs, hnone ys hys, hall as has, hall bs hbs,
    List.append_nil, List.append_nil] at hfilter
  subst hfilter
  exact ⟨rfl, List.append_cancel_left heq⟩

/-- The members that are written for a flag word. -/
def named (e : Enumeration) (n : Int) : List (String × Nat) :=
  if n = 0 then [(e.mark ++ "None", 0)] else e.present n

/-- What is written for the bits of a flag word that no member has. -/
def rest? (e : Enumeration) (n : Int) : Option Int :=
  if e.remainder n = 0 then none else some (e.remainder n)

/-- The text of the bits that no member has. -/
def remainderText (rest : Int) : String :=
  "0x" ++ Text.hex 0 rest

/-- The number that the text of a remainder stands for. -/
def remainderValue (part : String) : Int :=
  Text.readSigned (part.toList.drop 2)

theorem toList_remainderText (rest : Int) :
    (remainderText rest).toList = '0' :: 'x' :: Text.hexChars 0 rest := by
  simp [remainderText, Text.hex]

theorem remainderValue_remainderText (rest : Int) :
    remainderValue (remainderText rest) = rest := by
  rw [remainderValue, toList_remainderText]
  exact Text.readSigned_hexChars rest

theorem comma_not_mem_remainderText (rest : Int) : ',' ∉ (remainderText rest).toList := by
  intro hc
  rw [toList_remainderText, List.mem_cons, List.mem_cons] at hc
  have hdigit := Text.isHexDigit_of_mem_hexChars ((hc.resolve_left (by decide)).resolve_left
    (by decide)) (by decide)
  exact absurd hdigit (by decide)

theorem getD_rest? (e : Enumeration) (n : Int) : (e.rest? n).getD 0 = e.remainder n := by
  unfold rest?
  split
  · rename_i hzero
    rw [hzero]
    rfl
  · rfl

theorem formatParts_ne_nil (e : Enumeration) (bare : Bool) (n : Int) :
    e.formatParts bare n ≠ [] := by
  unfold formatParts
  split
  · exact List.cons_ne_nil _ _
  · rename_i hn
    -- Without a member in it the word is its own remainder.
    intro hnil
    obtain ⟨hnames, hrest⟩ := List.append_eq_nil_iff.mp hnil
    have hpresent : e.present n = [] := List.map_eq_nil_iff.mp hnames
    have hremainder : e.remainder n = n := by rw [remainder, hpresent, List.foldl_nil]
    rw [hremainder, if_neg hn] at hrest
    exact List.cons_ne_nil _ _ hrest

namespace IsFlagSet

variable {e : Enumeration} (h : e.IsFlagSet)
include h

theorem formatParts_eq (bare : Bool) (n : Int) :
    e.formatParts bare n = (e.named n).map (fun m => e.memberText bare m.1)
      ++ (e.rest? n).toList.map remainderText := by
  by_cases hn : n = 0
  · subst hn
    simp [formatParts, named, rest?, h.remainder_zero]
  · by_cases hrest : e.remainder n = 0 <;>
      simp [formatParts, named, rest?, remainderText, hn, hrest]

theorem mem_members_of_mem_named {n : Int} : ∀ m ∈ e.named n, m ∈ e.members := by
  intro m hm
  unfold named at hm
  split at hm
  · rw [List.mem_singleton] at hm
    rw [hm]
    exact h.none_mem_members
  · rw [present, h.ascending_eq] at hm
    exact List.mem_of_mem_filter hm

theorem pairwise_named (n : Int) : (e.named n).Pairwise fun a b => a.2 < b.2 := by
  unfold named
  split
  · exact List.pairwise_singleton ..
  · rw [present, h.ascending_eq]
    exact h.pairwise_members.filter _

theorem not_mem_memberText (bare : Bool) {m : String × Nat} (hm : m ∈ e.members) {c : Char}
    (hc : isFlagChar c = false) : c ∉ (e.memberText bare m.1).toList := by
  intro hmem
  have hname := h.isFlagChar_of_mem_memberText bare hm c hmem
  exact absurd (hname.symm.trans hc) (by decide)

/-- The text is cut where it was put together. -/
theorem split_format (bare : Bool) (n : Int) :
    Text.split ", " (e.format bare n) = (e.named n).map (fun m => e.memberText bare m.1)
      ++ (e.rest? n).toList.map remainderText := by
  rw [← h.formatParts_eq]
  refine Text.split_intercalate (show ", ".toList = ',' :: [' '] from rfl) ?_
    (e.formatParts_ne_nil bare n)
  rw [h.formatParts_eq]
  intro part hpart
  rw [List.mem_append, List.mem_map, List.mem_map] at hpart
  rcases hpart with ⟨m, hm, rfl⟩ | ⟨rest, -, rfl⟩
  · exact h.not_mem_memberText bare (h.mem_members_of_mem_named m hm) (by decide)
  · exact comma_not_mem_remainderText rest

/-- The number that the names of a flag word are read as. -/
theorem parse_named (bare : Bool) (n : Int) :
    ∃ names : Nat, e.parse (.list ((e.named n).map fun m => .text (e.memberText bare m.1)))
        = .ok (.number names)
      ∧ ∀ i, names.testBit i = (n.testBit i && e.covers i) := by
  refine ⟨(e.named n).foldl (fun k m => k ||| m.2) 0, ?_, fun i => ?_⟩
  · have hunite := h.unite_names bare (fun m => h.mem_members_of_mem_named (n := n) m) 0
    simp only [parse, Document.parts, hunite]
    rfl
  · rw [testBit_foldl_or, Nat.zero_testBit, Bool.false_or, named]
    split
    · rename_i hn
      rw [hn, Bits.testBit_zero]
      simp
    · exact h.testBit_present n i

theorem isSome_rest?_iff (n : Int) :
    (e.rest? n).isSome = true ↔ ∃ i, n.testBit i = true ∧ e.covers i = false := by
  have hsome : (e.rest? n).isSome = true ↔ e.remainder n ≠ 0 := by
    by_cases hzero : e.remainder n = 0 <;> simp [rest?, hzero]
  rw [hsome, ne_eq, Bits.eq_zero_iff]
  simp [h.testBit_remainder]

end IsFlagSet

/-- The text of a flag word says what the word is: `named` are the members and `rest` is the
remainder that it is made of. -/
structure Written (e : Enumeration) (bare : Bool) (n : Int) (named : List (String × Nat))
    (rest : Option Int) : Prop where
  /-- The names come first. -/
  split_format : Text.split ", " (e.format bare n)
    = named.map (fun m => e.memberText bare m.1) ++ rest.toList.map remainderText
  mem_members : ∀ m ∈ named, m ∈ e.members
  /-- A bare name is one without the mark. -/
  memberText_eq : ∀ m ∈ named,
    (if bare then e.mark ++ e.memberText bare m.1 else e.memberText bare m.1) = m.1
  ascending : named.Pairwise fun a b => a.2 < b.2
  /-- The names are read, and with the remainder they are the word. -/
  parse_names : ∃ names : Int,
    e.parse (.list (named.map fun m => .text (e.memberText bare m.1))) = .ok (.number names)
      ∧ Int.lor names (rest.getD 0) = n
  remainderValue_eq : ∀ r ∈ rest, remainderValue (remainderText r) = r
  /-- No member has a bit of the remainder. -/
  disjoint : ∀ r ∈ rest, ∀ m ∈ e.members, ∀ i, ¬(r.testBit i = true ∧ m.2.testBit i = true)
  isSome_iff : rest.isSome = true
    ↔ ∃ i, n.testBit i = true ∧ ∀ m ∈ e.members, m.2.testBit i = false

theorem IsFlagSet.written {e : Enumeration} (h : e.IsFlagSet) (bare : Bool) (n : Int) :
    e.Written bare n (e.named n) (e.rest? n) where
  split_format := h.split_format bare n
  mem_members := h.mem_members_of_mem_named
  memberText_eq := by
    intro m hm
    cases bare with
    | false => rfl
    | true => exact h.mark_append_memberText (h.mem_members_of_mem_named m hm)
  ascending := h.pairwise_named n
  parse_names := by
    obtain ⟨names, hparse, hbits⟩ := h.parse_named bare n
    refine ⟨names, hparse, Bits.eq_of_testBit_eq fun i => ?_⟩
    have hnames : Int.testBit names i = (n.testBit i && e.covers i) := hbits i
    rw [Int.testBit_lor, getD_rest?, h.testBit_remainder, hnames]
    cases n.testBit i <;> cases e.covers i <;> rfl
  remainderValue_eq := fun r _ => remainderValue_remainderText r
  disjoint := by
    intro r hr m hm i ⟨hbit, hmember⟩
    have hremainder : e.remainder n = r := by rw [← getD_rest?, hr, Option.getD_some]
    rw [← hremainder, h.testBit_remainder, Bool.and_eq_true, Bool.not_eq_true'] at hbit
    have hfree := (e.covers_eq_false_iff i).mp hbit.2 m hm
    exact absurd (hmember.symm.trans hfree) (by decide)
  isSome_iff := by
    simp only [← e.covers_eq_false_iff]
    exact h.isSome_rest?_iff n

/-- The parts of a text say which of them are names: those without a digit. -/
theorem IsFlagSet.texts_eq {e : Enumeration} (h : e.IsFlagSet) {bare : Bool}
    {named named' : List (String × Nat)} {rest rest' : Option Int}
    (hnamed : ∀ m ∈ named, m ∈ e.members) (hnamed' : ∀ m ∈ named', m ∈ e.members)
    (heq : named.map (fun m => e.memberText bare m.1) ++ rest.toList.map remainderText
      = named'.map (fun m => e.memberText bare m.1) ++ rest'.toList.map remainderText) :
    named.map (fun m => e.memberText bare m.1) = named'.map (fun m => e.memberText bare m.1)
      ∧ rest = rest' := by
  have hname : ∀ named : List (String × Nat), (∀ m ∈ named, m ∈ e.members) →
      ∀ part ∈ named.map (fun m => e.memberText bare m.1), '0' ∉ part.toList := by
    intro named hnamed part hpart
    obtain ⟨m, hm, rfl⟩ := List.mem_map.mp hpart
    exact h.not_mem_memberText bare (hnamed m hm) (by decide)
  have hrest : ∀ rest : Option Int, ∀ part ∈ rest.toList.map remainderText, '0' ∈ part.toList := by
    intro rest part hpart
    obtain ⟨r, -, rfl⟩ := List.mem_map.mp hpart
    rw [toList_remainderText]
    exact List.mem_cons_self ..
  obtain ⟨hnames, hrests⟩ := append_inj_of_forall heq (hname named hnamed) (hname named' hnamed')
    (fun part hpart hnot => hnot (hrest rest part hpart))
    fun part hpart hnot => hnot (hrest rest' part hpart)
  have hinj : Function.Injective remainderText :=
    Function.LeftInverse.injective remainderValue_remainderText
  have hlists : rest.toList = rest'.toList := List.map_injective_iff.mpr hinj hrests
  exact ⟨hnames, by simpa using congrArg List.head? hlists⟩

/-- A text is the text of one flag word only. -/
theorem IsFlagSet.format_injective {e : Enumeration} (h : e.IsFlagSet) (bare : Bool) :
    Function.Injective (e.format bare) := by
  intro n n' heq
  have hn := h.written bare n
  have hn' := h.written bare n'
  obtain ⟨htexts, hrest⟩ := h.texts_eq hn.mem_members hn'.mem_members
    (hn.split_format.symm.trans ((congrArg (Text.split ", ") heq).trans hn'.split_format))
  obtain ⟨names, hparse, hlor⟩ := hn.parse_names
  obtain ⟨names', hparse', hlor'⟩ := hn'.parse_names
  have hdocuments := congrArg (List.map Document.text) htexts
  rw [List.map_map, List.map_map] at hdocuments
  have hwords : e.parse (.list _) = e.parse (.list _) := congrArg (e.parse <| .list ·) hdocuments
  have hnames : names = names' := by
    simpa using hparse.symm.trans (hwords.trans hparse')
  rw [← hlor, ← hlor', hnames, hrest]

/-- A word of member bits is read back from its text. -/
theorem IsFlagSet.parse_split_format {e : Enumeration} (h : e.IsFlagSet) (bare : Bool) {n : Int}
    (hn : ∀ i, n.testBit i = true → e.covers i = true) :
    e.parse (.list ((Text.split ", " (e.format bare n)).map .text)) = .ok (.number n) := by
  have hrest : e.rest? n = none := by
    rw [← Option.not_isSome_iff_eq_none, h.isSome_rest?_iff]
    rintro ⟨i, hbit, hfree⟩
    exact absurd ((hn i hbit).symm.trans hfree) (by decide)
  obtain ⟨names, hparse, hlor⟩ := (h.written bare n).parse_names
  have hnames : names = n := by
    rw [← hlor, hrest]
    exact Bits.eq_of_testBit_eq fun i => by simp [Int.testBit_lor, Bits.testBit_zero]
  rw [hnames] at hparse
  rw [h.split_format, hrest, ← hparse, Option.toList_none, List.map_nil, List.append_nil,
    List.map_map]
  rfl

/-- The text of a flag word loses nothing: it is made of the names of members and of what no
member covers, words of member bits are read back from it, and no two words share one. -/
theorem format_reads_back {e : Enumeration} (he : e ∈ flagSets) (bare : Bool) :
    (∀ n, ∃ named rest, e.Written bare n named rest)
      ∧ (∀ n : Int, (∀ i, n.testBit i = true → ∃ m ∈ e.members, m.2.testBit i = true) →
        e.parse (.list ((Text.split ", " (e.format bare n)).map .text)) = .ok (.number n))
      ∧ Function.Injective (e.format bare) := by
  have h := isFlagSet_of_mem he
  refine ⟨fun n => ⟨_, _, h.written bare n⟩, ?_, h.format_injective bare⟩
  intro n hn
  exact h.parse_split_format bare fun i hbit => List.any_eq_true.mpr (hn i hbit)

theorem covers_functionFlags_sample (i : Nat) (hi : Int.testBit 0x401 i = true) :
    ∃ m ∈ functionFlags.members, m.2.testBit i = true := by
  have hlt : i < 11 := by
    by_contra hge
    have hsmall : 0x401 < 2 ^ i :=
      Nat.lt_of_lt_of_le (by decide) (Nat.pow_le_pow_right (by decide) (Nat.le_of_not_lt hge))
    have hfree : Int.testBit 0x401 i = false := Nat.testBit_lt_two_pow hsmall
    exact absurd (hi.symm.trans hfree) (by decide)
  have hbits : ∀ i < 11, Int.testBit 0x401 i = true →
      ∃ m ∈ functionFlags.members, m.2.testBit i = true := by
    decide +kernel
  exact hbits i hlt hi

/-- A negative word with one function flag, and a word of two. -/
theorem format_reads_back_sample :
    functionFlags ∈ flagSets
      ∧ (∃ named rest, functionFlags.Written true (-0xFFFFFFFF) named rest)
      ∧ (∀ i, Int.testBit 0x401 i = true → ∃ m ∈ functionFlags.members, m.2.testBit i = true)
      ∧ functionFlags.parse (.list ((Text.split ", " (functionFlags.format true 0x401)).map .text))
        = .ok (.number 0x401)
      ∧ functionFlags.format true (-0xFFFFFFFF) ≠ functionFlags.format true 0x401 := by
  have hmem : functionFlags ∈ flagSets := List.mem_cons_self ..
  obtain ⟨hwritten, hparse, hinj⟩ := format_reads_back hmem true
  exact ⟨hmem, hwritten _, covers_functionFlags_sample, hparse _ covers_functionFlags_sample,
    fun heq => absurd (hinj heq) (by decide)⟩

end Kismet.Enumeration
