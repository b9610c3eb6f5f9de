import Kismet.Field.Label
import Kismet.Proofs.Unambiguous
set_option autoImplicit false

/-!
# TypeLabel: types can be told apart by their labels

The label of a container spells out what it holds in angle brackets, to any depth; the label of
any other field is a word of its own.  Which comma of a label stands between the key and the
value of a map depends on the brackets in front of it.  As long as no word holds a bracket or a
comma, a label is a word with what follows it (`TypeTree.toList_text_append`), and from both the
whole type can be read (`TypeTree.eq_of_text_append`).
-/

namespace Kismet

/-! ## Types -/

/-- The type of a field: containers, down to fields that are none. -/
inductive TypeTree where
  /-- A field that is not a container, by its own label. -/
  | leaf (label : Except Fault Document)
  | array (inner : TypeTree)
  | set (element : TypeTree)
  | map (key value : TypeTree)

namespace Field

mutual

/-- The type of a field. -/
def typeTree : Field → TypeTree
  | ⟨kind, name, flags, propertyFlags, inner, key, value, element, signature, className,
      metaClass, enum, struct⟩ =>
    if kind.isText "FArrayProperty" then .array (typeTreeOf inner)
    else if kind.isText "FSetProperty" then .set (typeTreeOf element)
    else if kind.isText "FMapProperty" then .map (typeTreeOf key) (typeTreeOf value)
    else .leaf (label ⟨kind, name, flags, propertyFlags, inner, key, value, element, signature,
      className, metaClass, enum, struct⟩)

/-- The type of a field that may be missing; a missing field counts as one with the label
`None`. -/
def typeTreeOf : Option Field → TypeTree
  | none => .leaf (.ok (.text "None"))
  | some f => typeTree f

end

end Field

namespace TypeTree

/-- The characters that the labels of containers use themselves, the blank apart. -/
def isMark (c : Char) : Bool :=
  ['<', '>', ','].contains c

/-- The labels of all leaves are texts without marks. -/
def isPlain : TypeTree → Bool
  | .leaf (.ok (.text s)) => s.toList.all fun c => !isMark c
  | .leaf _ => false
  | .array t | .set t => t.isPlain
  | .map k v => k.isPlain && v.isPlain

/-- The word that a label begins with. -/
def word : TypeTree → String
  | .leaf (.ok (.text s)) => s
  | .leaf _ => ""
  | .array _ => "Array"
  | .set _ => "Set"
  | .map .. => "Map"

/-- The type as a text: a word, and after it in angle brackets what a container holds. -/
def text : TypeTree → String
  | .leaf l => (leaf l).word
  | .array t => "Array<" ++ t.text ++ ">"
  | .set t => "Set<" ++ t.text ++ ">"
  | .map k v => "Map<" ++ k.text ++ ", " ++ v.text ++ ">"

theorem exists_text_of_isPlain {l : Except Fault Document} (h : (leaf l).isPlain = true) :
    ∃ s, l = .ok (.text s) := by
  unfold isPlain at h
  split at h <;> simp_all

end TypeTree

/-! ## Labels spell out types -/

theorem Document.eq_text_of_isText {d : Document} {s : String} (h : d.isText s = true) :
    d = .text s := by
  unfold isText at h
  split at h
  · rw [eq_of_beq h]
  · simp at h

namespace Field

mutual

theorem label_eq_text : (f : Field) → f.typeTree.isPlain = true →
    f.label = .ok (.text f.typeTree.text)
  | ⟨kind, name, flags, propertyFlags, inner, key, value, element, signature, className,
      metaClass, enum, struct⟩, h => by
    by_cases harray : kind.isText "FArrayProperty" = true
    · simp only [typeTree, if_pos harray, TypeTree.isPlain] at h ⊢
      obtain rfl := Document.eq_text_of_isText harray
      rw [label, if_pos rfl, labelOf_eq_text inner h]
      rfl
    by_cases hset : kind.isText "FSetProperty" = true
    · simp only [typeTree, if_neg harray, if_pos hset, TypeTree.isPlain] at h ⊢
      obtain rfl := Document.eq_text_of_isText hset
      rw [label, if_neg (by decide), if_pos rfl, labelOf_eq_text element h]
      rfl
    by_cases hmap : kind.isText "FMapProperty" = true
    · simp only [typeTree, if_neg harray, if_neg hset, if_pos hmap, TypeTree.isPlain,
        Bool.and_eq_true] at h ⊢
      obtain rfl := Document.eq_text_of_isText hmap
      rw [label, if_neg (by decide), if_neg (by decide), if_pos rfl, labelOf_eq_text key h.1,
        labelOf_eq_text value h.2]
      rfl
    · simp only [typeTree, if_neg harray, if_neg hset, if_neg hmap] at h ⊢
      obtain ⟨s, hs⟩ := TypeTree.exists_text_of_isPlain h
      rw [hs]
      rfl

/-- The label of a field is its type as a text. -/
theorem labelOf_eq_text : (f : Option Field) → (typeTreeOf f).isPlain = true →
    labelOf f = .ok (.text (typeTreeOf f).text)
  | none, _ => rfl
  | some f, h => label_eq_text f h

end

end Field

/-! ## Reading labels -/

namespace TypeTree

/-- What may follow a type: nothing, or what separates or closes what a container holds. -/
inductive Follows : List Char → Prop where
  | nil : Follows []
  | comma (rest : List Char) : Follows (',' :: rest)
  | bracket (rest : List Char) : Follows ('>' :: rest)

/-- What may follow a word: nothing or a mark. -/
inductive FollowsWord : List Char → Prop where
  | nil : FollowsWord []
  | mark {c : Char} (rest : List Char) (hc : isMark c = true) : FollowsWord (c :: rest)

theorem Follows.followsWord {r : List Char} (h : Follows r) : FollowsWord r := by
  cases h with
  | nil => exact .nil
  | comma rest => exact .mark rest rfl
  | bracket rest => exact .mark rest rfl

theorem not_followsWord_append (c : Char) (cs r : List Char)
    (hc : ∀ d ∈ c :: cs, isMark d = false) (_ : FollowsWord r) : ¬FollowsWord (c :: cs ++ r) := by
  intro h
  cases h with
  | mark rest hmark => simp [hc c (List.mem_cons_self ..)] at hmark

/-- What follows the word of a type, up to the end of `r`. -/
def afterWord (r : List Char) : TypeTree → List Char
  | .leaf _ => r
  | .array t | .set t => '<' :: (t.text.toList ++ '>' :: r)
  | .map k v => '<' :: (k.text.toList ++ ',' :: ' ' :: (v.text.toList ++ '>' :: r))

theorem toList_text_append (t : TypeTree) (r : List Char) :
    t.text.toList ++ r = t.word.toList ++ t.afterWord r := by
  cases t <;> simp [text, word, afterWord]

theorem isMark_word {t : TypeTree} (h : t.isPlain = true) :
    ∀ c ∈ t.word.toList, isMark c = false := by
  cases t with
  | leaf l =>
    obtain ⟨s, rfl⟩ := exists_text_of_isPlain h
    simpa [isPlain, word] using h
  | array t => simp [word, isMark]
  | set t => simp [word, isMark]
  | map k v => simp [word, isMark]

theorem followsWord_afterWord (t : TypeTree) {r : List Char} (hr : Follows r) :
    FollowsWord (t.afterWord r) := by
  cases t with
  | leaf l => exact hr.followsWord
  | array t => exact .mark _ rfl
  | set t => exact .mark _ rfl
  | map k v => exact .mark _ rfl

/-- A label begins with one word only. -/
theorem word_eq_of_text_append {a b : TypeTree} (ha : a.isPlain = true) (hb : b.isPlain = true)
    {r r' : List Char} (hr : Follows r) (hr' : Follows r')
    (h : a.text.toList ++ r = b.text.toList ++ r') :
    a.word = b.word ∧ a.afterWord r = b.afterWord r' := by
  rw [toList_text_append, toList_text_append] at h
  have hcut := Value.eq_of_append_eq not_followsWord_append (isMark_word ha) (isMark_word hb)
    (a.followsWord_afterWord hr) (b.followsWord_afterWord hr') h
  exact ⟨String.toList_inj.mp hcut.1, hcut.2⟩

theorem Follows.ne_opening {r rest : List Char} (h : Follows r) : r ≠ '<' :: rest := by
  rintro rfl
  cases h

/-- A type is known from the characters that begin with its label. -/
theorem eq_of_text_append (a : TypeTree) : ∀ (b : TypeTree), a.isPlain = true → b.isPlain = true →
    ∀ {r r' : List Char}, Follows r → Follows r' →
      a.text.toList ++ r = b.text.toList ++ r' → a = b ∧ r = r' := by
  induction a with
  | leaf l =>
    intro b ha hb r r' hr hr' h
    obtain ⟨hword, hafter⟩ := word_eq_of_text_append ha hb hr hr' h
    cases b with
    | leaf l' =>
      obtain ⟨s, rfl⟩ := exists_text_of_isPlain ha
      obtain ⟨s', rfl⟩ := exists_text_of_isPlain hb
      obtain rfl : s = s' := hword
      exact ⟨rfl, hafter⟩
    | _ => exact absurd hafter hr.ne_opening
  | array t ih =>
    intro b ha hb r r' hr hr' h
    obtain ⟨hword, hafter⟩ := word_eq_of_text_append ha hb hr hr' h
    cases b with
    | leaf l' => exact absurd hafter.symm hr'.ne_opening
    | array t' =>
      obtain ⟨rfl, hclose⟩ := ih t' ha hb (.bracket r) (.bracket r') (List.cons.inj hafter).2
      exact ⟨rfl, (List.cons.inj hclose).2⟩
    | set t' => simp [word] at hword
    | map k' v' => simp [word] at hword
  | set t ih =>
    intro b ha hb r r' hr hr' h
    obtain ⟨hword, hafter⟩ := word_eq_of_text_append ha hb hr hr' h
    cases b with
    | leaf l' => exact absurd hafter.symm hr'.ne_opening
    | array t' => simp [word] at hword
    | set t' =>
      obtain ⟨rfl, hclose⟩ := ih t' ha hb (.bracket r) (.bracket r') (List.cons.inj hafter).2
      exact ⟨rfl, (List.cons.inj hclose).2⟩
    | map k' v' => simp [word] at hword
  | map k v ihk ihv =>
    intro b ha hb r r' hr hr' h
    obtain ⟨hword, hafter⟩ := word_eq_of_text_append ha hb hr hr' h
    cases b with
    | leaf l' => exact absurd hafter.symm hr'.ne_opening
    | array t' => simp [word] at hword
    | set t' => simp [word] at hword
    | map k' v' =>
      simp only [isPlain, Bool.and_eq_true] at ha hb
      -- The key ends at the first comma that is not within its brackets.
      obtain ⟨rfl, hcomma⟩ := ihk k' ha.1 hb.1 (.comma _) (.comma _) (List.cons.inj hafter).2
      obtain ⟨rfl, hclose⟩ := ihv v' ha.2 hb.2 (.bracket r) (.bracket r') (by simpa using hcomma)
      exact ⟨rfl, (List.cons.inj hclose).2⟩

end TypeTree

namespace Field

/-- Two fields, of which either may be missing, have the same label if and only if they have the
same type, provided that the labels of their leaves hold no marks. -/
theorem labelOf_eq_iff_typeTree_eq {f g : Option Field} (hf : (typeTreeOf f).isPlain = true)
    (hg : (typeTreeOf g).isPlain = true) :
    labelOf f = labelOf g ↔ typeTreeOf f = typeTreeOf g := by
  rw [labelOf_eq_text f hf, labelOf_eq_text g hg]
  constructor
  · intro h
    have htext : (typeTreeOf f).text = (typeTreeOf g).text := by simpa using h
    refine ((typeTreeOf f).eq_of_text_append (typeTreeOf g) hf hg .nil .nil ?_).1
    rw [htext]
  · intro h
    rw [h]

/-- A field of a kind and nothing else. -/
def sampleOf (kind : String) : Field :=
  { (default : Field) with kind := .text kind }

/-- A map from names to arrays of which nothing is said. -/
def sampleLookup : Field :=
  { sampleOf "FMapProperty" with
    key := some (sampleOf "FNameProperty")
    value := some (sampleOf "FArrayProperty") }

/-- A map from names to arrays of fields of a kind `None`, with flags. -/
def sampleTable : Field :=
  { sampleOf "FMapProperty" with
    flags := 4
    key := some (sampleOf "FNameProperty")
    value := some { sampleOf "FArrayProperty" with inner := some (sampleOf "None") } }

theorem labelOf_eq_iff_typeTree_eq_sample :
    labelOf (some sampleLookup) = .ok (.text "Map<Name, Array<None>>")
    ∧ labelOf (some sampleTable) = .ok (.text "Map<Name, Array<None>>")
    ∧ (typeTreeOf (some sampleLookup)).isPlain = true
    ∧ (typeTreeOf (some sampleTable)).isPlain = true
    ∧ typeTreeOf (some sampleLookup) = typeTreeOf (some sampleTable) := by
  have hlookup : labelOf (some sampleLookup) = .ok (.text "Map<Name, Array<None>>") := by rfl
  have htable : labelOf (some sampleTable) = .ok (.text "Map<Name, Array<None>>") := by rfl
  have hplain : (typeTreeOf (some sampleLookup)).isPlain = true := by decide
  have hplain' : (typeTreeOf (some sampleTable)).isPlain = true := by decide
  exact ⟨hlookup, htable, hplain, hplain',
    (labelOf_eq_iff_typeTree_eq hplain hplain').mp (hlookup.trans htable.symm)⟩

end Field

end Kismet
