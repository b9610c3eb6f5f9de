import Kismet.Proofs.Outline
set_option autoImplicit false

/-!
# Unambiguous: values can be told apart by their texts

Texts may hold blanks, be empty or begin and end with blanks, and a block may stand wherever a
text may, also as the key of a pair.  As long as no text holds one of the marks that the format
uses itself, there is only one way to read what was written: what comes first tells a leaf from
a container (`Skeleton.ofChars_append`), and what follows tells where it ends
(`Skeleton.eq_of_chars_append`).  `render_eq_iff_skeleton_eq` concludes that two values have the
same text just when they have the same skeleton.
-/

namespace Kismet.Value

/-! ## Marks -/

/-- The characters that the format uses itself, blanks apart. -/
def isMark (c : Char) : Bool :=
  ['\n', ',', '=', '\x7b', '\x7d'].contains c

/-- The text holds no mark. -/
def Unmarked (t : String) : Prop :=
  ∀ c ∈ t.toList, isMark c = false

/-- What may follow a value: nothing, the sign between key and value, or the end of an entry. -/
inductive Follows : List Char → Prop where
  | nil : Follows []
  | sign (rest : List Char) : Follows (' ' :: '=' :: ' ' :: rest)
  | comma (rest : List Char) : Follows (',' :: rest)
  | line (rest : List Char) : Follows ('\n' :: rest)

/-- What follows the type of a structure whose members are not known. -/
inductive FollowsType : List Char → Prop where
  | brace (rest : List Char) : FollowsType (' ' :: '\x7d' :: rest)

/-- Where what follows a text is never found within a longer one, the text is known from what it
begins. -/
theorem eq_of_append_eq {S : List Char → Prop} {P : Char → Prop}
    (hS : ∀ c cs r, (∀ d ∈ c :: cs, P d) → S r → ¬S (c :: cs ++ r)) {a b r r' : List Char}
    (ha : ∀ c ∈ a, P c) (hb : ∀ c ∈ b, P c) (hr : S r) (hr' : S r') (h : a ++ r = b ++ r') :
    a = b ∧ r = r' := by
  obtain ⟨x, rfl, rfl⟩ | ⟨x, rfl, rfl⟩ := List.append_eq_append_iff.mp h
  · cases x with
    | nil => simp
    | cons c cs => exact absurd hr (hS c cs r' (fun d hd => hb d (List.mem_append_right _ hd)) hr')
  · cases x with
    | nil => simp
    | cons c cs => exact absurd hr' (hS c cs r (fun d hd => ha d (List.mem_append_right _ hd)) hr)

theorem not_follows_append (c : Char) (cs r : List Char) (hc : ∀ d ∈ c :: cs, isMark d = false)
    (hr : Follows r) : ¬Follows (c :: cs ++ r) := by
  rw [List.forall_mem_cons] at hc
  intro h
  generalize hall : c :: cs ++ r = all at h
  cases h with
  | nil => simp at hall
  | comma rest =>
    obtain ⟨rfl, -⟩ := List.cons.inj hall
    simp [isMark] at hc
  | line rest =>
    obtain ⟨rfl, -⟩ := List.cons.inj hall
    simp [isMark] at hc
  | sign rest =>
    obtain ⟨rfl, htail⟩ := List.cons.inj hall
    cases cs with
    | nil => cases hr <;> simp at htail
    | cons d ds =>
      obtain ⟨rfl, -⟩ := List.cons.inj htail
      simp [isMark] at hc

theorem not_followsType_append (c : Char) (cs r : List Char)
    (hc : ∀ d ∈ c :: cs, isMark d = false) (hr : FollowsType r) :
    ¬FollowsType (c :: cs ++ r) := by
  rw [List.forall_mem_cons] at hc
  intro h
  generalize hall : c :: cs ++ r = all at h
  cases h with
  | brace rest =>
    obtain ⟨rfl, htail⟩ := List.cons.inj hall
    cases cs with
    | nil => cases hr; simp at htail
    | cons d ds =>
      obtain ⟨rfl, -⟩ := List.cons.inj htail
      simp [isMark] at hc

/-! ## Forms -/

/-- The forms of values. -/
inductive Form where
  | leaf
  | empty
  | unresolved
  | block
  deriving DecidableEq, Repr, Inhabited

/-- The form that characters begin with. -/
def Form.ofChars : List Char → Form
  | '\x7b' :: '\n' :: _ => .block
  | '\x7b' :: ' ' :: '\x7d' :: _ => .empty
  | '\x7b' :: _ => .unresolved
  | _ => .leaf

namespace Skeleton

/-- The form of a skeleton. -/
def form : Skeleton → Form
  | .leaf _ => .leaf
  | .empty => .empty
  | .unresolved _ => .unresolved
  | .block .. => .block

/-- The characters of a skeleton in a line of a given depth. -/
def chars (indent : String) (depth : Nat) (s : Skeleton) : List Char :=
  charsOf indent (s.tokens depth)

/-- No text in the skeleton holds a mark. -/
def IsUnmarked (s : Skeleton) : Prop :=
  ∀ t ∈ s.texts, Unmarked t

/-- What a value begins with tells its form. -/
theorem ofChars_append (indent : String) (depth : Nat) (s : Skeleton) (hs : s.IsUnmarked)
    {r : List Char} (hr : Follows r) : Form.ofChars (s.chars indent depth ++ r) = s.form := by
  cases s with
  | leaf t =>
    have ht : ∀ c ∈ t.toList, isMark c = false := hs t (by simp [texts])
    have hchars : (leaf t).chars indent depth = t.toList := by simp [chars, tokens, Token.chars]
    rw [hchars]
    cases hcs : t.toList with
    | nil => cases hr <;> rfl
    | cons c cs =>
      have hc : c ≠ '\x7b' := by
        rintro rfl
        simpa [isMark] using ht '\x7b' (by simp [hcs])
      simp [Form.ofChars, hc, form]
  | empty => rfl
  | unresolved type =>
    have ht : ∀ c ∈ type.toList, isMark c = false := hs type (by simp [texts])
    have hchars : (unresolved type).chars indent depth
        = '\x7b' :: ' ' :: (type.toList ++ [' ', '\x7d']) := by
      simp [chars, tokens, Token.chars]
    rw [hchars]
    cases hcs : type.toList with
    | nil => rfl
    | cons c cs =>
      have hc : c ≠ '\x7d' := by
        rintro rfl
        simpa [isMark] using ht '\x7d' (by simp [hcs])
      simp [Form.ofChars, hc, form]
  | block first rest => rfl

end Skeleton

/-! ## Reading -/

/-- The characters of an entry in a line of a given depth. -/
def Entry.chars (indent : String) (depth : Nat) (e : Entry) : List Char :=
  charsOf indent (e.tokens depth)

/-- What may follow an entry. -/
inductive FollowsEntry : List Char → Prop where
  | comma (rest : List Char) : FollowsEntry (',' :: rest)
  | line (rest : List Char) : FollowsEntry ('\n' :: rest)

theorem FollowsEntry.follows {r : List Char} (h : FollowsEntry r) : Follows r := by
  cases h with
  | comma rest => exact .comma rest
  | line rest => exact .line rest

theorem followsEntry_restTokens (indent : String) (depth : Nat) (entries : List Entry)
    (r : List Char) : FollowsEntry (charsOf indent (restTokens depth entries) ++ r) := by
  cases entries with
  | nil => exact .line _
  | cons e rest => exact .comma _

theorem Entry.chars_pair (indent : String) (depth : Nat) (key value : Skeleton) (r : List Char) :
    (Entry.pair key value).chars indent depth ++ r
      = key.chars indent depth ++ (' ' :: '=' :: ' ' :: (value.chars indent depth ++ r)) := by
  simp [Entry.chars, Entry.tokens, Skeleton.chars, Token.chars]

mutual

/-- A value is known from the characters that begin with it. -/
theorem Skeleton.eq_of_chars_append (indent : String) (depth : Nat) (a b : Skeleton)
    (ha : a.IsUnmarked) (hb : b.IsUnmarked) {r r' : List Char} (hr : Follows r)
    (hr' : Follows r') (h : a.chars indent depth ++ r = b.chars indent depth ++ r') :
    a = b ∧ r = r' := by
  have hform : a.form = b.form := by
    rw [← a.ofChars_append indent depth ha hr, h, b.ofChars_append indent depth hb hr']
  cases a with
  | leaf t =>
    cases b with
    | leaf t' =>
      have hcut := eq_of_append_eq not_follows_append (ha t (by simp [Skeleton.texts]))
        (hb t' (by simp [Skeleton.texts])) hr hr'
        (by simpa [Skeleton.chars, Skeleton.tokens, Token.chars] using h)
      exact ⟨congrArg Skeleton.leaf (String.toList_inj.mp hcut.1), hcut.2⟩
    | _ => simp [Skeleton.form] at hform
  | empty =>
    cases b with
    | empty => exact ⟨rfl, List.append_cancel_left h⟩
    | _ => simp [Skeleton.form] at hform
  | unresolved type =>
    cases b with
    | unresolved type' =>
      have hcut := eq_of_append_eq not_followsType_append (ha type (by simp [Skeleton.texts]))
        (hb type' (by simp [Skeleton.texts])) (.brace r) (.brace r')
        (by simpa [Skeleton.chars, Skeleton.tokens, Token.chars] using h)
      refine ⟨congrArg Skeleton.unresolved (String.toList_inj.mp hcut.1), ?_⟩
      simpa using hcut.2
    | _ => simp [Skeleton.form] at hform
  | block first rest =>
    cases b with
    | block first' rest' =>
      simp only [Skeleton.IsUnmarked, Skeleton.texts, List.mem_append] at ha hb
      have hentries :
          first.chars indent (depth + 1) ++ (charsOf indent (restTokens depth rest) ++ r)
            = first'.chars indent (depth + 1)
              ++ (charsOf indent (restTokens depth rest') ++ r') := by
        simpa [Skeleton.chars, Skeleton.tokens, Token.chars, Entry.chars] using h
      obtain ⟨rfl, htail⟩ := first.eq_of_chars_append indent (depth + 1) first'
        (fun t ht => ha t (.inl ht)) (fun t ht => hb t (.inl ht))
        (followsEntry_restTokens indent depth rest r)
        (followsEntry_restTokens indent depth rest' r') hentries
      obtain ⟨rfl, rfl⟩ := rest_eq_of_chars_append indent depth rest rest'
        (fun t ht => ha t (.inr ht)) (fun t ht => hb t (.inr ht)) htail
      exact ⟨rfl, rfl⟩
    | _ => simp [Skeleton.form] at hform

theorem Entry.eq_of_chars_append (indent : String) (depth : Nat) (a b : Entry)
    (ha : ∀ t ∈ a.texts, Unmarked t) (hb : ∀ t ∈ b.texts, Unmarked t) {r r' : List Char}
    (hr : FollowsEntry r) (hr' : FollowsEntry r')
    (h : a.chars indent depth ++ r = b.chars indent depth ++ r') : a = b ∧ r = r' := by
  cases a with
  | item s =>
    cases b with
    | item s' =>
      obtain ⟨rfl, rfl⟩ := s.eq_of_chars_append indent depth s' ha hb hr.follows hr'.follows h
      exact ⟨rfl, rfl⟩
    | pair key' value' =>
      simp only [Entry.texts, List.mem_append] at hb
      rw [Entry.chars_pair] at h
      obtain ⟨-, rfl⟩ := s.eq_of_chars_append indent depth key' ha (fun t ht => hb t (.inl ht))
        hr.follows (.sign _) h
      cases hr
  | pair key value =>
    simp only [Entry.texts, List.mem_append] at ha
    rw [Entry.chars_pair] at h
    cases b with
    | item s' =>
      obtain ⟨-, rfl⟩ := key.eq_of_chars_append indent depth s' (fun t ht => ha t (.inl ht)) hb
        (.sign _) hr'.follows h
      cases hr'
    | pair key' value' =>
      simp only [Entry.texts, List.mem_append] at hb
      rw [Entry.chars_pair] at h
      obtain ⟨rfl, hsign⟩ := key.eq_of_chars_append indent depth key'
        (fun t ht => ha t (.inl ht)) (fun t ht => hb t (.inl ht)) (.sign _) (.sign _) h
      obtain ⟨rfl, rfl⟩ := value.eq_of_chars_append indent depth value'
        (fun t ht => ha t (.inr ht)) (fun t ht => hb t (.inr ht)) hr.follows hr'.follows
        (by simpa using hsign)
      exact ⟨rfl, rfl⟩

theorem rest_eq_of_chars_append (indent : String) (depth : Nat) (a b : List Entry)
    (ha : ∀ t ∈ restTexts a, Unmarked t) (hb : ∀ t ∈ restTexts b, Unmarked t)
    {r r' : List Char}
    (h : charsOf indent (restTokens depth a) ++ r = charsOf indent (restTokens depth b) ++ r') :
    a = b ∧ r = r' := by
  cases a with
  | nil =>
    cases b with
    | nil => exact ⟨rfl, List.append_cancel_left h⟩
    | cons e' rest' => simp [restTokens, Token.chars] at h
  | cons e rest =>
    cases b with
    | nil => simp [restTokens, Token.chars] at h
    | cons e' rest' =>
      simp only [restTexts, List.mem_append] at ha hb
      have hentries : e.chars indent (depth + 1) ++ (charsOf indent (restTokens depth rest) ++ r)
          = e'.chars indent (depth + 1) ++ (charsOf indent (restTokens depth rest') ++ r') := by
        simpa [restTokens, Token.chars, Entry.chars] using h
      obtain ⟨rfl, htail⟩ := e.eq_of_chars_append indent (depth + 1) e'
        (fun t ht => ha t (.inl ht)) (fun t ht => hb t (.inl ht))
        (followsEntry_restTokens indent depth rest r)
        (followsEntry_restTokens indent depth rest' r') hentries
      obtain ⟨rfl, rfl⟩ := rest_eq_of_chars_append indent depth rest rest'
        (fun t ht => ha t (.inr ht)) (fun t ht => hb t (.inr ht)) htail
      exact ⟨rfl, rfl⟩

end

/-- Two values whose texts hold no marks have the same text at an indentation if and only if
they have the same skeleton. -/
theorem render_eq_iff_skeleton_eq {v w : Value} (hv : ∀ t ∈ v.texts, Unmarked t)
    (hw : ∀ t ∈ w.texts, Unmarked t) (indent : String) :
    (v.render indent).getD "" = (w.render indent).getD "" ↔ v.skeleton = w.skeleton := by
  rw [← String.toList_inj, toList_render_eq_tokens, toList_render_eq_tokens]
  constructor
  · intro h
    rw [← texts_skeleton] at hv hw
    refine (v.skeleton.eq_of_chars_append indent 0 w.skeleton hv hw .nil .nil ?_).1
    rw [List.append_nil, List.append_nil]
    exact h
  · intro h
    rw [tokens, tokens, h]

/-- An array of a number and a structure with a member that is absent. -/
def sampleArray : Value :=
  .array [.leaf (.int 1), .struct (.text "Point") [(.text "X", .leaf .null)]]

/-- A set of a text and a map to an empty text. -/
def sampleSet : Value :=
  .set [.leaf (.text "1"), .map [(.leaf (.text "X"), .leaf (.text ""))]]

/-- Two values of other types that have the same text, and so the same skeleton. -/
theorem render_eq_iff_skeleton_eq_sample :
    sampleArray.texts = ["1", "X", ""] ∧ sampleSet.texts = ["1", "X", ""]
    ∧ (sampleArray.render "  ").getD ""
        = "\x7b\n    1,\n    \x7b\n      X = \n    \x7d\n  \x7d"
    ∧ (sampleSet.render "  ").getD ""
        = "\x7b\n    1,\n    \x7b\n      X = \n    \x7d\n  \x7d"
    ∧ sampleArray.skeleton = sampleSet.skeleton := by
  have hv : sampleArray.texts = ["1", "X", ""] := rfl
  have hw : sampleSet.texts = ["1", "X", ""] := rfl
  have hunmarked : ∀ t ∈ ["1", "X", ""], Unmarked t := by simp [Unmarked, isMark]
  have htext : (sampleArray.render "  ").getD ""
      = "\x7b\n    1,\n    \x7b\n      X = \n    \x7d\n  \x7d" := by decide
  have htext' : (sampleSet.render "  ").getD ""
      = "\x7b\n    1,\n    \x7b\n      X = \n    \x7d\n  \x7d" := by decide
  exact ⟨hv, hw, htext, htext',
    (render_eq_iff_skeleton_eq (hv ▸ hunmarked) (hw ▸ hunmarked) "  ").mp
      (htext.trans htext'.symm)⟩

end Kismet.Value
