import Kismet.Value.Render
set_option autoImplicit false

/-!
# Outline: indentation of property values

The text of a value is a sequence of tokens: texts, braces, and line breaks that say how deep
the line after them is nested.  Which tokens a value is written as does not depend on the
indentation that its block starts at (`toList_render`), so the indentation is the same on every
line (`render_indentation`).

What of a value its tokens depend on is its skeleton: texts of scalars, names, and how entries
are nested.
-/

namespace Kismet.Value

/-! ## Skeletons -/

mutual

/-- What the text of a value shows. -/
inductive Skeleton where
  /-- Data without parts, by its text. -/
  | leaf (text : String)
  /-- A container without entries. -/
  | empty
  /-- A structure whose members are not known, by its type. -/
  | unresolved (type : String)
  /-- A container with entries. -/
  | block (first : Entry) (rest : List Entry)

/-- An entry of a container. -/
inductive Entry where
  | item (s : Skeleton)
  | pair (key value : Skeleton)

end

/-- The skeleton of a container. -/
def Skeleton.ofEntries : List Entry → Skeleton
  | [] => .empty
  | first :: rest => .block first rest

mutual

/-- The skeleton of a value.  It tells neither arrays from sets nor structures from maps. -/
def skeleton : Value → Skeleton
  | .leaf s => .leaf ((leafText? s).getD "")
  | .unresolved type => .unresolved type.display
  | .struct _ members => .ofEntries (memberEntries members)
  | .array items => .ofEntries (itemEntries items)
  | .set items => .ofEntries (itemEntries items)
  | .map entries => .ofEntries (mapEntries entries)

/-- The entries of an array or set. -/
def itemEntries : List Value → List Entry
  | [] => []
  | v :: rest => .item v.skeleton :: itemEntries rest

/-- The entries of a structure: a member is a pair of its name and its value. -/
def memberEntries : List (Document × Value) → List Entry
  | [] => []
  | (name, v) :: rest => .pair (.leaf name.display) v.skeleton :: memberEntries rest

/-- The entries of a map. -/
def mapEntries : List (Value × Value) → List Entry
  | [] => []
  | (k, v) :: rest => .pair k.skeleton v.skeleton :: mapEntries rest

end

/-! ## Tokens -/

/-- What the text of a value consists of. -/
inductive Token where
  | text (s : String)
  /-- The brace that opens a block. -/
  | opening
  /-- The line break in front of an entry. -/
  | entry (depth : Nat)
  /-- The line break in front of the brace that closes a block, and the brace. -/
  | closing (depth : Nat)
  deriving DecidableEq, Repr, Inhabited

/-- What a line of a given depth begins with: two blanks for each level after the indentation of
the whole. -/
def margin (indent : String) (depth : Nat) : String :=
  indent ++ String.ofList (List.replicate (2 * depth) ' ')

/-- The characters of a token. -/
def Token.chars (indent : String) : Token → List Char
  | .text s => s.toList
  | .opening => ['\x7b']
  | .entry depth => '\n' :: (margin indent depth).toList
  | .closing depth => '\n' :: (margin indent depth).toList ++ ['\x7d']

/-- The characters of tokens. -/
def charsOf (indent : String) (tokens : List Token) : List Char :=
  tokens.flatMap (Token.chars indent)

mutual

/-- The tokens of a value whose line has a given depth. -/
def Skeleton.tokens (depth : Nat) : Skeleton → List Token
  | .leaf t => [.text t]
  | .empty => [.text "\x7b \x7d"]
  | .unresolved type => [.text ("\x7b " ++ type ++ " \x7d")]
  | .block first rest =>
    .opening :: .entry (depth + 1) :: first.tokens (depth + 1) ++ restTokens depth rest

/-- The tokens of an entry whose line has a given depth. -/
def Entry.tokens (depth : Nat) : Entry → List Token
  | .item s => s.tokens depth
  | .pair key value => key.tokens depth ++ .text " = " :: value.tokens depth

/-- The tokens of a block after one of its entries. -/
def restTokens (depth : Nat) : List Entry → List Token
  | [] => [.closing depth]
  | e :: rest => .text "," :: .entry (depth + 1) :: e.tokens (depth + 1) ++ restTokens depth rest

end

/-- The tokens of a value. -/
def tokens (v : Value) : List Token :=
  v.skeleton.tokens 0

@[simp] theorem charsOf_nil (indent : String) : charsOf indent [] = [] := rfl

@[simp] theorem charsOf_cons (indent : String) (t : Token) (rest : List Token) :
    charsOf indent (t :: rest) = t.chars indent ++ charsOf indent rest := rfl

@[simp] theorem charsOf_append (indent : String) (a b : List Token) :
    charsOf indent (a ++ b) = charsOf indent a ++ charsOf indent b :=
  List.flatMap_append

/-! ## Values are written as their tokens -/

theorem margin_succ (indent : String) (depth : Nat) :
    margin indent depth ++ "  " = margin indent (depth + 1) := by
  have hblanks : "  " = String.ofList (List.replicate 2 ' ') := rfl
  rw [margin, margin, String.append_assoc, hblanks, ← String.ofList_append,
    List.replicate_append_replicate, Nat.mul_succ]

/-- The lines of a block from one of its entries on. -/
theorem toList_blockLines (indent : String) (depth : Nat) {texts : List String} :
    ∀ {entries : List Entry} (first : String),
    texts.map String.toList = entries.map (fun e => charsOf indent (e.tokens (depth + 1))) →
    ("\n".intercalate (blockLines (margin indent depth) (first :: texts)
        ++ [margin indent depth ++ "\x7d"])).toList
      = (margin indent (depth + 1)).toList ++ first.toList
        ++ charsOf indent (restTokens depth entries) := by
  induction texts with
  | nil =>
    intro entries first h
    obtain rfl : entries = [] := by simpa using h
    simp [blockLines, margin_succ, restTokens, Token.chars]
  | cons text texts ih =>
    intro entries first h
    cases entries with
    | nil => simp at h
    | cons e entries =>
      rw [List.map_cons, List.map_cons, List.cons.injEq] at h
      have hrest := ih text h.2
      have hlines : blockLines (margin indent depth) (first :: text :: texts)
          = (margin indent depth ++ "  " ++ first ++ ",")
            :: blockLines (margin indent depth) (text :: texts) := rfl
      rw [hlines, List.cons_append, String.intercalate_cons_of_ne_nil (by simp),
        String.toList_append, hrest]
      simp [margin_succ, restTokens, Token.chars, h.1]

/-- A block is written as the tokens of a container. -/
theorem toList_block (indent : String) (depth : Nat) {texts : List String} {entries : List Entry}
    (h : texts.map String.toList
      = entries.map fun e => charsOf indent (e.tokens (depth + 1))) :
    (block (margin indent depth) texts).toList
      = charsOf indent ((Skeleton.ofEntries entries).tokens depth) := by
  cases texts with
  | nil =>
    obtain rfl : entries = [] := by simpa using h
    simp [block, Skeleton.ofEntries, Skeleton.tokens, Token.chars]
  | cons text texts =>
    cases entries with
    | nil => simp at h
    | cons e entries =>
      rw [List.map_cons, List.map_cons, List.cons.injEq] at h
      rw [block, if_neg (by simp), List.cons_append, String.intercalate_cons_of_ne_nil (by simp),
        String.toList_append, toList_blockLines indent depth text h.2]
      simp [Skeleton.ofEntries, Skeleton.tokens, Token.chars, h.1]

mutual

/-- The text of a value in a line of a given depth. -/
theorem toList_render (indent : String) (depth : Nat) (v : Value) :
    ((v.render (margin indent depth)).getD "").toList
      = charsOf indent (v.skeleton.tokens depth) := by
  cases v with
  | leaf s => simp [render, skeleton, Skeleton.tokens, Token.chars]
  | unresolved type => simp [render, skeleton, Skeleton.tokens, Token.chars]
  | struct type members =>
    rw [render, margin_succ]
    exact toList_block indent depth (toList_renderMembers indent (depth + 1) members)
  | array items =>
    rw [render, margin_succ]
    exact toList_block indent depth (toList_renderItems indent (depth + 1) items)
  | set items =>
    rw [render, margin_succ]
    exact toList_block indent depth (toList_renderItems indent (depth + 1) items)
  | map entries =>
    rw [render, margin_succ]
    exact toList_block indent depth (toList_renderEntries indent (depth + 1) entries)

theorem toList_renderItems (indent : String) (depth : Nat) (items : List Value) :
    (renderItems (margin indent depth) items).map String.toList
      = (itemEntries items).map fun e => charsOf indent (e.tokens depth) := by
  cases items with
  | nil => rfl
  | cons v rest =>
    simp only [renderItems, itemEntries, List.map_cons, Entry.tokens,
      toList_render indent depth v, toList_renderItems indent depth rest]

theorem toList_renderMembers (indent : String) (depth : Nat) (members : List (Document × Value)) :
    (renderMembers (margin indent depth) members).map String.toList
      = (memberEntries members).map fun e => charsOf indent (e.tokens depth) := by
  cases members with
  | nil => rfl
  | cons m rest =>
    obtain ⟨name, v⟩ := m
    simp only [renderMembers, memberEntries, List.map_cons, Entry.tokens, Skeleton.tokens,
      String.toList_append, toList_render indent depth v, toList_renderMembers indent depth rest]
    simp [Token.chars]

theorem toList_renderEntries (indent : String) (depth : Nat) (entries : List (Value × Value)) :
    (renderEntries (margin indent depth) entries).map String.toList
      = (mapEntries entries).map fun e => charsOf indent (e.tokens depth) := by
  cases entries with
  | nil => rfl
  | cons m rest =>
    obtain ⟨k, v⟩ := m
    simp only [renderEntries, mapEntries, List.map_cons, Entry.tokens, String.toList_append,
      toList_render indent depth k, toList_render indent depth v,
      toList_renderEntries indent depth rest]
    simp [Token.chars]

end

theorem toList_render_eq_tokens (indent : String) (v : Value) :
    ((v.render indent).getD "").toList = charsOf indent v.tokens := by
  have hzero : margin indent 0 = indent := by simp [margin]
  rw [tokens, ← toList_render indent 0 v, hzero]

/-! ## Texts in a value -/

mutual

/-- The texts in a value: of its scalars, the names of members, and the types of structures whose
members are not known. -/
def texts : Value → List String
  | .leaf s => [(leafText? s).getD ""]
  | .unresolved type => [type.display]
  | .struct _ members => memberTexts members
  | .array items => itemTexts items
  | .set items => itemTexts items
  | .map entries => mapTexts entries

/-- The texts in the items of an array or set. -/
def itemTexts : List Value → List String
  | [] => []
  | v :: rest => v.texts ++ itemTexts rest

/-- The texts in the members of a structure. -/
def memberTexts : List (Document × Value) → List String
  | [] => []
  | (name, v) :: rest => name.display :: v.texts ++ memberTexts rest

/-- The texts in the entries of a map. -/
def mapTexts : List (Value × Value) → List String
  | [] => []
  | (k, v) :: rest => k.texts ++ v.texts ++ mapTexts rest

end

mutual

/-- The texts in a skeleton. -/
def Skeleton.texts : Skeleton → List String
  | .leaf t => [t]
  | .empty => []
  | .unresolved type => [type]
  | .block first rest => first.texts ++ restTexts rest

/-- The texts in an entry. -/
def Entry.texts : Entry → List String
  | .item s => s.texts
  | .pair key value => key.texts ++ value.texts

/-- The texts in entries. -/
def restTexts : List Entry → List String
  | [] => []
  | e :: rest => e.texts ++ restTexts rest

end

theorem texts_ofEntries (entries : List Entry) :
    (Skeleton.ofEntries entries).texts = restTexts entries := by
  cases entries <;> rfl

mutual

/-- A skeleton keeps the texts. -/
theorem texts_skeleton (v : Value) : v.skeleton.texts = v.texts := by
  cases v with
  | leaf s => rfl
  | unresolved type => rfl
  | struct type members => rw [skeleton, texts_ofEntries, texts, restTexts_memberEntries members]
  | array items => rw [skeleton, texts_ofEntries, texts, restTexts_itemEntries items]
  | set items => rw [skeleton, texts_ofEntries, texts, restTexts_itemEntries items]
  | map entries => rw [skeleton, texts_ofEntries, texts, restTexts_mapEntries entries]

theorem restTexts_itemEntries (items : List Value) :
    restTexts (itemEntries items) = itemTexts items := by
  cases items with
  | nil => rfl
  | cons v rest =>
    rw [itemEntries, restTexts, Entry.texts, itemTexts, texts_skeleton v,
      restTexts_itemEntries rest]

theorem restTexts_memberEntries (members : List (Document × Value)) :
    restTexts (memberEntries members) = memberTexts members := by
  cases members with
  | nil => rfl
  | cons m rest =>
    obtain ⟨name, v⟩ := m
    rw [memberEntries, restTexts, Entry.texts, Skeleton.texts, memberTexts, texts_skeleton v,
      restTexts_memberEntries rest]
    rfl

theorem restTexts_mapEntries (entries : List (Value × Value)) :
    restTexts (mapEntries entries) = mapTexts entries := by
  cases entries with
  | nil => rfl
  | cons m rest =>
    obtain ⟨k, v⟩ := m
    rw [mapEntries, restTexts, Entry.texts, mapTexts, texts_skeleton k, texts_skeleton v,
      restTexts_mapEntries rest]

end

/-! ## Line breaks -/

/-- The token is not a text that holds a line break. -/
def Token.isUnbroken : Token → Bool
  | .text s => !s.toList.contains '\n'
  | _ => true

mutual

/-- Only tokens that are line breaks break lines. -/
theorem Skeleton.isUnbroken_tokens (depth : Nat) (s : Skeleton)
    (h : ∀ t ∈ s.texts, '\n' ∉ t.toList) : (s.tokens depth).all Token.isUnbroken = true := by
  cases s with
  | leaf t => simpa [Skeleton.tokens, Token.isUnbroken] using h t (by simp [Skeleton.texts])
  | empty => simp [Skeleton.tokens, Token.isUnbroken]
  | unresolved type =>
    simpa [Skeleton.tokens, Token.isUnbroken] using h type (by simp [Skeleton.texts])
  | block first rest =>
    simp only [Skeleton.texts, List.mem_append] at h
    have hfirst := first.isUnbroken_tokens (depth + 1) fun t ht => h t (.inl ht)
    have hrest := isUnbroken_restTokens depth rest fun t ht => h t (.inr ht)
    simp [Skeleton.tokens, Token.isUnbroken, hfirst, hrest]

theorem Entry.isUnbroken_tokens (depth : Nat) (e : Entry)
    (h : ∀ t ∈ e.texts, '\n' ∉ t.toList) : (e.tokens depth).all Token.isUnbroken = true := by
  cases e with
  | item s => exact s.isUnbroken_tokens depth h
  | pair key value =>
    simp only [Entry.texts, List.mem_append] at h
    have hkey := key.isUnbroken_tokens depth fun t ht => h t (.inl ht)
    have hvalue := value.isUnbroken_tokens depth fun t ht => h t (.inr ht)
    simp [Entry.tokens, Token.isUnbroken, hkey, hvalue]

theorem isUnbroken_restTokens (depth : Nat) (entries : List Entry)
    (h : ∀ t ∈ restTexts entries, '\n' ∉ t.toList) :
    (restTokens depth entries).all Token.isUnbroken = true := by
  cases entries with
  | nil => rfl
  | cons e rest =>
    simp only [restTexts, List.mem_append] at h
    have he := e.isUnbroken_tokens (depth + 1) fun t ht => h t (.inl ht)
    have hrest := isUnbroken_restTokens depth rest fun t ht => h t (.inr ht)
    simp [restTokens, Token.isUnbroken, he, hrest]

end

/-- The character, with `indent` behind it if it is a line break. -/
def afterBreak (indent : String) (c : Char) : List Char :=
  if c = '\n' then '\n' :: indent.toList else [c]

/-- The text with `indent` behind every line break. -/
def indentBreaks (indent : String) (s : String) : String :=
  String.ofList (s.toList.flatMap (afterBreak indent))

theorem flatMap_afterBreak_of_not_mem (indent : String) {cs : List Char} (h : '\n' ∉ cs) :
    cs.flatMap (afterBreak indent) = cs := by
  induction cs with
  | nil => rfl
  | cons c rest ih =>
    rw [List.mem_cons, not_or] at h
    rw [List.flatMap_cons, ih h.2, afterBreak, if_neg (Ne.symm h.1), List.singleton_append]

theorem Token.chars_eq_flatMap (indent : String) {t : Token} (h : t.isUnbroken = true) :
    t.chars indent = (t.chars "").flatMap (afterBreak indent) := by
  have hblanks : ∀ depth, '\n' ∉ List.replicate (2 * depth) ' ' := by
    intro depth hmem
    simpa using (List.mem_replicate.mp hmem).2
  cases t with
  | text s =>
    have hs : '\n' ∉ s.toList := by simpa [isUnbroken] using h
    exact (flatMap_afterBreak_of_not_mem indent hs).symm
  | opening => simp [chars, afterBreak]
  | entry depth =>
    simp [chars, margin, flatMap_afterBreak_of_not_mem indent (hblanks depth), afterBreak]
  | closing depth =>
    simp [chars, margin, flatMap_afterBreak_of_not_mem indent (hblanks depth), afterBreak]

/-- Tokens at an indentation are the tokens without it, indented after every line break. -/
theorem charsOf_eq_flatMap (indent : String) {ts : List Token}
    (h : ts.all Token.isUnbroken = true) :
    charsOf indent ts = (charsOf "" ts).flatMap (afterBreak indent) := by
  induction ts with
  | nil => rfl
  | cons t rest ih =>
    rw [List.all_cons, Bool.and_eq_true] at h
    rw [charsOf_cons, charsOf_cons, List.flatMap_append, t.chars_eq_flatMap indent h.1, ih h.2]

/-- A value has a text or not, whatever the indentation. -/
theorem isSome_render (a b : String) (v : Value) : (v.render a).isSome = (v.render b).isSome := by
  cases v <;> rfl

theorem render_eq_map_indentBreaks {v : Value} (h : ∀ t ∈ v.texts, '\n' ∉ t.toList)
    (indent : String) : v.render indent = (v.render "").map (indentBreaks indent) := by
  have hunbroken : v.tokens.all Token.isUnbroken = true :=
    v.skeleton.isUnbroken_tokens 0 (by rwa [texts_skeleton])
  have htext : (v.render indent).getD "" = indentBreaks indent ((v.render "").getD "") := by
    rw [← String.toList_inj, indentBreaks, String.toList_ofList, toList_render_eq_tokens,
      toList_render_eq_tokens, charsOf_eq_flatMap indent hunbroken]
  have hsome := isSome_render indent "" v
  cases ha : v.render indent with
  | none =>
    have hb : v.render "" = none := by simpa [ha] using hsome
    rw [hb]
    rfl
  | some a =>
    rw [ha] at hsome htext
    obtain ⟨b, hb⟩ := Option.isSome_iff_exists.mp hsome.symm
    rw [hb] at htext ⊢
    exact congrArg some htext

/-! ## Alignment -/

/-- Goes through tokens, `current` being the depth of the line and `opened` the depths of the
lines that opened the blocks around, the innermost one first.  The line of an entry is as deep
as there are blocks around it, and the line of a closing brace as deep as the line that opened
the block. -/
def aligned (current : Nat) : List Nat → List Token → Bool
  | opened, [] => opened.isEmpty
  | opened, .text _ :: rest => aligned current opened rest
  | opened, .opening :: rest => aligned current (current :: opened) rest
  | opened, .entry depth :: rest => depth == opened.length && aligned depth opened rest
  | [], .closing _ :: _ => false
  | line :: opened, .closing depth :: rest => depth == line && aligned depth opened rest

mutual

/-- The tokens of a value leave no block open and end in a line as deep as they began. -/
theorem Skeleton.aligned_tokens (opened : List Nat) (s : Skeleton) (rest : List Token) :
    aligned opened.length opened (s.tokens opened.length ++ rest)
      = aligned opened.length opened rest := by
  cases s with
  | leaf t => rfl
  | empty => rfl
  | unresolved type => rfl
  | block first entries =>
    have hfirst := first.aligned_tokens (opened.length :: opened)
      (restTokens opened.length entries ++ rest)
    have hrest := aligned_restTokens opened entries rest
    rw [List.length_cons] at hfirst
    simp [Skeleton.tokens, aligned, hfirst, hrest]

theorem Entry.aligned_tokens (opened : List Nat) (e : Entry) (rest : List Token) :
    aligned opened.length opened (e.tokens opened.length ++ rest)
      = aligned opened.length opened rest := by
  cases e with
  | item s => exact s.aligned_tokens opened rest
  | pair key value =>
    rw [Entry.tokens, List.append_assoc, key.aligned_tokens opened]
    exact value.aligned_tokens opened rest

theorem aligned_restTokens (opened : List Nat) (entries : List Entry) (rest : List Token) :
    aligned (opened.length + 1) (opened.length :: opened)
        (restTokens opened.length entries ++ rest)
      = aligned opened.length opened rest := by
  cases entries with
  | nil => simp [restTokens, aligned]
  | cons e entries =>
    have he := e.aligned_tokens (opened.length :: opened)
      (restTokens opened.length entries ++ rest)
    have hrest := aligned_restTokens opened entries rest
    rw [List.length_cons] at he
    simp [restTokens, aligned, he, hrest]

end

/-! ## Lines of entries -/

mutual

/-- The depths of the entries of a value, in order, its own entries being of a given depth. -/
def entryDepths (depth : Nat) : Value → List Nat
  | .leaf _ => []
  | .unresolved _ => []
  | .struct _ members => memberDepths depth members
  | .array items => itemDepths depth items
  | .set items => itemDepths depth items
  | .map entries => mapDepths depth entries

/-- The depths of items and of the entries in them. -/
def itemDepths (depth : Nat) : List Value → List Nat
  | [] => []
  | v :: rest => depth :: v.entryDepths (depth + 1) ++ itemDepths depth rest

/-- The depths of members and of the entries in them. -/
def memberDepths (depth : Nat) : List (Document × Value) → List Nat
  | [] => []
  | (_, v) :: rest => depth :: v.entryDepths (depth + 1) ++ memberDepths depth rest

/-- The depths of the entries of a map and of the entries in them. -/
def mapDepths (depth : Nat) : List (Value × Value) → List Nat
  | [] => []
  | (k, v) :: rest =>
    depth :: k.entryDepths (depth + 1) ++ v.entryDepths (depth + 1) ++ mapDepths depth rest

end

/-- The depth of the line of an entry; other tokens begin none. -/
def Token.entryDepth? : Token → Option Nat
  | .entry depth => some depth
  | _ => none

/-- The depths of the lines of entries. -/
def lineDepths (ts : List Token) : List Nat :=
  ts.filterMap Token.entryDepth?

@[simp] theorem lineDepths_append (a b : List Token) :
    lineDepths (a ++ b) = lineDepths a ++ lineDepths b :=
  List.filterMap_append

theorem lineDepths_restTokens (depth : Nat) (entries : List Entry) :
    lineDepths (restTokens depth entries)
      = entries.flatMap fun e => (depth + 1) :: lineDepths (e.tokens (depth + 1)) := by
  induction entries with
  | nil => rfl
  | cons e rest ih =>
    have htokens : restTokens depth (e :: rest)
        = [.text ",", .entry (depth + 1)] ++ e.tokens (depth + 1) ++ restTokens depth rest := rfl
    rw [htokens, lineDepths_append, lineDepths_append, ih]
    rfl

theorem lineDepths_ofEntries (depth : Nat) (entries : List Entry) :
    lineDepths ((Skeleton.ofEntries entries).tokens depth)
      = entries.flatMap fun e => (depth + 1) :: lineDepths (e.tokens (depth + 1)) := by
  cases entries with
  | nil => rfl
  | cons e rest =>
    have htokens : (Skeleton.ofEntries (e :: rest)).tokens depth
        = [.opening, .entry (depth + 1)] ++ e.tokens (depth + 1) ++ restTokens depth rest := rfl
    rw [htokens, lineDepths_append, lineDepths_append, lineDepths_restTokens]
    rfl

theorem lineDepths_pair (depth : Nat) (key value : Skeleton) :
    lineDepths ((Entry.pair key value).tokens depth)
      = lineDepths (key.tokens depth) ++ lineDepths (value.tokens depth) := by
  rw [Entry.tokens, lineDepths_append]
  rfl

mutual

/-- The lines of entries are as deep as the entries. -/
theorem lineDepths_skeleton (depth : Nat) (v : Value) :
    lineDepths (v.skeleton.tokens depth) = v.entryDepths (depth + 1) := by
  cases v with
  | leaf s => rfl
  | unresolved type => rfl
  | struct type members =>
    rw [skeleton, lineDepths_ofEntries, entryDepths, lineDepths_memberEntries (depth + 1) members]
  | array items =>
    rw [skeleton, lineDepths_ofEntries, entryDepths, lineDepths_itemEntries (depth + 1) items]
  | set items =>
    rw [skeleton, lineDepths_ofEntries, entryDepths, lineDepths_itemEntries (depth + 1) items]
  | map entries =>
    rw [skeleton, lineDepths_ofEntries, entryDepths, lineDepths_mapEntries (depth + 1) entries]

theorem lineDepths_itemEntries (depth : Nat) (items : List Value) :
    (itemEntries items).flatMap (fun e => depth :: lineDepths (e.tokens depth))
      = itemDepths depth items := by
  cases items with
  | nil => rfl
  | cons v rest =>
    rw [itemEntries, List.flatMap_cons, itemDepths, lineDepths_itemEntries depth rest,
      Entry.tokens, lineDepths_skeleton depth v]

theorem lineDepths_memberEntries (depth : Nat) (members : List (Document × Value)) :
    (memberEntries members).flatMap (fun e => depth :: lineDepths (e.tokens depth))
      = memberDepths depth members := by
  cases members with
  | nil => rfl
  | cons m rest =>
    obtain ⟨name, v⟩ := m
    rw [memberEntries, List.flatMap_cons, memberDepths, lineDepths_memberEntries depth rest,
      lineDepths_pair, lineDepths_skeleton depth v]
    rfl

theorem lineDepths_mapEntries (depth : Nat) (entries : List (Value × Value)) :
    (mapEntries entries).flatMap (fun e => depth :: lineDepths (e.tokens depth))
      = mapDepths depth entries := by
  cases entries with
  | nil => rfl
  | cons m rest =>
    obtain ⟨k, v⟩ := m
    rw [mapEntries, List.flatMap_cons, mapDepths, lineDepths_mapEntries depth rest,
      lineDepths_pair, lineDepths_skeleton depth k, lineDepths_skeleton depth v]
    rfl

end

/-! ## Indentation -/

/-- The text of a value at an indentation is its text without it, with the indentation inserted
after every line break.  It consists of the tokens of the value: the lines of entries are as
deep as the entries, and so begin with the indentation and two blanks for each block around the
entry; and a closing brace stands as far to the right as the line that opened its block. -/
theorem render_indentation {v : Value} (h : ∀ t ∈ v.texts, '\n' ∉ t.toList) (indent : String) :
    v.render indent = (v.render "").map (indentBreaks indent)
    ∧ ((v.render indent).getD "").toList = charsOf indent v.tokens
    ∧ lineDepths v.tokens = v.entryDepths 1
    ∧ aligned 0 [] v.tokens = true := by
  refine ⟨render_eq_map_indentBreaks h indent, toList_render_eq_tokens indent v,
    lineDepths_skeleton 0 v, ?_⟩
  have haligned := v.skeleton.aligned_tokens [] []
  rwa [List.append_nil] at haligned

/-- A map from an array to a structure: both the key and the value are blocks. -/
def sampleMap : Value :=
  .map [(.array [.leaf (.int 1)], .struct (.text "Point") [(.text "X", .leaf (.text "left"))])]

/-- The brace that closes the key and the brace that opens the value stand in one line, which
is as deep as the line that opened the key. -/
theorem render_indentation_sample :
    sampleMap.texts = ["1", "X", "left"]
    ∧ sampleMap.render "\t" = (sampleMap.render "").map (indentBreaks "\t")
    ∧ sampleMap.tokens
        = [.opening, .entry 1, .opening, .entry 2, .text "1", .closing 1, .text " = ", .opening,
            .entry 2, .text "X", .text " = ", .text "left", .closing 1, .closing 0]
    ∧ lineDepths sampleMap.tokens = [1, 2, 2]
    ∧ aligned 0 [] sampleMap.tokens = true := by
  have htexts : sampleMap.texts = ["1", "X", "left"] := rfl
  obtain ⟨hindent, -, hlines, haligned⟩ :=
    render_indentation (v := sampleMap) (by rw [htexts]; decide) "\t"
  exact ⟨htexts, hindent, rfl, hlines, haligned⟩

end Kismet.Value
