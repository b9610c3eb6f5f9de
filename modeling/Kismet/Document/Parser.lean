import Kismet.Document.Convert
set_option autoImplicit false

/-!
# Document: reading JSON

Documents are stored as JSON.  The words `NaN`, `Infinity` and `-Infinity` are
numbers too, a number with a point or an exponent is real and any other is
whole, and a repeated key keeps its first place and takes its last value.

Escapes give the 16-bit units of a string.  Half of a surrogate pair can be written in this
way, but it is no character: a string with one in it is told apart from texts by its own
fault, and what becomes of such a string is not followed.
-/

namespace Kismet.Document.Parser

/-- What a reader returns: the data and the characters after it. -/
abbrev Result (α : Type) := Except Fault (α × List Char)

/-- Blanks between the parts of a document. -/
def isGap (c : Char) : Bool :=
  c == ' ' || c == '\t' || c == '\n' || c == '\r'

/-- The characters after the blanks. -/
def skipGap (cs : List Char) : List Char :=
  cs.dropWhile isGap

/-! ## Strings -/

/-- The value of a hexadecimal digit. -/
def hexValue? (c : Char) : Option Nat :=
  if c.isDigit then some (c.toNat - 0x30)
  else if 'a' ≤ c ∧ c ≤ 'f' then some (c.toNat - 0x57)
  else if 'A' ≤ c ∧ c ≤ 'F' then some (c.toNat - 0x37)
  else none

/-- The value of four hexadecimal digits. -/
def unit? (a b c d : Char) : Option Nat :=
  match hexValue? a, hexValue? b, hexValue? c, hexValue? d with
  | some a, some b, some c, some d => some (((a * 16 + b) * 16 + c) * 16 + d)
  | _, _, _, _ => none

/-- The code point of a pair of 16-bit units. -/
def joinUnits (high low : Nat) : Nat :=
  0x10000 + (high - 0xD800) * 0x400 + (low - 0xDC00)

/-- The character of an escape of one letter. -/
def escaped? : Char → Option Char
  | '"' => some '"'
  | '\\' => some '\\'
  | '/' => some '/'
  | 'b' => some (Char.ofNat 0x8)
  | 'f' => some (Char.ofNat 0xC)
  | 'n' => some '\n'
  | 'r' => some '\r'
  | 't' => some '\t'
  | _ => none

/-- The unit is the first of a pair. -/
def isHigh (n : Nat) : Bool :=
  decide (0xD800 ≤ n) && decide (n < 0xDC00)

/-- The unit is the second of a pair. -/
def isLow (n : Nat) : Bool :=
  decide (0xDC00 ≤ n) && decide (n < 0xE000)

/-- The character of a unit that stands alone. -/
def single (n : Nat) : Except Fault Char :=
  if isHigh n || isLow n then .error .unpaired else .ok (Char.ofNat n)

/-- The rest of a string after its opening quote; `acc` holds what was read, last
character first. -/
def stringTail (acc : List Char) : List Char → Result String
  | [] => .error .notJson
  | '"' :: rest => .ok (String.ofList acc.reverse, rest)
  | '\\' :: 'u' :: a :: b :: c :: d :: '\\' :: 'u' :: e :: f :: g :: h :: rest =>
    match unit? a b c d, unit? e f g h with
    | some high, some low =>
      if isHigh high && isLow low then stringTail (Char.ofNat (joinUnits high low) :: acc) rest
      else
        match single high with
        | .error f => .error f
        | .ok x => stringTail (x :: acc) ('\\' :: 'u' :: e :: f :: g :: h :: rest)
    | _, _ => .error .notJson
  | '\\' :: 'u' :: a :: b :: c :: d :: rest =>
    match unit? a b c d with
    | some n =>
      match single n with
      | .error f => .error f
      | .ok x => stringTail (x :: acc) rest
    | none => .error .notJson
  | '\\' :: c :: rest =>
    match escaped? c with
    | some e => stringTail (e :: acc) rest
    | none => .error .notJson
  | c :: rest => if c.toNat < 0x20 then .error .notJson else stringTail (c :: acc) rest

/-! ## Numbers -/

/-- The digits before a point: a single zero, or all that stand at the front. -/
def wholePart : List Char → List Char
  | '0' :: _ => ['0']
  | cs => cs.takeWhile Char.isDigit

/-- The fraction digits after a point, and the characters after them. -/
def fraction : List Char → List Char × List Char
  | '.' :: rest =>
    let digits := rest.takeWhile Char.isDigit
    if digits.isEmpty then ([], '.' :: rest) else (digits, rest.dropWhile Char.isDigit)
  | cs => ([], cs)

/-- The exponent, if there is one, and the characters after it. -/
def exponent (cs : List Char) : Option Int × List Char :=
  match cs with
  | c :: rest =>
    if c = 'e' || c = 'E' then
      let (neg, body) := Text.Numeral.splitSign rest
      let digits := body.takeWhile Char.isDigit
      if digits.isEmpty then (none, cs)
      else
        (some (Binary64.signed neg (Text.Numeral.decimalValue digits)),
          body.dropWhile Char.isDigit)
    else (none, cs)
  | [] => (none, [])

/-- A number without its sign. -/
def number (neg : Bool) (cs : List Char) : Result Document :=
  let whole := wholePart cs
  let rest := cs.drop whole.length
  if whole.isEmpty then .error .notJson
  else
    let (places, rest) := fraction rest
    let (power, rest) := exponent rest
    if places.isEmpty && power.isNone then
      if Text.Numeral.maxDigits < whole.length then .error .badValue
      else .ok (.int (Binary64.signed neg (Text.Numeral.decimalValue whole)), rest)
    else
      let value := Text.Numeral.decimalValue (whole ++ places)
      .ok (.real (Binary64.ofDecimal neg value (power.getD 0 - (places.length : Int))), rest)

/-! ## Documents -/

/-- The words that stand for data. -/
def words : List (String × Document) :=
  [("null", .null), ("true", .bool true), ("false", .bool false), ("NaN", .real .nan),
   ("Infinity", .real (.inf false)), ("-Infinity", .real (.inf true))]

/-- A word, if one stands at the front. -/
def word? (cs : List Char) : Option (Document × List Char) :=
  words.findSome? fun w =>
    let chars := w.1.toList
    if chars.isPrefixOf cs then some (w.2, cs.drop chars.length) else none

/-- A scalar other than a string. -/
def plain (cs : List Char) : Result Document :=
  match word? cs with
  | some found => .ok found
  | none =>
    match cs with
    | '-' :: rest => number true rest
    | _ => number false cs

mutual

/-- A document at the front of the characters, in which `room` lists and objects may be
open at once. -/
def value : Nat → Nat → List Char → Result Document
  | 0, _, _ => .error .notJson
  | fuel + 1, room, cs =>
    match cs with
    | '"' :: rest =>
      match stringTail [] rest with
      | .error f => .error f
      | .ok (s, rest) => .ok (.text s, rest)
    | '[' :: rest =>
      match room with
      | 0 => .error .tooNested
      | room + 1 =>
        match skipGap rest with
        | ']' :: rest => .ok (.list [], rest)
        | rest => items fuel room [] rest
    | '\x7b' :: rest =>
      match room with
      | 0 => .error .tooNested
      | room + 1 =>
        match skipGap rest with
        | '\x7d' :: rest => .ok (.object [], rest)
        | rest => members fuel room [] rest
    | _ => plain cs

/-- The items of a list from here on; `acc` holds those before, last first. -/
def items : Nat → Nat → List Document → List Char → Result Document
  | 0, _, _, _ => .error .notJson
  | fuel + 1, room, acc, cs =>
    match value fuel room cs with
    | .error f => .error f
    | .ok (d, rest) =>
      match skipGap rest with
      | ']' :: rest => .ok (.list (d :: acc).reverse, rest)
      | ',' :: rest => items fuel room (d :: acc) (skipGap rest)
      | _ => .error .notJson

/-- The fields of an object from here on, after the fields `acc`. -/
def members : Nat → Nat → Fields → List Char → Result Document
  | 0, _, _, _ => .error .notJson
  | fuel + 1, room, acc, cs =>
    match cs with
    | '"' :: rest =>
      match stringTail [] rest with
      | .error f => .error f
      | .ok (key, rest) =>
        match skipGap rest with
        | ':' :: rest =>
          match value fuel room (skipGap rest) with
          | .error f => .error f
          | .ok (d, rest) =>
            match skipGap rest with
            | '\x7d' :: rest => .ok (.object (Fields.set acc key d), rest)
            | ',' :: rest => members fuel room (Fields.set acc key d) (skipGap rest)
            | _ => .error .notJson
        | _ => .error .notJson
    | _ => .error .notJson

end

/-- Reads a text that holds one document and blanks around it.  Every step but
the last consumes a character, so twice their number bounds the steps. -/
def document (s : String) (limits : Limits := {}) : Except Fault Document :=
  let cs := s.toList
  match value (2 * cs.length + 2) (limits.brackets.getD cs.length) (skipGap cs) with
  | .error f => .error f
  | .ok (d, rest) => if (skipGap rest).isEmpty then .ok d else .error .notJson

end Kismet.Document.Parser

namespace Kismet.Document

/-- Reads a document from its JSON text. -/
def parse (s : String) (limits : Limits := {}) : Except Fault Document :=
  Parser.document s limits

end Kismet.Document
