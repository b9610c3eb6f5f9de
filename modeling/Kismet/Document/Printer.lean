import Kismet.Document.Display
set_option autoImplicit false

/-!
# Document: writing JSON

The JSON text of a document on one line, in ASCII only.
-/

namespace Kismet.Document.Printer

/-- The escape of a 16-bit unit. -/
def unit (n : Nat) : List Char :=
  '\\' :: 'u' :: Text.lowerHex 4 n

/-- A character of a string. -/
def char (c : Char) : List Char :=
  if c = '"' then ['\\', '"']
  else if c = '\\' then ['\\', '\\']
  else if 0x20 ≤ c.toNat ∧ c.toNat < 0x7F then [c]
  else if c.toNat < 0x10000 then unit c.toNat
  else
    let n := c.toNat - 0x10000
    unit (0xD800 + n / 0x400) ++ unit (0xDC00 + n % 0x400)

/-- A string in quotes. -/
def string (s : String) : String :=
  String.ofList ('"' :: s.toList.flatMap char ++ ['"'])

/-- How doubles are written in JSON. -/
def numberStyle : Binary64.Style :=
  { Binary64.plainStyle with infinity := "Infinity", notANumber := "NaN" }

/-- A scalar. -/
def scalar : Scalar → String
  | .null => "null"
  | .bool b => if b then "true" else "false"
  | .int n => toString n
  | .real x => numberStyle.write x
  | .text s => string s

mutual

/-- A document. -/
def document : Document → String
  | .scalar s => scalar s
  | .list items => "[" ++ ",".intercalate (documents items) ++ "]"
  | .object fields => "\x7b" ++ ",".intercalate (members fields) ++ "\x7d"

/-- The items of a list. -/
def documents : List Document → List String
  | [] => []
  | d :: rest => document d :: documents rest

/-- The fields of an object. -/
def members : List (String × Document) → List String
  | [] => []
  | (k, d) :: rest => (string k ++ ":" ++ document d) :: members rest

end

end Kismet.Document.Printer

namespace Kismet.Document

/-- The JSON text of a document. -/
def toJson (d : Document) : String :=
  Printer.document d

end Kismet.Document
