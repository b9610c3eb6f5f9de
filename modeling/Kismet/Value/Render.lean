import Kismet.Value.Basic
set_option autoImplicit false

/-!
# Value: text of property values

A container is a block in braces with one entry to a line, indented by two
spaces more than the block; an empty container has its braces on one line.
Rendering never fails: a structure without known members shows its type.
-/

namespace Kismet.Value

/-- The text of a real number; whole values have no fraction. -/
def realText (x : Binary64) : String :=
  let text := x.display.toList
  match text.reverse with
  | '0' :: '.' :: front => String.ofList front.reverse
  | _ => String.ofList text

/-- The text of a scalar; an absent value has none. -/
def leafText? : Scalar → Option String
  | .null => none
  | .real x => some (realText x)
  | s => some s.display

/-- The entries of a block, each on its own line, with commas between them. -/
def blockLines (indent : String) : List String → List String
  | [] => []
  | [e] => [indent ++ "  " ++ e]
  | e :: rest => (indent ++ "  " ++ e ++ ",") :: blockLines indent rest

/-- A block of entries. -/
def block (indent : String) (entries : List String) : String :=
  if entries.isEmpty then "\x7b \x7d"
  else "\n".intercalate ("\x7b" :: blockLines indent entries ++ [indent ++ "\x7d"])

mutual

/-- The text of a value whose block starts at `indent`; an absent value has
none. -/
def render (indent : String) : Value → Option String
  | .leaf s => leafText? s
  | .unresolved type => some ("\x7b " ++ type.display ++ " \x7d")
  | .struct _ members => some (block indent (renderMembers (indent ++ "  ") members))
  | .array items => some (block indent (renderItems (indent ++ "  ") items))
  | .set items => some (block indent (renderItems (indent ++ "  ") items))
  | .map entries => some (block indent (renderEntries (indent ++ "  ") entries))

/-- The texts of the items of an array or set. -/
def renderItems (indent : String) : List Value → List String
  | [] => []
  | v :: rest => (render indent v).getD "" :: renderItems indent rest

/-- The texts of the members of a structure. -/
def renderMembers (indent : String) : List (Document × Value) → List String
  | [] => []
  | (name, v) :: rest =>
    (name.display ++ " = " ++ (render indent v).getD "") :: renderMembers indent rest

/-- The texts of the entries of a map. -/
def renderEntries (indent : String) : List (Value × Value) → List String
  | [] => []
  | (k, v) :: rest =>
    ((render indent k).getD "" ++ " = " ++ (render indent v).getD "") :: renderEntries indent rest

end

end Kismet.Value
