import Kismet.Path
set_option autoImplicit false

/-!
# Options: what to do with which assets

The text to match and the output directory may be given without a value.  Such
an option shows as an empty list, and a run fails where it needs the value.
-/

namespace Kismet

/-- The options of a run. -/
structure Options where
  /-- The directory of the asset documents. -/
  root : Path
  /-- The text that the path of a chosen asset contains. -/
  needle : Option String
  /-- The directory for what is written. -/
  out : Option Path
  list : Bool
  dump : Bool
  deriving DecidableEq, Repr, Inhabited

namespace Options

/-- The options for what was asked; whoever asks for nothing gets a dump. -/
def ofSwitches (root : Path) (needle : Option String) (out : Option Path) (list dump : Bool) :
    Options :=
  ⟨root, needle, out, list, dump || !list⟩

/-- The operations by name. -/
def operations (o : Options) : List String :=
  (if o.list then ["List"] else []) ++ (if o.dump then ["Dump"] else [])

/-- The names of the operations as one text. -/
def operationsText (o : Options) : String :=
  if o.operations.isEmpty then "None" else ", ".intercalate o.operations

/-- How an option shows that has no value. -/
def blank : String := "[]"

/-- The options as lines for a reader. -/
def describe (o : Options) : List String :=
  ["Asset root: " ++ o.root.display, "Asset match: " ++ o.needle.getD blank,
   "Output directory: " ++ (o.out.map Path.display).getD blank,
   "Operations: " ++ o.operationsText]

end Options

end Kismet
