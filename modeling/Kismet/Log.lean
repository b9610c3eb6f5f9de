import Kismet.Fault
set_option autoImplicit false

/-!
# Log: what is reported on the way

Log entries are kept as data; what they look like is decided once, at the end.
-/

namespace Kismet.Log

/-- How important an entry is. -/
inductive Level where
  | debug
  | info
  | warning
  | error
  deriving DecidableEq, Repr, Inhabited

/-- The word for a level. -/
def Level.title : Level → String
  | .debug => "DEBUG"
  | .info => "INFO"
  | .warning => "WARNING"
  | .error => "ERROR"

/-- Which part of the program made an entry. -/
inductive Source where
  | provider
  | dumper
  | program
  deriving DecidableEq, Repr, Inhabited

/-- The name of a part in the log. -/
def Source.title : Source → String
  | .provider => "bpdump.provider"
  | .dumper => "bpdump.dumper"
  | .program => "bp_dump"

/-- An entry of the log. -/
structure Entry where
  level : Level
  source : Source
  message : String
  deriving DecidableEq, Repr, Inhabited

/-- An entry as a line; its message may hold line breaks. -/
def Entry.text (e : Entry) : String :=
  e.level.title ++ " " ++ e.source.title ++ ": " ++ e.message

/-- The entries that show when debugging is off. -/
def withoutDebug (entries : List Entry) : List Entry :=
  entries.filter fun e => e.level != .debug

end Kismet.Log
