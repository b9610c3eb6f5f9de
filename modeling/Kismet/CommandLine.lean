import Kismet.Options
import Kismet.Text.Units
set_option autoImplicit false

/-!
# CommandLine: reading the words of a command

Three words are required: the directory of the documents, the text to match and
the output directory.  Switches may stand anywhere between them, and a switch may
be cut short as long as it stays recognisable.  After `--` no word is a switch.
-/

namespace Kismet.CommandLine

/-- A switch. -/
inductive Switch where
  | help
  | list
  | dump
  | verbose
  deriving DecidableEq, Repr, Inhabited

/-- The spelling of a switch. -/
def Switch.spelling : Switch → String
  | .help => "--help"
  | .list => "--list"
  | .dump => "--dump"
  | .verbose => "--verbose"

/-- All switches. -/
def Switch.all : List Switch := [.help, .list, .dump, .verbose]

/-- How a word of a command is read. -/
inductive Argument where
  | positional (s : String)
  | switch (s : Switch)
  /-- A switch with a value, which no switch takes. -/
  | misused
  /-- A word that looks like a switch but is none. -/
  | unknown
  /-- The start of several switches. -/
  | ambiguous
  deriving DecidableEq, Repr, Inhabited

/-- The mark after which no word is a switch. -/
def endMark : String := "--"

/-- All characters are decimal digits. -/
def areDigits (cs : List Char) : Bool :=
  cs.all fun c => (Text.digitValue? c).isSome

/-- What follows the dash of a negative number: digits, or a point between
optional and required digits. -/
def isMagnitude (cs : List Char) : Bool :=
  let whole := cs.takeWhile fun c => (Text.digitValue? c).isSome
  match cs.drop whole.length with
  | [] => !whole.isEmpty
  | '.' :: fraction => !fraction.isEmpty && areDigits fraction
  | _ => false

/-- What follows the dash of a word that reads as a negative number; a line
break at the end does not count. -/
def isNegativeTail (cs : List Char) : Bool :=
  isMagnitude cs ||
    match cs.reverse with
    | '\n' :: front => isMagnitude front.reverse
    | _ => false

/-- A word with a dash that is no switch. -/
def readOther (s : String) (tail : List Char) : Argument :=
  if isNegativeTail tail || tail.contains ' ' then .positional s else .unknown

/-- A word with two dashes.  Up to `=`, it has to start just one switch. -/
def readLong (s : String) : Argument :=
  let cs := s.toList
  let spelled := cs.takeWhile (· != '=')
  match Switch.all.filter fun w => spelled.isPrefixOf w.spelling.toList with
  | [] => readOther s (cs.drop 1)
  | [w] => if spelled.length < cs.length then .misused else .switch w
  | _ => .ambiguous

/-- The word `-h`, a short form of the switch for help, with what follows it:
nothing, or the same letter again, after `=` or not. -/
def readShortHelp (tail : List Char) : Argument :=
  match tail with
  | [] => .switch .help
  | c :: rest =>
    let repeated := if c = '=' then rest else tail
    if !repeated.isEmpty && repeated.all (· == 'h') then .switch .help else .misused

/-- How a word is read. -/
def Argument.read (s : String) : Argument :=
  match s.toList with
  | '-' :: '-' :: _ => readLong s
  | '-' :: 'h' :: rest => readShortHelp rest
  | '-' :: c :: rest => readOther s (c :: rest)
  | _ => .positional s

/-- The text of a positional argument. -/
def Argument.text? : Argument → Option String
  | .positional s => some s
  | _ => none

/-- The switch was given. -/
def isGiven (arguments : List Argument) (w : Switch) : Bool :=
  arguments.contains (.switch w)

/-- What a command asks for. -/
inductive Request where
  | run (options : Options) (verbose : Bool)
  | help
  /-- The command cannot be understood. -/
  | misunderstood
  deriving DecidableEq, Repr, Inhabited

/-- The argument decides the request as soon as it is met. -/
def Argument.isDecisive (a : Argument) : Bool :=
  a == .switch .help || a == .misused

/-- The request with the given positional words, of which the first has to have
a value. -/
def ofPositionals (arguments : List Argument) : List (Option String) → Request
  | [some root, needle, out] =>
    .run (.ofSwitches (.ofText root) needle (out.map .ofText) (isGiven arguments .list)
      (isGiven arguments .dump)) (isGiven arguments .verbose)
  | _ => .misunderstood

/-- The end mark belongs to the positional word right in front of it. -/
def endsPositional (arguments : List Argument) : Bool :=
  (arguments.getLast?.bind Argument.text?).isSome

/-- An end mark stands last, with no positional word beside it. -/
def isLoose (arguments : List Argument) (rest : List String) : Bool :=
  rest == [endMark] && !endsPositional arguments

/-- A word after the end mark.  Another end mark stands for no value. -/
def unmarked (s : String) : Option String :=
  if s = endMark then none else some s

/-- The values of the words after the end mark.  A mark that belongs to no word in
front of it belongs to the one behind it, which then is taken as it is. -/
def valuesBehind (isTaken : Bool) : List String → List (Option String)
  | [] => []
  | s :: rest => (if isTaken then unmarked s else some s) :: rest.map unmarked

/-- The values of all positional words. -/
def positionals (arguments : List Argument) (rest : List String) : List (Option String) :=
  (arguments.filterMap Argument.text?).map some
    ++ valuesBehind (endsPositional arguments) (rest.drop 1)

/-- The request of the words of a command. -/
def parse (words : List String) : Request :=
  let arguments := (words.takeWhile (· != endMark)).map Argument.read
  let rest := words.dropWhile (· != endMark)
  if arguments.contains .ambiguous then .misunderstood
  else
    match arguments.find? Argument.isDecisive with
    | some (.switch .help) => .help
    | some _ => .misunderstood
    | none =>
      if arguments.contains .unknown || isLoose arguments rest then .misunderstood
      else ofPositionals arguments (positionals arguments rest)

end Kismet.CommandLine
