import RealmLogon.Text.Numeral

/-! What a command line may hold, and the help about it: a page of lines with the use of the command, its
subcommands, its values and its switches, each in a column that is as wide as the widest of them. -/

namespace RealmLogon.CommandLine

/-- An option, by a long and perhaps a one-letter name. -/
structure Switch where
  long : String
  short : Option Char
  takesValue : Bool
  /-- Which values it takes. -/
  accepts : String → Bool
  isRequired : Bool
  /-- What it is for, and the value that it has if it is not given. -/
  about : String

structure Grammar where
  /-- The words that call for it. -/
  name : String
  about : String
  /-- The version of the program, where it can be asked for. -/
  version : Option String
  switches : List Switch
  /-- The values by their place. -/
  places : List String
  subcommands : List (String × String)

namespace Switch

def valued (long : String) (short : Option Char) (accepts : String → Bool) (about : String) : Switch :=
  ⟨long, short, true, accepts, false, about⟩

def plain (long : String) (about : String) : Switch := ⟨long, none, false, fun _ => true, false, about⟩

def valueName (s : Switch) : String := s.long.map fun c => if c = '-' then '_' else c.toUpper

def withValue (s : Switch) : String := if s.takesValue then s!"--{s.long} <{s.valueName}>" else s!"--{s.long}"

def heading (s : Switch) : String :=
  (match s.short with
    | some c => s!"-{c}, "
    | none => "    ") ++ s.withValue

def help : Switch := { plain "help" "Print help" with short := some 'h' }

def version : Switch := { plain "version" "Print version" with short := some 'V' }

end Switch

namespace Grammar

/-- All that explain the program come last. -/
def allSwitches (g : Grammar) : List Switch :=
  g.switches ++ .help :: if g.version.isSome then [.version] else []

def helpName : String := "help"

def column (rows : List (String × String)) : List String :=
  let width := (rows.map (·.1.length)).foldl max 0
  rows.map fun (heading, about) =>
    "  " ++ heading ++ String.ofList (List.replicate (width + 2 - heading.length) ' ') ++ about

def titled (title : String) (rows : List (String × String)) : List String :=
  if rows.isEmpty then [] else "" :: title :: column rows

def usage (g : Grammar) : String :=
  let required := g.switches.filter (·.isRequired)
  " ".intercalate (["Usage:", g.name] ++ (if required.length < g.switches.length then ["[OPTIONS]"] else []) ++
    required.map (·.withValue) ++ g.places.map (fun p => s!"<{p}>") ++
    if g.subcommands.isEmpty then [] else ["[COMMAND]"])

def help (g : Grammar) : List String :=
  let subcommands := if g.subcommands.isEmpty then []
    else g.subcommands ++ [(helpName, "Print this message or the help of the given subcommand(s)")]
  [g.about, "", g.usage] ++ titled "Commands:" subcommands ++
    titled "Arguments:" (g.places.map fun p => (s!"<{p}>", "")) ++
    titled "Options:" (g.allSwitches.map fun s => (s.heading, s.about))

end Grammar

end RealmLogon.CommandLine
