import RealmLogon.CommandLine.Grammar

/-! Command lines as lists of words. A word is a switch, perhaps with its value attached, the value of
the switch before it, a subcommand, or a value by its place; after the word `--` all are values by their
place. No switch may come twice. The first thing that is wrong, or asks for an explanation, decides. -/

namespace RealmLogon.CommandLine

inductive Stop where
  /-- The command line is not allowed. -/
  | misuse
  /-- It asks for an explanation, which has these lines. -/
  | explanation (lines : List String)
  deriving DecidableEq, Repr

structure Found where
  /-- Switches by their long names, with their values. -/
  switches : List (String × String)
  values : List String
  /-- The subcommand and the words after it. -/
  subcommand : Option (String × List String)
  deriving DecidableEq

namespace Found

def empty : Found := ⟨[], [], none⟩

/-- Note a switch and its value, unless it came before. -/
def note (f : Found) (s : Switch) (value : String) : Except Stop Found :=
  if s.accepts value && !f.switches.any (·.1 == s.long) then
    .ok { f with switches := f.switches ++ [(s.long, value)] }
  else .error .misuse

def place (f : Found) (g : Grammar) (value : String) : Except Stop Found :=
  if f.values.length < g.places.length then .ok { f with values := f.values ++ [value] } else .error .misuse

def has (f : Found) (long : String) : Bool := f.switches.any (·.1 == long)

def value? (f : Found) (long : String) : Option String := (f.switches.find? (·.1 == long)).map (·.2)

end Found

/-- A switch without a value: one of those that explain the program, or one to be noted. -/
def flag (g : Grammar) (f : Found) (s : Switch) : Except Stop Found :=
  if s.long = Switch.help.long then .error (.explanation g.help)
  else if s.long = Switch.version.long then .error (.explanation [g.name ++ " " ++ g.version.getD ""])
  else f.note s ""

def cutEquals : List Char → List Char × Option (List Char)
  | [] => ([], none)
  | '=' :: r => ([], some r)
  | c :: r => let (name, value) := cutEquals r; (c :: name, value)

/-- A word that is a long switch: a switch without its value waits for the next word. -/
def long (g : Grammar) (f : Found) (word : List Char) : Except Stop (Found × Option Switch) :=
  let (name, value) := cutEquals word
  match g.allSwitches.find? (·.long == String.ofList name), value with
  | none, _ => .error .misuse
  | some s, some v => if s.takesValue then (f.note s (String.ofList v)).map (·, none) else .error .misuse
  | some s, none => if s.takesValue then .ok (f, some s) else (flag g f s).map (·, none)

/-- A word of one-letter switches; the first one that takes a value has the rest of the word for it,
without an equals sign in front. -/
def short (g : Grammar) (f : Found) : List Char → Except Stop (Found × Option Switch)
  | [] => .ok (f, none)
  | c :: rest =>
    match g.allSwitches.find? (·.short == some c) with
    | none => .error .misuse
    | some s =>
      if s.takesValue then
        match rest with
        | [] => .ok (f, some s)
        | '=' :: v => (f.note s (String.ofList v)).map (·, none)
        | _ => (f.note s (String.ofList rest)).map (·, none)
      else
        match flag g f s with
        | .error stop => .error stop
        | .ok f => short g f rest

/-- A word with a hyphen in front is no value, unless it is the hyphen alone. -/
def isValue : List Char → Bool
  | '-' :: _ :: _ => false
  | _ => true

def scanPlaces (g : Grammar) (f : Found) : List String → Except Stop Found
  | [] => .ok f
  | word :: rest =>
    match f.place g word with
    | .error stop => .error stop
    | .ok f => scanPlaces g f rest

def isSubcommand (g : Grammar) (word : String) : Bool :=
  g.subcommands.any (·.1 == word) || (!g.subcommands.isEmpty && word == Grammar.helpName)

/-- Read the words, perhaps with a switch that waits for its value. -/
def scanFrom (g : Grammar) (f : Found) : Option Switch → List String → Except Stop Found
  | none, [] => .ok f
  | some _, [] => .error .misuse
  | some s, word :: rest =>
    if isValue word.toList then
      match f.note s word with
      | .error stop => .error stop
      | .ok f => scanFrom g f none rest
    else .error .misuse
  | none, word :: rest =>
    if isSubcommand g word then .ok { f with subcommand := some (word, rest) }
    else
      let go : Except Stop (Found × Option Switch) → Except Stop Found
        | .error stop => .error stop
        | .ok (f, waiting) => scanFrom g f waiting rest
      match word.toList with
      | ['-', '-'] => scanPlaces g f rest
      | '-' :: '-' :: name => go (long g f name)
      | '-' :: c :: letters => go (short g f (c :: letters))
      | _ => go ((f.place g word).map (·, none))

def scan (g : Grammar) (words : List String) : Except Stop Found := scanFrom g .empty none words

def number (bound : Nat) (text : String) : Option Nat :=
  match Text.Numeral.signed text.toList with
  | some n => if 0 ≤ n ∧ n < bound then some n.toNat else none
  | none => none

def isNumber (bound : Nat) (text : String) : Bool := (number bound text).isSome

namespace Found

def read {α : Type} (f : Found) (long : String) (read : String → Option α) (default : α) : α :=
  ((f.value? long).bind read).getD default

def byte (f : Found) (long : String) (default : UInt8) : UInt8 :=
  f.read long (fun t => (number UInt8.size t).map UInt8.ofNat) default

def word (f : Found) (long : String) (default : UInt16) : UInt16 :=
  f.read long (fun t => (number UInt16.size t).map UInt16.ofNat) default

end Found

end RealmLogon.CommandLine
