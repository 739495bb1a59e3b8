import RealmLogon.Pattern.Item
import RealmLogon.Text.Alphanumeric

/-! Whether a text is a regular expression, by one scan from its beginning to its end. What needs tables of
Unicode is understood but not available; that is told only of an expression in which all else is right. -/

namespace RealmLogon.Pattern

open Text Item

structure Modes where
  anyCase : Bool
  unicode : Bool
  loose : Bool
  deriving DecidableEq, Repr

def Modes.initial : Modes := ⟨false, true, false⟩

/-- Set flags; those behind a hyphen are cleared. -/
def Modes.set (m : Modes) (letters : List Char) : Modes :=
  let on := letters.takeWhile (· ≠ '-')
  let off := letters.dropWhile (· ≠ '-')
  let flag (c : Char) (old : Bool) : Bool := on.contains c || (old && !off.contains c)
  ⟨flag 'i' m.anyCase, flag 'u' m.unicode, flag 'x' m.loose⟩

structure OpenGroup where
  span : Span
  modes : Modes

structure OpenClass where
  start : Place
  /-- What is told of it if it is never closed. -/
  span : Span
  negated : Bool

structure Scan where
  cursor : Cursor
  modes : Modes
  /-- Groups and classes, innermost first. -/
  groups : List OpenGroup
  classes : List OpenClass
  /-- The names of groups so far. -/
  names : List (List Char × Span)
  /-- There is something that a repetition would repeat. -/
  repeatable : Bool
  /-- The first thing that is not available. -/
  unmet : Option Fault
  /-- There is a word boundary by Unicode's notion of a word. -/
  hasBoundary : Bool

namespace Scan

def start (text : List Char) : Scan := ⟨.ofText text, .initial, [], [], [], false, none, false⟩

def loose (s : Scan) : Bool := s.modes.loose

def goTo (s : Scan) (c : Cursor) (repeatable : Bool) : Scan := { s with cursor := c, repeatable := repeatable }

/-- Note something that is not available, unless something was noted before. -/
def note (s : Scan) (condition : Bool) (flaw : Flaw) (span : Span) : Scan :=
  if condition && s.unmet.isNone then { s with unmet := some ⟨flaw, span, none⟩ } else s

/-- Note what an item needs, in a class or outside. Only bytes of ASCII are characters by themselves. -/
def noteItem (s : Scan) (inClass : Bool) (item : Item) (span : Span) : Scan :=
  let unicode := s.modes.unicode
  match item with
  | .literal c isByte =>
    let wide : Bool := 0x7F < c.val
    if unicode then s.note (s.modes.anyCase && !inClass) .caseUnknown span
    else (s.note (isByte && wide) .bytesNoText span).note (inClass && !isByte && wide) .unicodeRefused span
  | .point => s.note (!unicode) .bytesNoText span
  | .shorthand negated =>
    if unicode then s.note true .shorthandUnknown span else s.note negated .bytesNoText span
  | .property => s.note true (if unicode then .propertyUnknown else .unicodeRefused) span
  | .boundary => { s with hasBoundary := s.hasBoundary || unicode }
  | .edge => s

-- Groups.

/-- Flags up to the colon or the parenthesis behind them, last one first. -/
def flags (seen : List (Char × Span)) : List Char → Place → Except Fault (List (Char × Span) × Cursor)
  | [], p => wrong .flagsCut ⟨p, p⟩
  | c :: r, p =>
    let span : Span := ⟨p, p.after c⟩
    if c = ':' || c = ')' then
      match seen with
      | ('-', hyphen) :: _ => wrong .negationDangling hyphen
      | _ => .ok (seen, ⟨c :: r, p⟩)
    else if c ∉ ['-', 'i', 'm', 's', 'U', 'u', 'R', 'x'] then wrong .flagUnknown span
    else match seen.find? (·.1 == c) with
      | some (_, earlier) => .error ⟨if c = '-' then .negationTwice else .flagTwice, span, some earlier⟩
      | none => flags ((c, span) :: seen) r (p.after c)

def beginsName (c : Char) : Bool := c = '_' || isAlphabetic c

def isNameCharacter (c : Char) : Bool :=
  c = '_' || c = '.' || c = '[' || c = ']' || isAlphanumeric c

def groupName (names : List (List Char × Span)) (c : Cursor) :
    Except Fault ((List Char × Span) × Cursor) :=
  let stop := c.skipWhile false isNameCharacter
  let name := c.textUpTo stop
  match c.rest, stop.rest with
  | [], _ | _, [] =>
    if c.rest.head?.any fun x => !beginsName x then wrong .nameInvalid c.one else wrong .nameCut stop.here
  | x :: _, y :: _ =>
    if x ≠ '>' && !beginsName x then wrong .nameInvalid c.one
    else if y ≠ '>' then wrong .nameInvalid stop.one
    else if name = [] then wrong .nameEmpty c.here
    else match names.find? (·.1 == name) with
      | some (_, earlier) => .error ⟨.nameTwice, c.upTo stop, some earlier⟩
      | none => .ok ((name, c.upTo stop), stop.bump)

def enter (s : Scan) (span : Span) (modes : Modes) (c : Cursor) : Scan :=
  { s.goTo c false with groups := ⟨span, s.modes⟩ :: s.groups, modes := modes }

/-- A group with flags, or flags for what follows; `opening` is at the parenthesis, `c` behind the
question mark. -/
def flagGroup (s : Scan) (opening question c : Cursor) : Except Fault Scan := do
  if c.rest = [] then wrong .groupUnclosed opening.one
  let (seen, stop) ← flags [] c.rest c.place
  let modes := s.modes.set (seen.reverse.map (·.1))
  if stop.startsWith [':'] then return s.enter opening.one modes stop.bump
  else if seen.isEmpty then wrong .repeatsNothing question.here
  else return { s.goTo stop.bump false with modes := modes }

def openGroup (s : Scan) : Except Fault Scan := do
  let opening := s.cursor
  let c := opening.next s.loose
  let ahead := c.startsWith ['?', '='] || c.startsWith ['?', '!']
  let behind := c.startsWith ['?', '<', '='] || c.startsWith ['?', '<', '!']
  let named (n : Nat) : Except Fault Scan := do
    let (name, stop) ← groupName s.names (c.bumps n)
    return { s.enter opening.one s.modes stop with names := s.names ++ [name] }
  if ahead then wrong .lookAround (opening.upTo (c.bumps 2))
  else if behind then wrong .lookAround (opening.upTo (c.bumps 3))
  else if c.startsWith ['?', 'P', '<'] then named 3
  else if c.startsWith ['?', '<'] then named 2
  else if c.startsWith ['?'] then s.flagGroup opening c c.bump
  else return s.enter opening.one s.modes c

def closeGroup (s : Scan) : Except Fault Scan :=
  match s.groups with
  | [] => wrong .groupUnopened s.cursor.one
  | g :: gs => .ok { s.goTo s.cursor.bump true with groups := gs, modes := g.modes }

-- Repetitions.

/-- A repetition by a sign; a question mark behind it makes it a reluctant one. -/
def repetition (s : Scan) : Except Fault Scan :=
  let c := s.cursor.bump
  if s.repeatable then .ok (s.goTo (if c.startsWith ['?'] then c.bump else c) true)
  else wrong .repeatsNothing s.cursor.here

/-- A repetition by a number, which has no end. -/
def countedRepetition (s : Scan) : Fault :=
  let opening := s.cursor
  let first := (opening.next s.loose).skipWhile false isBlank
  let last := first.skipWhile s.loose Char.isDigit
  let stop := last.skipWhile s.loose isBlank
  let digits := (first.textUpTo last).filter Char.isDigit
  if !s.repeatable then ⟨.repeatsNothing, opening.here, none⟩
  else if stop.rest = [] then ⟨.countUnclosed, opening.upTo stop, none⟩
  else if digits = [] then ⟨.countMissing, first.upTo last, none⟩
  else if UInt32.size ≤ Numeral.value 10 digits then ⟨.countTooLarge, first.upTo last, none⟩
  else ⟨.countUnclosed, opening.upTo stop, none⟩

-- Character classes.

/-- Open a class. Hyphens at its front, or a bracket there, are members of it. -/
def openClass (s : Scan) : Except Fault Scan := do
  let opening := s.cursor
  let inside := opening.next s.loose
  let negated := inside.startsWith ['^']
  let front := if negated then inside.next s.loose else inside
  let hyphens := front.skipWhile s.loose (· = '-')
  let isBracket := front.startsWith [']']
  let c := if isBracket then front.next s.loose else hyphens
  if front.rest ≠ [] && hyphens.rest = [] then wrong .classUnclosed opening.here
  if c.rest = [] then wrong .classUnclosed (opening.upTo c)
  return { s.goTo c false with classes := ⟨opening.place, opening.upTo c, negated⟩ :: s.classes }

def closeClass (s : Scan) (k : OpenClass) (outer : List OpenClass) : Scan :=
  let c := s.cursor.bump
  let span : Span := ⟨k.start, c.place⟩
  let s := { s.goTo c true with classes := outer }
  if s.modes.unicode then s.note s.modes.anyCase .caseUnknown span else s.note k.negated .bytesNoText span

def namedClasses : List String :=
  ["alnum", "alpha", "ascii", "blank", "cntrl", "digit", "graph", "lower", "print", "punct", "space", "upper",
    "word", "xdigit"]

/-- A class of ASCII by its name between colons, and whether it is negated. -/
def namedClass? (c : Cursor) : Option (Bool × Cursor) :=
  let negated := c.startsWith ['[', ':', '^']
  let first := c.bumps (if negated then 3 else 2)
  let stop := first.skipWhile false (· ≠ ':')
  let name := String.ofList (first.textUpTo stop)
  if c.startsWith ['[', ':'] && stop.startsWith [':', ']'] && namedClasses.contains name then
    some (negated, stop.bumps 2)
  else none

/-- A member of a class by itself has to be of characters. -/
def member (s : Scan) (item : Item) (c stop : Cursor) : Except Fault Scan :=
  match item with
  | .literal _ _ | .shorthand _ | .property => .ok ((s.noteItem true item (c.upTo stop)).goTo stop true)
  | _ => wrong .classEscape (c.upTo stop)

/-- Both ends of a range are characters. -/
def rangeEnd (item : Item) (c stop : Cursor) : Except Fault Char :=
  match item with
  | .literal x _ => .ok x
  | _ => wrong .classRangeEnd (c.upTo stop)

/-- A member of a class, or a range of them; `unclosed` is told at the end of the text. -/
def memberOrRange (s : Scan) (unclosed : Span) : Except Fault Scan := do
  let c := s.cursor
  let (item, stop) ← readInClass s.loose c
  let hyphen := stop.skip s.loose
  if hyphen.rest = [] then wrong .classUnclosed unclosed
  let second := hyphen.next s.loose
  if !hyphen.startsWith ['-'] || second.startsWith [']'] || second.startsWith ['-'] then s.member item c stop
  else if second.rest = [] then wrong .classUnclosed unclosed
  else
    let (last, stop') ← readInClass s.loose second
    let low ← rangeEnd item c stop
    let high ← rangeEnd last second stop'
    if high < low then wrong .classRange (c.upTo stop')
    return ((s.noteItem true item (c.upTo stop)).noteItem true last (second.upTo stop')).goTo stop' true

/-- The next step in a class. Two like signs combine what is before them with what follows. -/
def stepInClass (s : Scan) (k : OpenClass) (outer : List OpenClass) : Except Fault Scan :=
  let c := s.cursor
  match c.rest with
  | [] => wrong .classUnclosed k.span
  | ']' :: _ => .ok (s.closeClass k outer)
  | '[' :: _ =>
    match namedClass? c with
    | some (negated, stop) =>
      let span := c.upTo stop
      .ok ((if s.modes.unicode then s.note s.modes.anyCase .caseUnknown span
        else s.note negated .bytesNoText span).goTo stop true)
    | none => s.openClass
  | '&' :: '&' :: _ | '-' :: '-' :: _ | '~' :: '~' :: _ => .ok (s.goTo (c.bumps 2) true)
  | _ => s.memberOrRange k.span

-- The whole.

def stepOutside (s : Scan) : Except Fault Scan :=
  match s.cursor.rest with
  | '(' :: _ => s.openGroup
  | ')' :: _ => s.closeGroup
  | '|' :: _ => .ok (s.goTo s.cursor.bump false)
  | '[' :: _ => s.openClass
  | '?' :: _ | '*' :: _ | '+' :: _ => s.repetition
  | '{' :: _ => .error s.countedRepetition
  | _ => do
    let (item, stop) ← Item.read s.loose s.cursor
    return (s.noteItem false item (s.cursor.upTo stop)).goTo stop true

/-- The end of the text closes no group. -/
def finish (s : Scan) : Except Fault Scan :=
  match s.groups with
  | [] => .ok s
  | g :: _ => wrong .groupUnclosed g.span

/-- Scan the rest of the text. Every step takes a character at least. -/
def run (s : Scan) : Except Fault Scan :=
  let t := { s with cursor := s.cursor.skip s.loose }
  match t.classes with
  | [] =>
    if t.cursor.rest = [] then t.finish
    else
      match t.stepOutside with
      | .error e => .error e
      | .ok u => if _h : u.cursor.rest.length < s.cursor.rest.length then run u else .ok u
  | k :: outer =>
    match t.stepInClass k outer with
    | .error e => .error e
    | .ok u => if _h : u.cursor.rest.length < s.cursor.rest.length then run u else .ok u
termination_by s.cursor.rest.length

end Scan

inductive Error where
  /-- The text is no expression, or needs something that is not available. -/
  | fault (text : List Char) (f : Fault)
  /-- Automata cannot tell words of Unicode. -/
  | boundary
  deriving DecidableEq, Repr

def Error.causes : Error → List String
  | fault text f => ["error building NFA", "error parsing regex", f.report text]
  | boundary => ["unsupported regex feature for DFAs: cannot build DFAs for regexes with Unicode word " ++
      "boundaries; switch to ASCII word boundaries, or heuristically enable Unicode word boundaries or " ++
      "use a different regex engine"]

def check (text : List Char) : Except Error Unit :=
  match (Scan.start text).run with
  | .error f => .error (.fault text f)
  | .ok s =>
    match s.unmet with
    | some f => .error (.fault text f)
    | none => if s.hasBoundary then .error .boundary else .ok ()

end RealmLogon.Pattern
