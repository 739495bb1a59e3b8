/-! Reading a text from the front: a scan takes characters off it, or fails. -/

namespace RealmLogon.Toml

abbrev Scan := StateT (List Char) Option

namespace Scan

def satisfy (p : Char → Bool) : Scan Char
  | c :: r => if p c then some (c, r) else none
  | [] => none

def char (c : Char) : Scan Unit := do discard <| satisfy (· == c)

def run (p : Char → Bool) : Scan (List Char) := fun cs => some (cs.takeWhile p, cs.dropWhile p)

def someRun (p : Char → Bool) : Scan (List Char) := do
  let first ← satisfy p
  return first :: (← run p)

def times (n : Nat) (p : Char → Bool) : Scan (List Char) := fun cs =>
  let head := cs.take n
  if head.length = n ∧ head.all p then some (head, cs.drop n) else none

def word (w : String) : Scan Unit := fun cs =>
  if w.toList.isPrefixOf cs then some ((), cs.drop w.length) else none

/-- A scan that may fail, and then takes nothing. -/
def optional {α : Type} (p : Scan α) : Scan (Option α) := fun cs =>
  match p cs with
  | some (a, r) => some (some a, r)
  | none => some (none, cs)

def peek : Scan (Option Char) := fun cs => some (cs.head?, cs)

/-- One to `n` items with a separator between them; a separator with no item behind it stays. -/
def separated {α : Type} (separator : Scan Unit) (item : Scan α) : Nat → Scan (List α)
  | 0 => return []
  | n + 1 => do
    let first ← item
    match ← optional (do separator; separated separator item n) with
    | some rest => return first :: rest
    | none => return [first]

def isBlank (c : Char) : Bool := c == ' ' || c == '\t'

def blanks : Scan Unit := do discard <| run isBlank

/-- A line feed, or a carriage return and a line feed. -/
def newline : Scan Unit := char '\n' <|> word "\r\n"

def atEnd : Scan Unit := fun cs => if cs.isEmpty then some ((), cs) else none

/-- Characters of comments and strings: no control character but the tabulator. -/
def isText (c : Char) : Bool := c == '\t' || (' ' ≤ c && c != '\x7F')

def comment : Scan Unit := do
  char '#'
  discard <| run isText

def lineRest : Scan Unit := do
  blanks
  discard <| optional comment
  newline <|> atEnd

end Scan

end RealmLogon.Toml
