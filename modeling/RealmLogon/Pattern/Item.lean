import RealmLogon.Pattern.Cursor

/-! The items of a regular expression that stand for one character or for a condition on a place: a
character by itself, a point, or an escape. An expression has no closing brace, so nothing that begins with
an opening one is complete. -/

namespace RealmLogon.Pattern

open Text

inductive Item where
  /-- A character; one that is written as two hexadecimal digits can be a byte, too. -/
  | literal (c : Char) (isByte : Bool)
  | point
  /-- Digits, blanks or the characters of words, or all others. -/
  | shorthand (negated : Bool)
  /-- A Unicode property of one letter. -/
  | property
  /-- A condition on the characters of words. -/
  | boundary
  /-- A condition on lines or on the text. -/
  | edge
  deriving DecidableEq, Repr

namespace Item

def wrong {α : Type} (flaw : Flaw) (span : Span) : Except Fault α := .error ⟨flaw, span, none⟩

def isHexDigit (c : Char) : Bool := (Numeral.digit? c).isSome

def hexDigits (loose : Bool) : Nat → Nat → Cursor → Except Fault (Nat × Cursor)
  | 0, value, c => .ok (value, c)
  | n + 1, value, c =>
    match c.rest with
    | [] => wrong .escapeCut c.here
    | d :: _ =>
      match Numeral.digit? d with
      | some k => hexDigits loose n (16 * value + k) (c.next loose)
      | none => wrong .digitInvalid c.one

def isScalar (n : Nat) : Bool := n < 0xD800 || (0xE000 ≤ n && n < 0x110000)

/-- A character by its number, from the letter on that tells how many digits it has. -/
def hex (loose : Bool) (letter : Char) (c : Cursor) : Except Fault (Item × Cursor) := do
  let d := c.next loose
  match d.rest with
  | [] => wrong .escapeCut d.here
  | '{' :: _ =>
    let stop := (d.next loose).skipWhile loose isHexDigit
    if stop.rest = [] then wrong .escapeCut (d.upTo stop) else wrong .digitInvalid stop.one
  | _ =>
    let (value, stop) ← hexDigits loose (if letter = 'x' then 2 else if letter = 'u' then 4 else 8) 0 d
    if isScalar value then return (.literal (Char.ofNat value) (letter = 'x'), stop)
    else wrong .scalarInvalid (d.upTo stop)

/-- A property, from the letter on that announces it. -/
def propertyOf (loose : Bool) (c : Cursor) : Except Fault (Item × Cursor) :=
  let d := c.next loose
  match d.rest with
  | [] => wrong .escapeCut d.here
  | '{' :: _ => wrong .escapeCut (d.skipWhile loose fun _ => true).here
  | '\\' :: _ => wrong .propertyInvalid d.one
  | _ => .ok (.property, d.next loose)

/-- A word boundary, whose escape begins at `start` and ends at `c`. A brace behind it with a letter or a
hyphen in it begins a special one. -/
def wordBoundary (loose : Bool) (start c : Cursor) : Except Fault (Item × Cursor) :=
  match c.rest with
  | '{' :: _ =>
    let inside := c.next loose
    let isLetter (x : Char) : Bool := x.isAlpha || x = '-'
    match inside.rest with
    | [] => wrong .boundaryCut (start.upTo inside)
    | x :: _ =>
      if isLetter x then wrong .boundaryUnclosed (c.upTo (inside.skipWhile loose isLetter))
      else .ok (.boundary, c)
  | _ => .ok (.boundary, c)

/-- The signs of ASCII may all be escaped, apart from the two that are word boundaries. -/
def isEscapable (c : Char) : Bool := c.val < 0x80 && !c.isAlphanum && c ≠ '<' && c ≠ '>'

def escape (loose : Bool) (start : Cursor) : Except Fault (Item × Cursor) :=
  let c := start.bump
  let stop := c.bump
  let literal (x : Char) : Except Fault (Item × Cursor) := .ok (.literal x false, stop)
  match c.rest with
  | [] => wrong .escapeCut (start.upTo c)
  | x :: _ =>
    if x.isDigit then wrong .backreference (start.upTo stop)
    else if isEscapable x then literal x
    else match x with
      | 'x' | 'u' | 'U' => hex loose x c
      | 'p' | 'P' => propertyOf loose c
      | 'd' | 's' | 'w' => .ok (.shorthand false, stop)
      | 'D' | 'S' | 'W' => .ok (.shorthand true, stop)
      | 'a' => literal '\x07'
      | 'f' => literal '\x0c'
      | 't' => literal '\t'
      | 'n' => literal '\n'
      | 'r' => literal '\r'
      | 'v' => literal '\x0b'
      | 'A' | 'z' => .ok (.edge, stop)
      | 'b' => wordBoundary loose start stop
      | 'B' | '<' | '>' => .ok (.boundary, stop)
      | _ => wrong .escapeUnknown (start.upTo stop)

def read (loose : Bool) (c : Cursor) : Except Fault (Item × Cursor) :=
  match c.rest with
  | '\\' :: _ => escape loose c
  | '.' :: _ => .ok (.point, c.bump)
  | '^' :: _ | '$' :: _ => .ok (.edge, c.bump)
  | x :: _ => .ok (.literal x false, c.bump)
  | [] => .ok (.edge, c)

/-- An item of a character class: there a backslash alone has a meaning. -/
def readInClass (loose : Bool) (c : Cursor) : Except Fault (Item × Cursor) :=
  match c.rest with
  | '\\' :: _ => escape loose c
  | x :: _ => .ok (.literal x false, c.bump)
  | [] => .ok (.edge, c)

end Item

end RealmLogon.Pattern
