import RealmLogon.Pattern.Fault
import RealmLogon.Text.Blank

/-! A reading position in a regular expression: what is left of it, and the place where that begins. In the
loose layout blanks are no part of the expression, and neither is the rest of a line after a number sign. -/

namespace RealmLogon.Pattern

open Text

structure Cursor where
  rest : List Char
  place : Place

namespace Cursor

def ofText (text : List Char) : Cursor := ⟨text, .first⟩

def bump (c : Cursor) : Cursor :=
  match c.rest with
  | [] => c
  | x :: r => ⟨r, c.place.after x⟩

def here (c : Cursor) : Span := ⟨c.place, c.place⟩

def one (c : Cursor) : Span := ⟨c.place, c.bump.place⟩

def upTo (c later : Cursor) : Span := ⟨c.place, later.place⟩

def textUpTo (c later : Cursor) : List Char := c.rest.take (c.rest.length - later.rest.length)

def blanks (inComment : Bool) : List Char → Place → Cursor
  | [], p => ⟨[], p⟩
  | c :: r, p =>
    if inComment then blanks (c ≠ '\n') r (p.after c)
    else if isBlank c then blanks false r (p.after c)
    else if c = '#' then blanks true r (p.after c)
    else ⟨c :: r, p⟩

/-- In the loose layout, pass over blanks and comments. -/
def skip (loose : Bool) (c : Cursor) : Cursor := if loose then blanks false c.rest c.place else c

/-- Pass over the next character and over what is no part of the expression. -/
def next (loose : Bool) (c : Cursor) : Cursor := c.bump.skip loose

def startsWith (c : Cursor) (start : List Char) : Bool := start.isPrefixOf c.rest

def bumps : Nat → Cursor → Cursor
  | 0, c => c
  | n + 1, c => bumps n c.bump

theorem length_blanks_le (inComment : Bool) (cs : List Char) (p : Place) :
    (blanks inComment cs p).rest.length ≤ cs.length := by
  induction cs generalizing inComment p with
  | nil => simp [blanks]
  | cons c r ih =>
    simp only [blanks]
    split
    · exact Nat.le_succ_of_le (ih ..)
    · split
      · exact Nat.le_succ_of_le (ih ..)
      · split
        · exact Nat.le_succ_of_le (ih ..)
        · exact Nat.le_refl _

theorem length_skip_le (loose : Bool) (c : Cursor) : (c.skip loose).rest.length ≤ c.rest.length := by
  unfold skip
  split
  · exact length_blanks_le ..
  · exact Nat.le_refl _

theorem length_next_lt (loose : Bool) (c : Cursor) (h : c.rest ≠ []) :
    (c.next loose).rest.length < c.rest.length := by
  refine Nat.lt_of_le_of_lt (length_skip_le loose c.bump) ?_
  obtain ⟨rest, place⟩ := c
  cases rest with
  | nil => exact absurd rfl h
  | cons x r => exact Nat.lt_succ_self _

def skipWhile (loose : Bool) (p : Char → Bool) (c : Cursor) : Cursor :=
  if h : c.rest = [] then c
  else if p (c.rest.head h) then skipWhile loose p (c.next loose) else c
termination_by c.rest.length
decreasing_by exact length_next_lt loose c h

end Cursor

end RealmLogon.Pattern
