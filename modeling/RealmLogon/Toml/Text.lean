import RealmLogon.Text.Numeral
import RealmLogon.Toml.Scan

/-! Quoted texts and keys. Text in double quotes has escapes, text in single quotes has none; three
quotes open a text of several lines, in which a line end counts as a line feed. -/

namespace RealmLogon.Toml

open RealmLogon.Text

abbrev Scanned := Option (List Char × List Char)

/-- A character by its number in `n` hexadecimal digits. -/
def codePoint (n : Nat) (cs : List Char) : Option (Char × List Char) :=
  let digits := cs.take n
  if digits.length = n then
    (Numeral.parse 16 digits).bind fun v => if v.isValidChar then some (Char.ofNat v, cs.drop n) else none
  else none

def escapes : List (Char × Char) :=
  [('b', '\x08'), ('t', '\t'), ('n', '\n'), ('f', '\x0C'), ('r', '\r'), ('"', '"'), ('\\', '\\')]

def escaped : List Char → Option (Char × List Char)
  | [] => none
  | c :: r =>
    if c = 'u' then codePoint 4 r
    else if c = 'U' then codePoint 8 r
    else (escapes.lookup c).map fun x => (x, r)

theorem length_of_codePoint {n : Nat} {cs : List Char} {c : Char} {r : List Char}
    (h : codePoint n cs = some (c, r)) : r.length ≤ cs.length := by
  simp only [codePoint] at h
  split at h
  · simp only [Option.bind_eq_some_iff] at h
    obtain ⟨v, -, h⟩ := h
    split at h
    · simp only [Option.some.injEq, Prod.mk.injEq] at h
      rw [← h.2]; simp
    · simp at h
  · simp at h

theorem length_of_escaped {cs : List Char} {c : Char} {r : List Char} (h : escaped cs = some (c, r)) :
    r.length < cs.length := by
  cases cs with
  | nil => simp [escaped] at h
  | cons x cs =>
    simp only [escaped] at h
    split at h
    · exact Nat.lt_succ_of_le (length_of_codePoint h)
    · split at h
      · exact Nat.lt_succ_of_le (length_of_codePoint h)
      · simp only [Option.map_eq_some_iff, Prod.mk.injEq] at h
        obtain ⟨_, _, _, rfl⟩ := h
        simp

def quoted (cs : List Char) : Scanned :=
  match cs with
  | [] => none
  | '"' :: r => some ([], r)
  | '\\' :: r =>
    match h : escaped r with
    | none => none
    | some (c, rest) =>
      have := length_of_escaped h
      (quoted rest).map fun (s, t) => (c :: s, t)
  | c :: r => if Scan.isText c then (quoted r).map fun (s, t) => (c :: s, t) else none
termination_by cs.length
decreasing_by all_goals (simp_wf <;> omega)

def literal : List Char → Scanned
  | [] => none
  | '\x27' :: r => some ([], r)
  | c :: r => if Scan.isText c then (literal r).map fun (s, t) => (c :: s, t) else none

/-- After three closing quotes one or two more belong to the text. -/
def closing (quote : Char) : List Char → List Char × List Char
  | a :: b :: r =>
    if a = quote then if b = quote then ([a, b], r) else ([a], b :: r) else ([], a :: b :: r)
  | [a] => if a = quote then ([a], []) else ([], [a])
  | [] => ([], [])

def skipLines : List Char → List Char
  | ' ' :: r | '\t' :: r | '\n' :: r | '\r' :: '\n' :: r => skipLines r
  | r => r

theorem length_skipLines (cs : List Char) : (skipLines cs).length ≤ cs.length := by
  fun_induction skipLines cs <;> simp_all <;> omega

/-- After a backslash at the end of a line: the text goes on at the next character that is no white
space. -/
def folded (cs : List Char) : Option (List Char) :=
  match cs.dropWhile Scan.isBlank with
  | '\n' :: r | '\r' :: '\n' :: r => some (skipLines r)
  | _ => none

theorem length_of_folded {cs r : List Char} (h : folded cs = some r) : r.length < cs.length := by
  have hd : (cs.dropWhile Scan.isBlank).length ≤ cs.length := (List.dropWhile_suffix _).length_le
  unfold folded at h
  split at h
  · next t ht =>
    have := length_skipLines t
    simp only [Option.some.injEq] at h
    rw [ht] at hd; simp only [List.length_cons] at hd; rw [← h]; omega
  · next t ht =>
    have := length_skipLines t
    simp only [Option.some.injEq] at h
    rw [ht] at hd; simp only [List.length_cons] at hd; rw [← h]; omega
  · simp at h

def quotedLines (cs : List Char) : Scanned :=
  match cs with
  | [] => none
  | '"' :: '"' :: '"' :: r => some (closing '"' r)
  | '\\' :: r =>
    match h : folded r with
    | some rest =>
      have := length_of_folded h
      quotedLines rest
    | none =>
      match h : escaped r with
      | none => none
      | some (c, rest) =>
        have := length_of_escaped h
        (quotedLines rest).map fun (s, t) => (c :: s, t)
  | '\r' :: '\n' :: r => (quotedLines r).map fun (s, t) => ('\n' :: s, t)
  | c :: r =>
    if Scan.isText c || c == '\n' then (quotedLines r).map fun (s, t) => (c :: s, t) else none
termination_by cs.length
decreasing_by all_goals (simp_wf <;> omega)

def literalLines : List Char → Scanned
  | [] => none
  | '\x27' :: '\x27' :: '\x27' :: r => some (closing '\x27' r)
  | '\r' :: '\n' :: r => (literalLines r).map fun (s, t) => ('\n' :: s, t)
  | c :: r =>
    if Scan.isText c || c == '\n' then (literalLines r).map fun (s, t) => (c :: s, t) else none

/-- A line end right after three opening quotes is no part of the text. -/
def firstLine : List Char → List Char
  | '\n' :: r | '\r' :: '\n' :: r => r
  | r => r

def string : Scan String := fun cs =>
  let scanned := match cs with
    | '"' :: '"' :: '"' :: r => quotedLines (firstLine r)
    | '"' :: r => quoted r
    | '\x27' :: '\x27' :: '\x27' :: r => literalLines (firstLine r)
    | '\x27' :: r => literal r
    | _ => none
  scanned.map fun (s, t) => (String.ofList s, t)

def isKeyChar (c : Char) : Bool := c.isAlphanum || c == '-' || c == '_'

/-- One part of a key: bare, or in quotes of one line. -/
def keyPart : Scan String := fun cs =>
  match cs with
  | '"' :: r => (quoted r).map fun (s, t) => (String.ofList s, t)
  | '\x27' :: r => (literal r).map fun (s, t) => (String.ofList s, t)
  | _ => (Scan.someRun isKeyChar cs).map fun (s, t) => (String.ofList s, t)

/-- Parts of a key, and levels of values, are limited. -/
def maxDepth : Nat := 79

def key : Scan (List String) := fun cs => do
  let part : Scan String := do
    Scan.blanks
    let p ← keyPart
    Scan.blanks
    return p
  let (parts, rest) ← Scan.separated (Scan.char '.') part (cs.length + 1) cs
  if parts.length ≤ maxDepth then return (parts, rest) else none

end RealmLogon.Toml
