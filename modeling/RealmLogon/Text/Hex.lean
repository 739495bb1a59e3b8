import RealmLogon.Bytes.Octets
import RealmLogon.Text.Blank

/-! Bytes as hexadecimal text. Reading ignores white space around the text and takes the digits two
bytes at a time; the position in an error is the byte offset of the first pair that is refused. A pair
may also be a plus sign and one digit. -/

namespace RealmLogon.Hex

inductive Error where
  | length (expected got : Nat)
  | digit (position : Nat)
  deriving DecidableEq, Repr

def Error.message : Error → String
  | .length expected got => s!"Invalid hex length (expected {expected} characters, got {got})"
  | .digit position => s!"Invalid hex at position {position}"

def digit? (b : UInt8) : Option UInt8 :=
  if 48 ≤ b && b ≤ 57 then some (b - 48)
  else if 97 ≤ b && b ≤ 102 then some (b - 87)
  else if 65 ≤ b && b ≤ 70 then some (b - 55)
  else none

/-- The byte that two characters spell: two digits, or `+` and one digit. -/
def pair? (high low : UInt8) : Option UInt8 :=
  match digit? high, digit? low with
  | some h, some l => some (h * 16 + l)
  | none, some l => if high = 43 then some l else none
  | _, none => none

/-- The bytes spelt by the pairs from byte offset `position` on. -/
def pairs (position : Nat) : Bytes → Except Error Bytes
  | [] => .ok []
  | [_] => .error (.digit position)
  | high :: low :: rest =>
    match pair? high low with
    | none => .error (.digit position)
    | some b => (pairs (position + 2) rest).map (b :: ·)

theorem length_of_pairs {position : Nat} {text out : Bytes} (h : pairs position text = .ok out) :
    text.length = 2 * out.length := by
  fun_induction pairs position text generalizing out with
  | case1 => cases h; rfl
  | case2 => cases h
  | case3 => cases h
  | case4 position high low rest b hb ih =>
    cases hr : pairs (position + 2) rest with
    | error e => simp [hr, Except.map] at h
    | ok r => simp only [hr, Except.map, Except.ok.injEq] at h; subst h; simp [ih hr]; omega

def parse (n : Nat) (text : String) : Except Error (Octets n) :=
  let body := Bytes.ofString (Text.trim text)
  if hl : body.length = 2 * n then
    match h : pairs 0 body with
    | .ok out => .ok ⟨out, by have := length_of_pairs h; omega⟩
    | .error e => .error e
  else .error (.length (2 * n) body.length)

def decode (text : String) : Except Error Bytes :=
  let body := Bytes.ofString (Text.trim text)
  if body.length = 0 ∨ body.length % 2 = 1 then .error (.length (body.length + 1) body.length)
  else pairs 0 body

def digitChar (d : UInt8) : Char := Char.ofNat (if d < 10 then d.toNat + 48 else d.toNat + 87)

def ofByte (b : UInt8) : List Char := [digitChar (b / 16), digitChar (b % 16)]

/-- Two lower-case digits for each byte. -/
def encode (b : Bytes) : String := String.ofList (b.flatMap ofByte)

end RealmLogon.Hex
