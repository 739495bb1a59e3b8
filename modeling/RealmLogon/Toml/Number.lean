import RealmLogon.Text.Numeral
import RealmLogon.Toml.Scan
import RealmLogon.Toml.Value

/-! Numbers and moments. Underscores may stand between digits; an integer has 64 bits with a sign; a
date must be one of the calendar. -/

namespace RealmLogon.Toml

open RealmLogon.Text

def isDigit (c : Char) : Bool := c.isDigit

/-- The digits that follow a digit, with single underscores between digits left out. -/
def moreDigits (p : Char → Bool) : Scan (List Char) := fun cs => some (go cs)
where
  go : List Char → List Char × List Char
    | '_' :: c :: r => if p c then let (s, t) := go r; (c :: s, t) else ([], '_' :: c :: r)
    | c :: r => if p c then let (s, t) := go r; (c :: s, t) else ([], c :: r)
    | [] => ([], [])

def digits (p : Char → Bool) : Scan (List Char) := do
  let first ← Scan.satisfy p
  return first :: (← moreDigits p)

/-- Decimal digits, without a leading zero unless zero is all there is. -/
def decimalDigits : Scan (List Char) := do
  let first ← Scan.satisfy isDigit
  if first = '0' then return ['0'] else return first :: (← moreDigits isDigit)

def sign : Scan Bool := do
  match ← Scan.optional (Scan.satisfy fun c => c == '+' || c == '-') with
  | some c => return c == '-'
  | none => return false

def inRange (n : Int) : Bool := -0x8000000000000000 ≤ n && n < 0x8000000000000000

def checked (n : Int) : Scan Value := if inRange n then return .integer n else failure

/-- Digits in a base that a two-letter mark names; these numbers have no sign. -/
def marked (mark : String) (base : Nat) : Scan Value := do
  Scan.word mark
  checked (Numeral.value base (← digits (Numeral.isDigit base)))

def decimalInteger : Scan Value := do
  let negative ← sign
  let n := Numeral.value 10 (← decimalDigits)
  checked (if negative then -(n : Int) else n)

def integer : Scan Value := marked "0x" 16 <|> marked "0o" 8 <|> marked "0b" 2 <|> decimalInteger

def exponent : Scan Int := do
  discard <| Scan.satisfy fun c => c == 'e' || c == 'E'
  let negative ← sign
  let n := Numeral.value 10 (← digits isDigit)
  return if negative then -(n : Int) else n

/-- `n * 10 ^ e` rounds to infinity among the numbers with 64 bits. The exponent is compared first, so
that only powers of moderate size are computed. -/
def tooLarge (n : Nat) (e : Int) : Bool :=
  let size := (Nat.toDigits 10 n).length
  if n = 0 ∨ e + size < 300 then false
  else if 320 < e + size then true
  else
    let limit := (1 <<< 1024) - (1 <<< 970)
    if 0 ≤ e then limit ≤ n * Nat.pow 10 e.toNat else limit * Nat.pow 10 (-e).toNat ≤ n

/-- A number with a fraction or an exponent, and not too large if it is positive; or one of the names
of what is no number. -/
def real : Scan Value := do
  let negative ← sign
  (do
    let whole ← decimalDigits
    let (fraction, power) ← (do
      Scan.char '.'
      let fraction ← digits isDigit
      return (fraction, (← Scan.optional exponent).getD 0)) <|> (do return ([], ← exponent))
    let n := Numeral.value 10 (whole ++ fraction)
    if !negative && tooLarge n (power - fraction.length) then failure else return .real)
  <|> (do
    Scan.word "inf" <|> Scan.word "nan"
    return .real)

def field (n low high : Nat) : Scan Nat := do
  let v := Numeral.value 10 (← Scan.times n isDigit)
  if low ≤ v ∧ v ≤ high then return v else failure

def isLeap (year : Nat) : Bool := year % 4 == 0 && (year % 100 != 0 || year % 400 == 0)

def daysIn (year month : Nat) : Nat :=
  if month = 2 then if isLeap year then 29 else 28
  else if month = 4 ∨ month = 6 ∨ month = 9 ∨ month = 11 then 30 else 31

def date : Scan Unit := do
  let year ← field 4 0 9999
  Scan.char '-'
  let month ← field 2 1 12
  Scan.char '-'
  discard <| field 2 1 (daysIn year month)

def time : Scan Unit := do
  discard <| field 2 0 23
  Scan.char ':'
  discard <| field 2 0 59
  Scan.char ':'
  discard <| field 2 0 60
  discard <| Scan.optional (do Scan.char '.'; discard <| Scan.someRun isDigit)

def zone : Scan Unit :=
  (do discard <| Scan.satisfy fun c => c == 'Z' || c == 'z') <|> do
    discard <| Scan.satisfy fun c => c == '+' || c == '-'
    discard <| field 2 0 23
    Scan.char ':'
    discard <| field 2 0 59

/-- A date, a time, or both with a letter or a blank between them. -/
def moment : Scan Value := do
  (do
    date
    discard <| Scan.optional (do
      discard <| Scan.satisfy fun c => c == 'T' || c == 't' || c == ' '
      time
      discard <| Scan.optional zone)) <|> time
  return .moment

/-- A number or a moment. Of several readings the one that takes a moment, then a real number, wins. -/
def number : Scan Value := moment <|> real <|> integer

end RealmLogon.Toml
