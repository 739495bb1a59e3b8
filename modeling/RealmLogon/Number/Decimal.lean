import RealmLogon.Number.Real
import RealmLogon.Text.Numeral

/-! Decimal text of numbers with 64 bits: so many significant digits, half of the last one going up, and no
zeros at the end apart from one behind the point. -/

namespace RealmLogon.Double

open Text

/-- A power of ten that makes every positive number greater than one. -/
def lift : Nat := 330

/-- The exponent of the power of ten that a positive number, counted in units of the smallest one, begins with. -/
def decimalExponent (s : Nat) : Int :=
  ((Numeral.print 10 (s * Nat.pow 10 lift / unit)).length : Int) - 1 - lift

/-- A positive number, counted in units of the smallest one, as a natural number times a power of ten. -/
def roundedAt (s : Nat) (power : Int) : Nat :=
  let numerator := s * Nat.pow 10 (-power).toNat
  let denominator := unit * Nat.pow 10 power.toNat
  (2 * numerator + denominator) / (2 * denominator)

def significant (count s : Nat) : List Char × Int :=
  let e := decimalExponent s
  let digits := Numeral.print 10 (roundedAt s (e - count + 1))
  (digits.take count, if count < digits.length then e + 1 else e)

def withoutZeros (digits : List Char) : List Char := (digits.reverse.dropWhile (· = '0')).reverse

/-- Digits behind a point; there is one at least. -/
def afterPoint (digits : List Char) : List Char :=
  '.' :: match withoutZeros digits with
    | [] => ['0']
    | ds => ds

def exponentText (e : Int) : List Char :=
  let digits := Numeral.print 10 e.natAbs
  ['e', if e < 0 then '-' else '+'] ++ List.replicate (2 - digits.length) '0' ++ digits

def precision : Nat := 15

/-- A positive number; an exponent is written below the fourth place after the point, and where the digits
end before the point. -/
def positiveText (s : Nat) : List Char :=
  let (digits, e) := significant precision s
  if e < -4 ∨ (precision : Int) ≤ e then digits.take 1 ++ afterPoint (digits.drop 1) ++ exponentText e
  else if e < 0 then '0' :: afterPoint (List.replicate (-e - 1).toNat '0' ++ digits)
  else digits.take (e.toNat + 1) ++ afterPoint (digits.drop (e.toNat + 1))

def text (d : Double) : String :=
  let body :=
    if d.exponent = 2047 then ['I', 'n', 'f']
    else if d.isZero then ['0', '.', '0']
    else positiveText d.scaled.natAbs
  String.ofList (if d.negative then '-' :: body else body)

end RealmLogon.Double
