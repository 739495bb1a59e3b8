import RealmLogon.Bytes.Octets
import RealmLogon.Number.Decimal
import RealmLogon.Text.Numeral

/-! Values in the columns of the login database. A column prefers one type and turns a value into it
where nothing is lost; otherwise a value keeps its own type, so that reading a column can fail. -/

namespace RealmLogon

open Text

inductive Cell where
  | null
  | integer (n : Int)
  | real (d : Double)
  | text (s : String)
  | blob (b : Bytes)
  deriving DecidableEq, Inhabited

namespace Cell

/-- Integers have 64 bits and a sign. -/
def inRange (n : Int) : Bool := -0x8000000000000000 ≤ n && n < 0x8000000000000000

theorem inRange_iff {n : Int} : inRange n = true ↔ -0x8000000000000000 ≤ n ∧ n < 0x8000000000000000 := by
  rw [inRange, Bool.and_eq_true, decide_eq_true_eq, decide_eq_true_eq]

def isSpace (c : Char) : Bool := c == ' ' || ('\t' ≤ c && c ≤ '\r')

/-- A number at the front of a text: sign, digits, a fraction and an exponent. The result is the number
without its sign, as an integer times a power of ten, and the rest of the text. -/
def leadingNumber (cs : List Char) : Option (Bool × Nat × Int × List Char) :=
  let (negative, cs) := match cs with
    | '-' :: r => (true, r)
    | '+' :: r => (false, r)
    | _ => (false, cs)
  let whole := cs.takeWhile Char.isDigit
  let rest := cs.dropWhile Char.isDigit
  let (fraction, rest) := match rest with
    | '.' :: r => (r.takeWhile Char.isDigit, r.dropWhile Char.isDigit)
    | _ => ([], rest)
  if whole = [] ∧ fraction = [] then none
  else
    let (power, rest) : Int × List Char := match rest with
      | e :: r =>
        let (minus, digits) := match r with
          | '-' :: t => (true, t)
          | '+' :: t => (false, t)
          | _ => (false, r)
        let exponent := digits.takeWhile Char.isDigit
        if (e = 'e' ∨ e = 'E') ∧ exponent ≠ [] then
          let n := Numeral.value 10 exponent
          (if minus then -(n : Int) else n, digits.dropWhile Char.isDigit)
        else (0, rest)
      | [] => (0, rest)
    some (negative, Numeral.value 10 (whole ++ fraction), power - fraction.length, rest)

/-- A real number that is an integer, and not at the ends of their range, becomes one. -/
def exact (d : Double) : Cell :=
  match d.toInt? with
  | some n => if inRange (n - 1) && inRange (n + 1) then integer n else real d
  | none => real d

def ofNumber (negative : Bool) (n : Nat) (power : Int) : Cell :=
  let signed : Int := if negative then -(n : Int) else n
  if power = 0 ∧ inRange signed then integer signed else exact (Double.ofDecimal negative n power)

/-- A text that is a number, apart from spaces around it, as this number. -/
def numeric (s : String) : Cell :=
  match leadingNumber (s.toList.dropWhile isSpace) with
  | some (negative, n, power, rest) => if rest.all isSpace then ofNumber negative n power else text s
  | none => text s

def asInteger : Cell → Cell
  | real d => exact d
  | text s => numeric s
  | c => c
@[simp] theorem asInteger_integer (n : Int) : asInteger (integer n) = integer n := rfl

/-- A real number as it is kept: there is no negative zero, and what is no number is nothing. -/
def ofDouble (d : Double) : Cell := if d.isNaN then null else if d.isZero then real .zero else real d

def asReal (c : Cell) : Cell :=
  match c.asInteger with
  | integer n => real (.ofInt n)
  | real d => ofDouble d
  | c => c

/-- A value in a column of texts, which takes texts and numbers. -/
def toText? : Cell → Option String
  | text s => some s
  | integer n => some (toString n)
  | real d => if d.isNaN then none else some d.text
  | _ => none

def present (c : Cell) : Option Cell := if c = null then none else some c

/-- One more; a text counts as the number at its front. -/
def next : Cell → Cell
  | null => null
  | integer n => if inRange (n + 1) then integer (n + 1) else real (.ofInt (n + 1))
  | real d => exact d.addOne
  | text s =>
    match leadingNumber (s.toList.dropWhile isSpace) with
    | some (negative, n, power, _) => exact (Double.ofDecimal negative n power).addOne
    | none => integer 1
  | blob _ => integer 1
@[simp] theorem next_integer {n : Int} (h : inRange (n + 1) = true) : next (integer n) = integer (n + 1) := by
  simp [next, h]

/-- Whether a value lies above an integer; texts and blobs lie above all numbers. -/
def isAbove (c : Cell) (bound : Int) : Bool :=
  match c with
  | null => false
  | integer n => bound < n
  | real d => bound * Double.unit < d.scaled
  | text _ | blob _ => true
@[simp] theorem isAbove_integer (n bound : Int) : isAbove (integer n) bound = decide (bound < n) := rfl

def toNat? (bound : Nat) : Cell → Option Nat
  | integer n => if 0 ≤ n ∧ n < bound then some n.toNat else none
  | _ => none

def toUInt8? (c : Cell) : Option UInt8 := (c.toNat? UInt8.size).map UInt8.ofNat
def toUInt16? (c : Cell) : Option UInt16 := (c.toNat? UInt16.size).map UInt16.ofNat
def toUInt32? (c : Cell) : Option UInt32 := (c.toNat? UInt32.size).map UInt32.ofNat

theorem toNat?_natCast {n bound : Nat} (h : n < bound) : (integer n).toNat? bound = some n := by
  have hr : 0 ≤ (n : Int) ∧ (n : Int) < bound := by omega
  rw [toNat?, if_pos hr, Int.toNat_natCast]

@[simp] theorem toUInt8?_toNat (n : UInt8) : (integer n.toNat).toUInt8? = some n := by
  rw [toUInt8?, toNat?_natCast n.toNat_lt_size, Option.map_some, UInt8.ofNat_toNat]

@[simp] theorem toUInt16?_toNat (n : UInt16) : (integer n.toNat).toUInt16? = some n := by
  rw [toUInt16?, toNat?_natCast n.toNat_lt_size, Option.map_some, UInt16.ofNat_toNat]

/-- An integer that counts as true unless it is zero. -/
def toBool? : Cell → Option Bool
  | integer n => some (n != 0)
  | _ => none

def toBytes? : Cell → Option Bytes
  | blob b => some b
  | _ => none

def toOptionalBytes? : Cell → Option (Option Bytes)
  | null => some none
  | blob b => some (some b)
  | _ => none

def toDouble? : Cell → Option Double
  | real d => some d
  | integer n => some (.ofInt n)
  | _ => none

end Cell

end RealmLogon
