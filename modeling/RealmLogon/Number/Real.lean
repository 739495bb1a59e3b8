/-! Binary floating-point numbers by their bit patterns, 32 bits wide (`Single`) and 64 bits wide
(`Double`). Widening is exact; narrowing goes to the nearest number and on a tie to the even one. -/

namespace RealmLogon

structure Single where
  bits : UInt32
  deriving DecidableEq, Repr, Inhabited

structure Double where
  bits : UInt64
  deriving DecidableEq, Repr, Inhabited

/-- A sign, an exponent field and a fraction field in a pattern with `w` fraction bits and `e`
exponent bits. -/
def packed (w e : Nat) (negative : Bool) (exponent fraction : Nat) : Nat :=
  (if negative then 1 <<< (w + e) else 0) + exponent <<< w + fraction

/-- `n` over the `k`-th power of two to the nearest integer, a tie to the even one. -/
def roundShift (n k : Nat) : Nat :=
  let q := n >>> k
  let r := n % 1 <<< k
  if 2 * r > 1 <<< k || (2 * r == 1 <<< k && q % 2 == 1) then q + 1 else q

namespace Single

def negative (s : Single) : Bool := s.bits.toNat >>> 31 == 1
def exponent (s : Single) : Nat := s.bits.toNat >>> 23 % 256
def fraction (s : Single) : Nat := s.bits.toNat % 0x800000
def isNaN (s : Single) : Bool := s.exponent == 255 && s.fraction != 0
def isInfinite (s : Single) : Bool := s.exponent == 255 && s.fraction == 0

/-- The absolute value of a finite number is `significand <<< scale`, counted in units of the smallest
positive number. -/
def significand (s : Single) : Nat := if s.exponent = 0 then s.fraction else 0x800000 + s.fraction
def scale (s : Single) : Nat := s.exponent - 1

/-- The same number with 64 bits. A significand that is subnormal here gets its leading bit moved to
the front; a NaN keeps its payload and becomes quiet. -/
def widen (s : Single) : Double :=
  let fields (exponent fraction : Nat) : Double := ⟨UInt64.ofNat (packed 52 11 s.negative exponent fraction)⟩
  if s.exponent = 255 then
    fields 2047 (if s.fraction = 0 then 0 else s.fraction <<< 29 ||| 0x8000000000000)
  else if s.exponent ≠ 0 then fields (s.exponent + 896) (s.fraction <<< 29)
  else if s.fraction = 0 then fields 0 0
  else
    let top := s.fraction.log2
    fields (874 + top) (s.fraction <<< (52 - top) - 0x10000000000000)

end Single

namespace Double

def negative (d : Double) : Bool := d.bits.toNat >>> 63 == 1
def exponent (d : Double) : Nat := d.bits.toNat >>> 52 % 2048
def fraction (d : Double) : Nat := d.bits.toNat % 0x10000000000000
def isNaN (d : Double) : Bool := d.exponent == 2047 && d.fraction != 0
def isZero (d : Double) : Bool := d.exponent == 0 && d.fraction == 0

def zero : Double := ⟨0⟩

/-- The nearest number with 32 bits; what is too large becomes infinite. -/
def narrow (d : Double) : Single :=
  let pattern (n : Nat) : Single := ⟨UInt32.ofNat ((if d.negative then 0x80000000 else 0) + n)⟩
  if d.exponent = 2047 then
    pattern (0x7F800000 + (if d.fraction = 0 then 0 else d.fraction >>> 29 ||| 0x400000))
  else if d.exponent ≥ 1151 then pattern 0x7F800000
  else if d.exponent ≥ 897 then
    -- a carry out of the fraction runs into the exponent field, as it should
    pattern ((d.exponent - 896) <<< 23 + roundShift d.fraction 29)
  else if d.exponent = 0 then pattern 0
  else pattern (roundShift (0x10000000000000 + d.fraction) (926 - d.exponent))

/-- The number nearest to `n / d`, a tie going to the even one; what is too large becomes infinite. -/
def nearest (negative : Bool) (n d : Nat) : Double :=
  let pattern (v : Nat) : Double := ⟨UInt64.ofNat ((if negative then 0x8000000000000000 else 0) + v)⟩
  if n = 0 then pattern 0
  else
    -- the quotient lies between the powers of two with exponents `e - 1` and `e + 1`
    let e : Int := (n.log2 : Int) - d.log2
    let e := if d <<< e.toNat ≤ n <<< (-e).toNat then e else e - 1
    let e := max e (-1022)
    let top := n <<< (52 - e).toNat
    let bottom := d <<< (e - 52).toNat
    let q := top / bottom
    let r := top % bottom
    let q := if bottom < 2 * r || (2 * r == bottom && q % 2 == 1) then q + 1 else q
    -- the leading bit, and a carry, run into the exponent field, as they should
    pattern (min ((e + 1022).toNat <<< 52 + q) 0x7FF0000000000000)

def ofInt (n : Int) : Double := nearest (n < 0) n.natAbs 1

def ofDecimal (negative : Bool) (n : Nat) (e : Int) : Double :=
  let size := n.log2 / 3 + 1
  if 400 < e then nearest negative (if n = 0 then 0 else 1 <<< 1024) 1
  else if e < -(400 + (size : Int)) then nearest negative 0 1
  else nearest negative (n * Nat.pow 10 e.toNat) (Nat.pow 10 (-e).toNat)

def unit : Nat := 1 <<< 1074

/-- A finite number, counted in units of the smallest positive one; an infinite one lies above or below them
all. -/
def scaled (d : Double) : Int :=
  let s := if d.exponent = 0 then d.fraction else (0x10000000000000 + d.fraction) <<< (d.exponent - 1)
  if d.negative then -(s : Int) else s

def addOne (d : Double) : Double :=
  if d.exponent = 2047 then d
  else
    let sum := d.scaled + unit
    nearest (sum < 0) sum.natAbs unit

def toInt? (d : Double) : Option Int :=
  if d.exponent = 2047 then none
  else if d.isZero then some 0
  else
    let s := if d.exponent = 0 then d.fraction else 0x10000000000000 + d.fraction
    let signed (m : Nat) : Int := if d.negative then -(m : Int) else m
    if d.exponent ≥ 1075 then some (signed (s <<< (d.exponent - 1075)))
    else
      let k := 1075 - max d.exponent 1
      if s % 1 <<< k = 0 then some (signed (s >>> k)) else none

end Double

namespace Single

/-- The number with one digit after the point, rounded to nearest with a tie to the even digit. -/
def oneDecimal (s : Single) : String :=
  if s.isNaN then "NaN"
  else
    let body :=
      if s.isInfinite then "inf"
      else
        let tenths := roundShift (10 * s.significand <<< s.scale) 149
        s!"{tenths / 10}.{tenths % 10}"
    if s.negative then "-" ++ body else body

end Single

end RealmLogon
