import RealmLogon.Bytes.LittleEndian
import RealmLogon.Text.Numeral
import RealmLogon.Text.Pieces

/-! Internet addresses of four bytes and of eight 16-bit groups, as values and as text. The text of a
group address leaves out its longest run of zero groups, the first of equal ones, if that is longer
than one group; an address that embeds one of four bytes shows it dotted. -/

namespace RealmLogon

open Text

structure Groups where
  toList : List UInt16
  length_toList : toList.length = 8
  deriving DecidableEq

inductive Address where
  | v4 (bits : UInt32)
  | v6 (groups : Groups)
  deriving DecidableEq

instance : Inhabited Address := ⟨.v4 0⟩

structure Endpoint where
  ip : Address
  port : UInt16
  deriving DecidableEq, Inhabited

namespace Address

/-- One byte of a dotted address: up to three digits, and a leading zero only alone. -/
def dottedPart (cs : List Char) : Option Nat :=
  if cs.length ≤ 3 ∧ (cs.head? = some '0' → cs.length = 1) then (Numeral.parse 10 cs).filter (· < 256)
  else none

/-- Four bytes in decimal with dots between them, the highest first. -/
def parseDotted (cs : List Char) : Option UInt32 :=
  match (pieces '.' cs).mapM dottedPart with
  | some [a, b, c, d] => some (UInt32.ofNat (((a * 256 + b) * 256 + c) * 256 + d))
  | _ => none

def dotted (bits : UInt32) : List Char :=
  let n := bits.toNat
  joined '.' ([n >>> 24, n >>> 16 % 256, n >>> 8 % 256, n % 256].map (Numeral.print 10))

def group (cs : List Char) : Option UInt16 :=
  if cs.length ≤ 4 then (Numeral.parse 16 cs).map UInt16.ofNat else none

/-- Groups with colons between them; the last piece may be a dotted address in place of two groups. -/
def groups (tailDotted : Bool) : List (List Char) → Option (List UInt16)
  | [] => some []
  | [last] =>
    match group last with
    | some g => some [g]
    | none =>
      if tailDotted then
        (parseDotted last).map fun bits =>
          [UInt16.ofNat (bits.toNat / UInt16.size), UInt16.ofNat (bits.toNat % UInt16.size)]
      else none
  | p :: ps => do return (← group p) :: (← groups tailDotted ps)

def side (tailDotted : Bool) (cs : List Char) : Option (List UInt16) :=
  if cs = [] then some [] else groups tailDotted (pieces ':' cs)

def gap : List Char → Option (List Char × List Char)
  | ':' :: ':' :: r => some ([], r)
  | c :: r => (gap r).map fun (a, b) => (c :: a, b)
  | [] => none

def ofGroups (g : List UInt16) : Option Groups := if h : g.length = 8 then some ⟨g, h⟩ else none

/-- Eight groups, or fewer around a double colon that stands for at least one zero group. -/
def parseGroups (cs : List Char) : Option Groups :=
  match gap cs with
  | none => do ofGroups (← side true cs)
  | some (before, after) => do
    let head ← side false before
    let tail ← side true after
    if head.length + tail.length ≤ 7 then
      ofGroups (head ++ List.replicate (8 - head.length - tail.length) 0 ++ tail)
    else none

def parse (s : String) : Option Address :=
  match parseDotted s.toList with
  | some bits => some (.v4 bits)
  | none => (parseGroups s.toList).map .v6

def zeros (g : List UInt16) : Nat := (g.takeWhile (· == 0)).length

/-- Place and length of the longest run of zero groups, the first of equal ones. -/
def longestZeros : List UInt16 → Nat × Nat
  | [] => (0, 0)
  | g :: r =>
    let (place, length) := longestZeros r
    if length ≤ zeros (g :: r) then (0, zeros (g :: r)) else (place + 1, length)

def hexGroups (g : List UInt16) : List Char := joined ':' (g.map fun x => Numeral.print 16 x.toNat)

/-- The four bytes that a group address embeds, if it has the form that embeds them. -/
def embedded? (g : Groups) : Option UInt32 :=
  match g.toList with
  | [0, 0, 0, 0, 0, 0xFFFF, a, b] => some (UInt32.ofNat (a.toNat * UInt16.size + b.toNat))
  | _ => none

def printGroups (g : Groups) : List Char :=
  match embedded? g with
  | some bits => "::ffff:".toList ++ dotted bits
  | none =>
    let (place, length) := longestZeros g.toList
    if length ≤ 1 then hexGroups g.toList
    else hexGroups (g.toList.take place) ++ "::".toList ++ hexGroups (g.toList.drop (place + length))

def print : Address → String
  | .v4 bits => String.ofList (dotted bits)
  | .v6 g => String.ofList (printGroups g)

def isLoopback : Address → Bool
  | .v4 bits => bits.toNat >>> 24 == 127
  | .v6 g => g.toList == [0, 0, 0, 0, 0, 0, 0, 1]

/-- Two addresses agree under a mask; only addresses of four bytes do. -/
def agree (mask a b : Address) : Bool :=
  match mask, a, b with
  | .v4 m, .v4 a, .v4 b => a &&& m == b &&& m
  | _, _, _ => false

end Address

namespace Endpoint

/-- Address and port; a group address stands in brackets. -/
def print (e : Endpoint) : String :=
  let port := Numeral.decimal e.port.toNat
  match e.ip with
  | .v4 _ => e.ip.print ++ ":" ++ port
  | .v6 _ => "[" ++ e.ip.print ++ "]:" ++ port

def cut (cs : List Char) : List Char × List Char :=
  let r := cs.reverse
  ((r.dropWhile (· != ':')).drop 1 |>.reverse, (r.takeWhile (· != ':')).reverse)

def parse (s : String) : Option Endpoint := do
  let (host, port) := cut s.toList
  let port ← (Numeral.parse 10 port).filter (· < UInt16.size)
  match host with
  | '[' :: inner =>
    if inner.getLast? = some ']' then return ⟨.v6 (← Address.parseGroups inner.dropLast), UInt16.ofNat port⟩
    else none
  | _ => return ⟨.v4 (← Address.parseDotted host), UInt16.ofNat port⟩

end Endpoint

end RealmLogon
