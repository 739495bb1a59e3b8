import RealmLogon.GeoIp.Csv
import RealmLogon.Net.Address
import RealmLogon.Text.Blank

/-! Countries of addresses, from records of first address, last address and country. The records are
sorted once; a look-up finds the last one that starts at or before the address by bisection. -/

namespace RealmLogon

/-- The place where a test turns false, for a test that holds up to some place and not after it:
between `low` and `high`, by halving. -/
def bisect (test : Nat → Bool) (low high : Nat) : Nat :=
  if low < high then
    let middle := (low + high) / 2
    if test middle then bisect test (middle + 1) high else bisect test low middle
  else low
termination_by high - low

namespace GeoIp

open Text

structure Range where
  first : UInt32
  last : UInt32
  country : String
  deriving DecidableEq, Repr

inductive Error where
  /-- A field is no text. -/
  | unreadable
  /-- A record lacks an address or a country. -/
  | malformed (record : Nat)
  deriving DecidableEq, Repr

def Error.message : Error → String
  | .unreadable => "Failed to read GeoIP record"
  | .malformed n => s!"Malformed GeoIP record on line {n}"

/-- An address as one decimal number or dotted. -/
def address? (field : String) : Option UInt32 :=
  let cs := (trim field).toList
  match Numeral.unsigned UInt32.size cs with
  | some n => some (UInt32.ofNat n)
  | none => Address.parseDotted cs

/-- The range of a record; fields after the third are not read. -/
def Range.ofFields? : List String → Option Range
  | first :: last :: country :: _ => do
    return ⟨← address? first, ← address? last, trim country⟩
  | _ => none

def Range.ofRecord (n : Nat) (r : Csv.Record) : Except Error Range :=
  match r.mapM Bytes.toString? with
  | none => .error .unreadable
  | some fields =>
    match Range.ofFields? fields with
    | some range => .ok range
    | none => .error (.malformed n)

def listed (file : Bytes) : Except Error (List Range) :=
  ((Csv.records file).zipIdx 1).mapM fun (r, n) => Range.ofRecord n r

end GeoIp

structure GeoIp where
  ranges : Array GeoIp.Range

namespace GeoIp

def empty : GeoIp := ⟨#[]⟩

/-- Ranges with equal first addresses keep their order. -/
def ofRanges (l : List Range) : GeoIp := ⟨(l.mergeSort fun a b => a.first ≤ b.first).toArray⟩

def load (file : Bytes) : Except Error GeoIp := (listed file).map ofRanges

def startedBy (g : GeoIp) (bits : UInt32) : Nat :=
  bisect (fun i => g.ranges[i]?.any (·.first ≤ bits)) 0 g.ranges.size

/-- The country of an address. A hyphen stands for no country, and only addresses of four bytes are
looked up. -/
def country? (g : GeoIp) : Address → Option String
  | .v6 _ => none
  | .v4 bits =>
    match g.startedBy bits with
    | 0 => none
    | n + 1 => do
      let range ← g.ranges[n]?
      if bits ≤ range.last ∧ range.country ≠ "-" then some range.country else none

end GeoIp

end RealmLogon
