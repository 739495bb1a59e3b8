import RealmLogon.Bytes.Octets

/-! Records of comma-separated fields. A field may stand in double quotes, with a quote inside written
twice; a record ends with a line feed or a carriage return, and empty lines are no records. -/

namespace RealmLogon.Csv

abbrev Record := List Bytes

/-- What the byte to come is part of. -/
inductive Place where
  /-- No byte of the record has come. -/
  | recordStart
  | fieldStart
  | plain
  | quoted
  /-- A quote has come inside quotes: it ends them, or it is the first of two. -/
  | afterQuote
  deriving DecidableEq

/-- A scan in progress; fields and records are kept last one first. -/
structure Scan where
  place : Place
  field : Bytes
  fields : List Bytes
  records : List Record

def Scan.start : Scan := ⟨.recordStart, [], [], []⟩

namespace Scan

def put (s : Scan) (place : Place) (b : UInt8) : Scan := { s with place := place, field := b :: s.field }

def endField (s : Scan) : Scan :=
  { s with place := .fieldStart, field := [], fields := s.field.reverse :: s.fields }

def endRecord (s : Scan) : Scan :=
  ⟨.recordStart, [], [], (s.field.reverse :: s.fields).reverse :: s.records⟩

def isNewline (b : UInt8) : Bool := b == 0x0A || b == 0x0D

def unquoted (s : Scan) (b : UInt8) : Scan :=
  if b = 0x2C then s.endField else if isNewline b then s.endRecord else s.put .plain b

def step (s : Scan) (b : UInt8) : Scan :=
  match s.place with
  | .recordStart =>
    if isNewline b then s else if b = 0x22 then { s with place := .quoted } else s.unquoted b
  | .fieldStart => if b = 0x22 then { s with place := .quoted } else s.unquoted b
  | .plain => s.unquoted b
  | .quoted => if b = 0x22 then { s with place := .afterQuote } else s.put .quoted b
  | .afterQuote => if b = 0x22 then s.put .quoted b else s.unquoted b

/-- The end of the bytes ends a record that has begun, quotes or not. -/
def finish (s : Scan) : List Record :=
  (if s.place = .recordStart then s else s.endRecord).records.reverse

end Scan

/-- A byte order mark at the front is no part of the first record. -/
def withoutMark : Bytes → Bytes
  | 0xEF :: 0xBB :: 0xBF :: r => r
  | b => b

def records (b : Bytes) : List Record := ((withoutMark b).foldl Scan.step Scan.start).finish

end RealmLogon.Csv
