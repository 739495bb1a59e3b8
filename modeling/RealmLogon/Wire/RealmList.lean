import RealmLogon.Number.Real
import RealmLogon.Wire.Reader

/-! The realm list: the request, and the reply with its entries. The reply declares its size in 16
bits, so entries from the first one that would not fit are left out. -/

namespace RealmLogon

open LittleEndian

structure BuildVersion where
  major : UInt8
  minor : UInt8
  bugfix : UInt8
  build : UInt16
  deriving DecidableEq, Repr

structure RealmEntry where
  kind : UInt8
  locked : Bool
  flags : UInt8
  name : String
  address : String
  population : Single
  characters : UInt8
  timezone : UInt8
  id : UInt8
  build : Option BuildVersion
  deriving DecidableEq, Repr

namespace RealmEntry

/-- A build is part of an entry for expansion clients whose flags announce it. -/
def hasBuild (e : Expansion) (flags : UInt8) : Bool :=
  e == .post && flags &&& RealmFlag.specifyBuild != 0

def encodeBuild (v : BuildVersion) : Bytes := [v.major, v.minor, v.bugfix] ++ word16 v.build

def encode (e : Expansion) (r : RealmEntry) : Bytes :=
  (if e = .post then [r.kind, if r.locked then 1 else 0] else [r.kind, 0, 0, 0]) ++
    r.flags :: Bytes.ofString r.name ++ 0 :: Bytes.ofString r.address ++ 0 :: word32 r.population.bits ++
    [r.characters, r.timezone, if e = .post then r.id else 0] ++
    if hasBuild e r.flags then encodeBuild (r.build.getD ⟨0, 0, 0, 0⟩) else []

/-- Kind and lock: two bytes for expansion clients, four bytes and no lock for the others. -/
def readKind (e : Expansion) : Reader (UInt8 × Bool) :=
  if e = .post then do
    Reader.ensure 2
    let kind ← Reader.byte
    return (kind, (← Reader.byte) != 0)
  else do
    Reader.ensure 4
    return ((← Reader.word32).toUInt8, false)

def readBuild : Reader BuildVersion := do
  Reader.ensure 5
  let major ← Reader.byte
  let minor ← Reader.byte
  let bugfix ← Reader.byte
  return ⟨major, minor, bugfix, ← Reader.word16⟩

def read (e : Expansion) : Reader RealmEntry := do
  let (kind, locked) ← readKind e
  Reader.ensure 1
  let flags ← Reader.byte
  let name ← Reader.zeroTerminated
  let address ← Reader.zeroTerminated
  Reader.ensure 7
  let population ← Reader.word32
  let characters ← Reader.byte
  let timezone ← Reader.byte
  let id ← Reader.byte
  let build ← if hasBuild e flags then some <$> readBuild else pure none
  return ⟨kind, locked, flags, name, address, ⟨population⟩, characters, timezone, id, build⟩

end RealmEntry

/-- A request for the realm list: its four bytes of payload are zero. -/
def realmListRequest : Bytes := Command.realmList.code :: word32 0

def realmListRequestSize : Nat := 5

namespace RealmList

def maxBody : Nat := 65535

def emptyBody (e : Expansion) : Nat := if e = .post then 8 else 10

/-- The entries from the front that fit in `room` bytes. -/
def fitting (e : Expansion) (room : Nat) : List RealmEntry → List RealmEntry
  | [] => []
  | r :: rest =>
    let size := (r.encode e).length
    if size ≤ room then r :: fitting e (room - size) rest else []

def encode (e : Expansion) (realms : List RealmEntry) : Bytes :=
  let sent := fitting e (maxBody - emptyBody e) realms
  let body := word32 0 ++ digits (if e = .post then 2 else 4) sent.length ++ sent.flatMap (·.encode e) ++
    (if e = .post then [0x10, 0x00] else [0x00, 0x02])
  Command.realmList.code :: digits 2 body.length ++ body

def readCount (e : Expansion) : Reader Nat :=
  if e = .post then do
    Reader.ensure 2
    return (← Reader.word16).toNat
  else do
    Reader.ensure 4
    return (← Reader.word32).toNat

def readEntries (e : Expansion) : Nat → Reader (List RealmEntry)
  | 0 => return []
  | n + 1 => do
    let r ← RealmEntry.read e
    return r :: (← readEntries e n)

/-- The body, all of it within the declared size. -/
def readBody (e : Expansion) : Reader (List RealmEntry) := do
  Reader.ensure 4
  Reader.skip 4
  let count ← readCount e
  let realms ← readEntries e count
  Reader.ensure 2
  return realms

def read (e : Expansion) : Reader (List RealmEntry) := do
  Reader.command .realmList
  Reader.ensure 2
  let size := (← Reader.word16).toNat
  let body ← Reader.field size
  match Reader.decode (readBody e) body.toList with
  | .ok realms => return realms
  | .error err => Reader.fail err

def decode (b : Bytes) (e : Expansion) : Except WireError (List RealmEntry) := Reader.decode (read e) b

end RealmList

end RealmLogon
