import RealmLogon.Directory.Accounts
import RealmLogon.Realm.Announcement

/-! Realms in the login database, and the numbers of characters that accounts have in them. -/

namespace RealmLogon

namespace RealmRow

def ofRealm (id : Int) (r : Realm) : RealmRow where
  id := id
  name := r.name
  address := r.external.print
  localAddress := r.localAddress.print
  mask := r.mask.print
  port := .integer r.port.toNat
  icon := .integer r.kind.toNat
  flag := .integer r.flags.toNat
  timezone := .integer r.timezone.toNat
  security := .integer r.security.toNat
  population := .ofDouble r.population.widen
  build := .integer r.build.toNat

/-- A realm with this flag value is on no list. -/
def isHidden (r : RealmRow) : Bool := r.flag == .integer 3

/-- A row as a realm, or none if one of its texts is no address. -/
def toRealm (r : RealmRow) : Except DirectoryError (Option Realm) := do
  let column {α : Type} (read : Option α) := AccountRow.column read
  let id ← column (Cell.integer r.id).toUInt32?
  let port ← column r.port.toUInt16?
  let kind ← column r.icon.toUInt8?
  let flags ← column r.flag.toUInt8?
  let timezone ← column r.timezone.toUInt8?
  let security ← column r.security.toUInt8?
  let population ← column r.population.toDouble?
  let build ← column r.build.toUInt16?
  return do
    return {
      id := id
      name := r.name
      external := ← Address.parse r.address
      localAddress := ← Address.parse r.localAddress
      mask := ← Address.parse r.mask
      port := port
      kind := kind
      flags := flags
      timezone := timezone
      security := security
      population := population.narrow
      build := build }

end RealmRow

def byteOrder (a b : String) : Bool := Bytes.ofString a ≤ Bytes.ofString b

namespace Store

/-- Add a realm under a free name; its own number is not looked at. -/
def addRealm (s : Store) (r : Realm) : Written UInt32 :=
  let row := do
    let row := RealmRow.ofRealm (← nextNumber s.realms) r
    return { row with population := ← row.population.present }
  match row.bind fun r => (s.addRealmRow r).map fun s => (r.id, s) with
  | some (id, s) => (.ok (UInt32.ofInt id), s)
  | none => (.error .database, s)

def listRealms (s : Store) : Except DirectoryError (List Realm) :=
  let rows := (s.realms.rows.filter (!·.isHidden)).mergeSort fun a b => byteOrder a.name b.name
  (rows.mapM RealmRow.toRealm).map (·.filterMap id)

def countsByAccount (s : Store) (account : UInt32) : Except DirectoryError CharacterCounts :=
  (s.characters.filter (·.account == .integer account.toNat)).mapM fun r => do
    return (← AccountRow.column r.realm.toUInt32?, ← AccountRow.column r.count.toUInt8?)

end Store

end RealmLogon
