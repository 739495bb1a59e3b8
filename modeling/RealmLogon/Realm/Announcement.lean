import RealmLogon.Build.Table
import RealmLogon.Realm.Descriptor
import RealmLogon.Wire.RealmList

/-! The realm list as one client sees it. A realm that the client cannot join stays on the list, shown
offline, and names its build if that is known. -/

namespace RealmLogon

/-- What an announcement needs to know of the client. -/
structure Audience where
  build : UInt16
  expansion : Expansion
  security : UInt8
  ip : Address
  deriving DecidableEq

/-- Numbers of characters by realm; a realm that is missing has none. -/
abbrev CharacterCounts := List (UInt32 × UInt8)

namespace CharacterCounts

/-- The number for a realm; of several the last counts. -/
def get (c : CharacterCounts) (realm : UInt32) : UInt8 :=
  ((c.reverse.find? (·.1 == realm)).map (·.2)).getD 0

end CharacterCounts

namespace Announcement

/-- An expansion client joins realms of its own build, an older client all realms of its generation. -/
def joinable (table : BuildTable) (client : Audience) (build : UInt16) : Bool :=
  match client.expansion with
  | .post => build == client.build
  | .pre => table.expansion build == .pre
  | .invalid => false

/-- The flags of a realm for a client: offline if it cannot be joined, and with a build only if the
version of that build is known. -/
def flags (table : BuildTable) (client : Audience) (r : Realm) : UInt8 :=
  let shown :=
    if joinable table client r.build then r.flags
    else r.flags ||| (RealmFlag.offline ||| RealmFlag.specifyBuild)
  if (table.info? r.build).isSome then shown else shown &&& ~~~RealmFlag.specifyBuild

def version? (table : BuildTable) (flags : UInt8) (build : UInt16) : Option BuildVersion :=
  if flags &&& RealmFlag.specifyBuild = 0 then none
  else (table.info? build).map fun i => ⟨i.major, i.minor, i.bugfix, i.build⟩

/-- Older clients read the version out of the name. -/
def name (client : Audience) (r : Realm) (version : Option BuildVersion) : String :=
  match version with
  | some v =>
    if client.expansion = .pre then
      s!"{r.name} ({v.major.toNat}.{v.minor.toNat}.{v.bugfix.toNat})"
    else r.name
  | none => r.name

/-- The entry of a realm; a realm whose number needs more than a byte has none. -/
def announce? (table : BuildTable) (client : Audience) (counts : CharacterCounts) (r : Realm) :
    Option RealmEntry :=
  if 255 < r.id.toNat then none
  else
    let shown := flags table client r
    let version := version? table shown r.build
    some {
      kind := r.kind
      locked := client.security < r.security
      flags := shown
      name := name client r version
      address := (r.endpointFor client.ip).print
      population := r.population
      characters := counts.get r.id
      timezone := r.timezone
      id := r.id.toUInt8
      build := version }

def entries (table : BuildTable) (client : Audience) (counts : CharacterCounts) (realms : List Realm) :
    List RealmEntry :=
  realms.filterMap (announce? table client counts)

end Announcement

end RealmLogon
