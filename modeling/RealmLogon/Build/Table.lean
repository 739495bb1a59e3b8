import RealmLogon.Hash.Sha1
import RealmLogon.Text.Hex
import RealmLogon.Wire.Code

/-! The client builds that a service accepts: two ranges of build numbers, one for each generation of
clients, and what is known of single builds. -/

namespace RealmLogon

/-- Build numbers from `first` to `last`; none if `last` comes before `first`. -/
structure BuildRange where
  first : UInt16
  last : UInt16
  deriving DecidableEq, Repr

namespace BuildRange

def contains (r : BuildRange) (build : UInt16) : Bool := r.first ≤ build && build ≤ r.last

def isEmpty (r : BuildRange) : Bool := r.last < r.first

/-- Two ranges share a number, provided that neither is empty. -/
def overlaps (r s : BuildRange) : Bool := r.first ≤ s.last && s.first ≤ r.last

end BuildRange

/-- A build as it is listed, with its executable hashes still as text. -/
structure ListedBuild where
  build : UInt16
  major : UInt8
  minor : UInt8
  bugfix : UInt8
  hotfix : String
  winHash : Option String
  macHash : Option String
  deriving DecidableEq

structure BuildListing where
  pre : BuildRange
  post : BuildRange
  builds : List ListedBuild
  deriving DecidableEq

structure Build where
  build : UInt16
  major : UInt8
  minor : UInt8
  bugfix : UInt8
  hotfix : Option Char
  winHash : Option Digest
  macHash : Option Digest
  deriving DecidableEq

structure BuildError where
  build : UInt16
  cause : Hex.Error
  deriving DecidableEq

def BuildError.causes (e : BuildError) : List String :=
  [s!"Invalid executable hash for build {e.build.toNat}", e.cause.message]

def executableHash (text : Option String) : Except Hex.Error (Option Digest) :=
  match text with
  | none => .ok none
  | some t => (Hex.parse 20 t).map some

def ListedBuild.read (l : ListedBuild) : Except BuildError Build := do
  let hash (text : Option String) := (executableHash text).mapError (BuildError.mk l.build)
  let winHash ← hash l.winHash
  let macHash ← hash l.macHash
  return ⟨l.build, l.major, l.minor, l.bugfix, l.hotfix.toList.head?, winHash, macHash⟩

structure BuildTable where
  pre : BuildRange
  post : BuildRange
  builds : List Build
  deriving DecidableEq

namespace BuildTable

def ofListing (l : BuildListing) : Except BuildError BuildTable :=
  (l.builds.mapM ListedBuild.read).map (BuildTable.mk l.pre l.post)

def expansion (t : BuildTable) (build : UInt16) : Expansion :=
  if t.post.contains build then .post else if t.pre.contains build then .pre else .invalid

/-- What is known of a build; the last entry counts. -/
def info? (t : BuildTable) (build : UInt16) : Option Build := t.builds.reverse.find? (·.build == build)

def executableHash? (t : BuildTable) (build : UInt16) (os : String) : Option Digest := do
  let info ← t.info? build
  if os = "Win" then info.winHash else if os = "OSX" then info.macHash else none

end BuildTable

end RealmLogon
