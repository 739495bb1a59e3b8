import RealmLogon.Bytes.Octets

/-! The numbers that name things on the wire: commands, results and flags, with the phases a
connection goes through and the generations of clients. -/

namespace RealmLogon

inductive Command where
  | logonChallenge | logonProof | reconnectChallenge | reconnectProof | realmList
  | xferInitiate | xferData | xferAccept | xferResume | xferCancel
  deriving DecidableEq, Repr

namespace Command

def all : List Command := [.logonChallenge, .logonProof, .reconnectChallenge, .reconnectProof, .realmList,
  .xferInitiate, .xferData, .xferAccept, .xferResume, .xferCancel]

def code : Command → UInt8
  | .logonChallenge => 0x00
  | .logonProof => 0x01
  | .reconnectChallenge => 0x02
  | .reconnectProof => 0x03
  | .realmList => 0x10
  | .xferInitiate => 0x30
  | .xferData => 0x31
  | .xferAccept => 0x32
  | .xferResume => 0x33
  | .xferCancel => 0x34

def ofCode? (b : UInt8) : Option Command := all.find? (·.code == b)

@[simp] theorem ofCode?_code (c : Command) : ofCode? c.code = some c := by cases c <;> rfl

def name : Command → String
  | .logonChallenge => "LogonChallenge"
  | .logonProof => "LogonProof"
  | .reconnectChallenge => "ReconnectChallenge"
  | .reconnectProof => "ReconnectProof"
  | .realmList => "RealmList"
  | .xferInitiate => "XferInitiate"
  | .xferData => "XferData"
  | .xferAccept => "XferAccept"
  | .xferResume => "XferResume"
  | .xferCancel => "XferCancel"

end Command

inductive Phase where
  | challenge | logonProof | reconnectProof | authed | waitingForRealmList | xfer | closed
  deriving DecidableEq, Repr

def Phase.name : Phase → String
  | .challenge => "Challenge"
  | .logonProof => "LogonProof"
  | .reconnectProof => "ReconnectProof"
  | .authed => "Authed"
  | .waitingForRealmList => "WaitingForRealmList"
  | .xfer => "Xfer"
  | .closed => "Closed"

inductive Verdict where
  | success | banned | unknownAccount | incorrectPassword | alreadyOnline | noTime | dbBusy
  | versionInvalid | versionUpdate | invalidServer | suspended | noAccess | successSurvey
  | parentControl | lockedEnforced | trialEnded | useBattlenet | unlockableLock | disconnected
  deriving DecidableEq, Repr

namespace Verdict

def all : List Verdict := [.success, .banned, .unknownAccount, .incorrectPassword, .alreadyOnline, .noTime,
  .dbBusy, .versionInvalid, .versionUpdate, .invalidServer, .suspended, .noAccess, .successSurvey,
  .parentControl, .lockedEnforced, .trialEnded, .useBattlenet, .unlockableLock, .disconnected]

def code : Verdict → UInt8
  | .success => 0x00
  | .banned => 0x03
  | .unknownAccount => 0x04
  | .incorrectPassword => 0x05
  | .alreadyOnline => 0x06
  | .noTime => 0x07
  | .dbBusy => 0x08
  | .versionInvalid => 0x09
  | .versionUpdate => 0x0A
  | .invalidServer => 0x0B
  | .suspended => 0x0C
  | .noAccess => 0x0D
  | .successSurvey => 0x0E
  | .parentControl => 0x0F
  | .lockedEnforced => 0x10
  | .trialEnded => 0x11
  | .useBattlenet => 0x12
  | .unlockableLock => 0x19
  | .disconnected => 0xFF

def ofCode? (b : UInt8) : Option Verdict := all.find? (·.code == b)

@[simp] theorem ofCode?_code (v : Verdict) : ofCode? v.code = some v := by cases v <;> rfl

def name : Verdict → String
  | .success => "Success"
  | .banned => "FailBanned"
  | .unknownAccount => "FailUnknownAccount"
  | .incorrectPassword => "FailIncorrectPassword"
  | .alreadyOnline => "FailAlreadyOnline"
  | .noTime => "FailNoTime"
  | .dbBusy => "FailDbBusy"
  | .versionInvalid => "FailVersionInvalid"
  | .versionUpdate => "FailVersionUpdate"
  | .invalidServer => "FailInvalidServer"
  | .suspended => "FailSuspended"
  | .noAccess => "FailNoAccess"
  | .successSurvey => "SuccessSurvey"
  | .parentControl => "FailParentControl"
  | .lockedEnforced => "FailLockedEnforced"
  | .trialEnded => "FailTrialEnded"
  | .useBattlenet => "FailUseBattlenet"
  | .unlockableLock => "FailUnlockableLock"
  | .disconnected => "FailDisconnected"

end Verdict

/-- The generation of a client, by its build number. -/
inductive Expansion where
  | invalid | pre | post
  deriving DecidableEq, Repr

def Expansion.isValid (e : Expansion) : Bool := e != .invalid

-- Bits by which a challenge asks for more than a password.
namespace SecurityFlag
def pin : UInt8 := 0x01
def matrix : UInt8 := 0x02
def authenticator : UInt8 := 0x04
end SecurityFlag

-- Bits of a realm in the realm list.
namespace RealmFlag
def offline : UInt8 := 0x02
def specifyBuild : UInt8 := 0x04
end RealmFlag

/-- The seed of the version proof is the same for every client. -/
def versionChallenge : Octets 16 :=
  ⟨[0xBA, 0xA3, 0x1E, 0x99, 0xA0, 0x0B, 0x21, 0x57, 0xFC, 0x37, 0x3F, 0xB3, 0x69, 0xCD, 0xD2, 0xF1], rfl⟩

/-- Account flags that expansion clients are told after a logon. -/
def defaultAccountFlags : UInt32 := 0x00800000

/-- Client locales in the order of their numbers. -/
def locales : List String := ["enUS", "koKR", "frFR", "deDE", "zhCN", "zhTW", "esES", "esMX", "ruRU"]

/-- The number of a locale; an unknown name counts as the first. -/
def localeIndex (name : String) : UInt8 := UInt8.ofNat ((locales.findIdx? (· == name)).getD 0)

end RealmLogon
