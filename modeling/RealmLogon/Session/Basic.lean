import RealmLogon.Config.Basic
import RealmLogon.Exchange.Server
import RealmLogon.GeoIp.Ranges
import RealmLogon.Session.Flow
import RealmLogon.Wire.Frame

/-! The state of one logon session, and the conditions that end it without a reply. -/

namespace RealmLogon

/-- What all sessions of a service share and none changes. -/
structure Service where
  policy : Policy
  builds : BuildTable
  geoip : GeoIp
  /-- The key under which authenticator secrets are stored; without one they are stored as they are. -/
  masterKey : Option Sealed.MasterKey

inductive Missing where
  | exchange
  | account
  | sessionKey
  | reconnectNonce
  deriving DecidableEq, Repr

def Missing.name : Missing → String
  | .exchange => "SRP6 exchange"
  | .account => "account"
  | .sessionKey => "session key"
  | .reconnectNonce => "reconnect nonce"

inductive SessionError where
  | wire (e : WireError)
  | unexpectedState (opcode : UInt8) (phase : Phase)
  | bufferOverflow
  | timeout (phase : Phase)
  | invalidReconnectProof (login : String)
  | noValidExpansion (build : UInt16)
  | xferRejected (opcode : UInt8)
  | missingState (what : Missing)
  /-- Not an error that is reported: the program stopped at a time without room in 64 bits. -/
  | overflow
  deriving DecidableEq, Repr

/-- Most bytes that wait for a frame to be complete. -/
def bufferLimit : Nat := 4096

namespace SessionError

def message : SessionError → String
  | wire e => s!"Protocol violation: {e.message}"
  | unexpectedState opcode phase => s!"Opcode {hexByte opcode} not accepted in state {phase.name}"
  | bufferOverflow => s!"Read buffer limit of {bufferLimit} bytes exceeded"
  | timeout phase => s!"Timed out in state {phase.name}"
  | invalidReconnectProof login => s!"Invalid reconnect proof for '{login}'"
  | noValidExpansion build => s!"Client build {build.toNat} has no accepted expansion"
  | xferRejected opcode => s!"File transfer is not supported (opcode {hexByte opcode})"
  | missingState what => s!"No {what.name} for this state"
  | overflow => DirectoryError.overflow.message

/-- Malformed traffic, or traffic out of order, rather than a failed logon. -/
def isFramingViolation : SessionError → Bool
  | wire _ | unexpectedState .. | bufferOverflow | xferRejected _ => true
  | _ => false

end SessionError

structure Member where
  id : UInt32
  login : String
  security : UInt8
  deriving DecidableEq

def Account.member (a : Account) : Member := ⟨a.id, a.login, a.security⟩

structure Session where
  peer : Endpoint
  phase : Phase := .challenge
  build : UInt16 := 0
  expansion : Expansion := .invalid
  locale : UInt8 := 0
  os : String := ""
  platform : String := ""
  timezoneOffset : Int := 0
  account : Option Member := none
  /-- Present only between challenge and proof. -/
  exchange : Option Exchange.Server := none
  sessionKey : Option Exchange.SessionKey := none
  reconnectNonce : Option Exchange.Nonce := none
  /-- The opened authenticator secret, used up by the proof. -/
  totpSecret : Option Bytes := none

namespace Session

/-- How many seconds the session may idle in its phase, if there is a limit. -/
def idleTimeout (s : Session) (p : Policy) : Option Nat :=
  match s.phase with
  | .authed | .waitingForRealmList => some p.longTimeout
  | .xfer => none
  | _ => some p.shortTimeout

/-- A session and the reply to a frame, or the condition that ends the session. -/
abbrev Outcome := Session × Except SessionError Bytes

def reply (s : Session) (b : Bytes) : Flow Outcome := .done (s, .ok b)

def fail (s : Session) (e : SessionError) : Flow Outcome := .done (s, .error e)

/-- Minutes west of universal time, as 32 bits with a sign, become minutes east. -/
def eastOf (bias : UInt32) : Int := (-(bias.toNat : Int)).bmod UInt32.size

def introduce (s : Session) (table : BuildTable) (c : Challenge) : Session :=
  { s with
    build := c.build
    expansion := table.expansion c.build
    locale := localeIndex c.localeName
    os := c.osName
    platform := c.platformName
    timezoneOffset := eastOf c.timezoneBias }

/-- The command and the length of the frame at the front of the bytes, or none while it is not
complete. An opcode out of order is refused as soon as it comes. -/
def nextFrame (s : Session) (buffer : Bytes) : Except SessionError (Option (Command × Nat)) :=
  match buffer with
  | [] => .ok none
  | opcode :: _ =>
    match Frame.rule opcode with
    | .error e => .error (.wire e)
    | .ok rule =>
      if rule.phase ≠ s.phase then .error (.unexpectedState opcode s.phase)
      else
        match rule.length buffer with
        | .error e => .error (.wire e)
        | .ok none => .ok none
        | .ok (some n) => if n ≤ buffer.length then .ok (some (rule.command, n)) else .ok none

end Session

end RealmLogon
