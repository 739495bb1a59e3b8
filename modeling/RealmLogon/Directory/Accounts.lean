import RealmLogon.Directory.Store
import RealmLogon.Exchange.Registration
import RealmLogon.Net.Address

/-! Accounts in the login database: registration, look-up, bans, and what a logon leaves behind. -/

namespace RealmLogon

open Exchange Text

inductive DirectoryError where
  /-- The database does not answer. -/
  | unavailable
  /-- A constraint is violated, or a column holds a value of the wrong type or out of range. -/
  | database
  | wrongLength (column : String) (expected got : Nat)
  /-- A time has no room in 64 bits. The program stops where it would be computed, so nobody deals with this error. -/
  | overflow
  deriving DecidableEq, Repr

def DirectoryError.message : DirectoryError → String
  | .unavailable => "Directory unavailable"
  | .database => "Database error"
  | .wrongLength column expected got =>
    s!"Invalid stored value in {column}: expected {expected} bytes, got {got}"
  | .overflow => "attempt to add with overflow"

/-- Whether the program stops instead of going on with an outcome. -/
def DirectoryError.halts {α : Type} : Except DirectoryError α → Bool
  | .error .overflow => true
  | _ => false

theorem DirectoryError.halts_iff {α : Type} {r : Except DirectoryError α} : halts r = true ↔ r = .error .overflow := by
  constructor
  · intro h
    unfold halts at h
    split at h
    · rfl
    · cases h
  · rintro rfl
    rfl

structure Account where
  id : UInt32
  login : String
  salt : Salt
  verifier : Verifier
  /-- Logons only from `lastIp`. -/
  ipLocked : Bool
  lockCountry : String
  lastIp : String
  failedLogins : UInt32
  isBanned : Bool
  isPermanentlyBanned : Bool
  security : UInt8
  totpSecret : Option Bytes
  sessionKey : Option SessionKey
  deriving DecidableEq

structure LogonRecord where
  login : String
  sessionKey : SessionKey
  ip : Address
  locale : UInt8
  os : String
  /-- Minutes east of universal time. -/
  timezoneOffset : Int
  deriving DecidableEq

inductive BanTarget where
  | account (id : UInt32)
  | ip (address : Address)
  deriving DecidableEq

/-- The outcome of a call that may write, and the store after it. -/
abbrev Written (α : Type) := Except DirectoryError α × Store

namespace AccountBan

def covers (b : AccountBan) (account : Int) (now : Int) : Bool :=
  b.account == .integer account && b.active == .integer 1 && (b.finish.isAbove now || b.finish == b.start)

def isPermanent (b : AccountBan) (account : Int) : Bool :=
  b.account == .integer account && b.active == .integer 1 && b.finish == b.start

end AccountBan

def IpBan.covers (b : IpBan) (ip : String) (now : Int) : Bool :=
  b.ip == ip && (b.finish.isAbove now || b.finish == b.start)

namespace AccountRow

def fixed (n : Nat) (column : String) (b : Bytes) : Except DirectoryError (Octets n) :=
  match Octets.ofList? n b with
  | some o => .ok o
  | none => .error (.wrongLength column n b.length)

def column {α : Type} (read : Option α) : Except DirectoryError α :=
  match read with
  | some a => .ok a
  | none => .error .database

/-- A row as an account. All columns must have their types before lengths are looked at. -/
def toAccount (r : AccountRow) (bans : List AccountBan) (now : Int) : Except DirectoryError Account := do
  let id ← column (Cell.integer r.id).toUInt32?
  let salt ← column r.salt.toBytes?
  let verifier ← column r.verifier.toBytes?
  let ipLocked ← column r.locked.toBool?
  let failedLogins ← column r.failedLogins.toUInt32?
  let security ← column r.security.toUInt8?
  let totpSecret ← column r.totpSecret.toOptionalBytes?
  let sessionKey ← column r.sessionKey.toOptionalBytes?
  return {
    id := id
    login := r.username
    salt := ← fixed 32 "salt" salt
    verifier := ← fixed 32 "verifier" verifier
    ipLocked := ipLocked
    lockCountry := r.lockCountry
    lastIp := r.lastIp
    failedLogins := failedLogins
    isBanned := bans.any (·.covers r.id now)
    isPermanentlyBanned := bans.any (·.isPermanent r.id)
    security := security
    totpSecret := totpSecret
    sessionKey := ← sessionKey.mapM (fixed 40 "session_key") }

def afterLogon (r : AccountRow) (record : LogonRecord) (now : Int) : AccountRow :=
  { r with
    sessionKey := .blob record.sessionKey.toList
    lastIp := record.ip.print
    lastLogin := .integer now
    locale := .integer record.locale.toNat
    failedLogins := .integer 0
    os := record.os
    timezoneOffset := .integer record.timezoneOffset }

def afterFailure (r : AccountRow) : AccountRow := { r with failedLogins := r.failedLogins.next.asInteger }

end AccountRow

namespace Store

def accountNamed? (s : Store) (login : String) : Option AccountRow :=
  s.accounts.rows.find? (·.username == login)

def changeAccount (s : Store) (login : String) (change : AccountRow → AccountRow) : Store :=
  { s with accounts.rows := s.accounts.rows.map fun r => if r.username = login then change r else r }

def fetchByLogin (s : Store) (now : Int) (login : String) : Except DirectoryError (Option Account) :=
  match s.accountNamed? login with
  | none => .ok none
  | some r => (r.toAccount s.accountBans now).map some

def isIpBanned (s : Store) (now : Int) (ip : Address) : Bool := s.ipBans.any (·.covers ip.print now)

def persistLogon (s : Store) (now : Int) (record : LogonRecord) : Store :=
  s.changeAccount record.login (·.afterLogon record now)

/-- Count a failed logon; the answer is the new count, and zero if there is no such account. -/
def recordFailedLogin (s : Store) (login : String) : Written UInt32 :=
  match s.accountNamed? login with
  | none => (.ok 0, s)
  | some r => (AccountRow.column r.afterFailure.failedLogins.toUInt32?,
      s.changeAccount login AccountRow.afterFailure)

/-- The time some seconds after another, if it has room in 64 bits with a sign. The seconds come without a sign, and
their highest bit is taken for one. -/
def timeAfter? (now : Int) (seconds : Nat) : Option Int :=
  let time := now + (seconds : Int).bmod UInt64.size
  if Cell.inRange time then some time else none

def banAuthor : String := "logon-server"
def banReason : String := "Failed login autoban"

def ban (s : Store) (target : BanTarget) (start finish : Int) : Store :=
  match target with
  | .account id =>
    s.putAccountBan ⟨.integer id.toNat, .integer start, .integer finish, banAuthor, banReason, .integer 1⟩
  | .ip a => s.putIpBan ⟨a.print, .integer start, .integer finish, banAuthor, banReason⟩

def autoBan (s : Store) (now : Int) (target : BanTarget) (seconds : Nat) : Written Unit :=
  match timeAfter? now seconds with
  | some finish => (.ok (), s.ban target now finish)
  | none => (.error .overflow, s)

def createAccount (s : Store) (salt : Salt) (login password : String) (security : UInt8)
    (sealedSecret : Option Bytes) : Written UInt32 :=
  let login := Latin.upper login
  let row := (nextNumber s.accounts).map fun id : Int => ({
    id := id
    username := login
    salt := .blob salt.toList
    verifier := .blob (register login password salt).toList
    security := .integer security.toNat
    totpSecret := match sealedSecret with
      | some b => .blob b
      | none => .null } : AccountRow)
  match row.bind fun r => (s.addAccount r).map fun s => (r.id, s) with
  | some (id, s) => (.ok (UInt32.ofInt id), s)
  | none => (.error .database, s)

end Store

end RealmLogon
