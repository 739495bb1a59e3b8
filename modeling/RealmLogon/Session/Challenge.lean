import RealmLogon.Cipher.Stored
import RealmLogon.Session.Basic

/-! The challenge of a logon and of a reconnect. Both tell the account's locks and bans in one order, and
every reply but a full one ends the session. -/

namespace RealmLogon.Session

open Exchange Text

def lockCountry? (a : Account) : Option String :=
  if a.lockCountry = "" ∨ a.lockCountry = "00" then none else some a.lockCountry

/-- The lock that keeps an account from logging on at an address. An account that is bound to its last
address is not bound to a country. -/
def lock? (geoip : GeoIp) (ip : Address) (a : Account) : Option Verdict :=
  if a.ipLocked then if a.lastIp = ip.print then none else some .lockedEnforced
  else
    match lockCountry? a, geoip.country? ip with
    | some lock, some country => if country = lock then none else some .unlockableLock
    | _, _ => none

def ban? (a : Account) : Option Verdict :=
  if a.isBanned then some (if a.isPermanentlyBanned then .banned else .suspended) else none

/-- Why an account may not log on at an address: a lock, then a ban. -/
def refusal? (geoip : GeoIp) (ip : Address) (a : Account) : Option Verdict :=
  match lock? geoip ip a with
  | some v => some v
  | none => ban? a

def withAccount (login : String) (k : Option Account → Flow Outcome) : Flow Outcome :=
  .call (.fetchByLogin login) fun r => k r.toOption.join

def offer (s : Session) (a : Account) (flags : UInt8) : Flow Outcome :=
  .ask (.draw 32) fun (privateKey : Key) =>
    let exchange := Server.start a.login a.salt a.verifier privateKey
    let s := { s with exchange := some exchange, account := some a.member, phase := .logonProof }
    s.reply (ChallengeReply.encode (.offer {
      serverKey := exchange.publicKey
      generator := generator
      prime := primeBytes
      salt := exchange.salt
      versionChallenge := versionChallenge
      securityFlags := flags }))

/-- Offer an exchange to an account that may log on: its secret must open, and the build must be of an
accepted generation. -/
def offerOrRefuse (svc : Service) (s : Session) (a : Account) : Flow Outcome :=
  let refuse (s : Session) (v : Verdict) := s.reply (ChallengeReply.encode (.failure v))
  match a.totpSecret with
  | none => if s.expansion.isValid then offer s a 0 else refuse { s with totpSecret := none } .versionInvalid
  | some stored =>
    match StoredSecret.reveal svc.masterKey stored with
    | .error _ => refuse s .dbBusy
    | .ok secret =>
      if s.expansion.isValid then offer { s with totpSecret := some secret } a SecurityFlag.authenticator
      else refuse { s with totpSecret := none } .versionInvalid

def logonChallenge (svc : Service) (s : Session) (frame : Bytes) : Flow Outcome :=
  match Challenge.decode frame with
  | .error e => s.fail (.wire e)
  | .ok c =>
    let s := { s with phase := .closed }.introduce svc.builds c
    let refuse (v : Verdict) := s.reply (ChallengeReply.encode (.failure v))
    withAccount (Latin.upper c.login) fun
      | none => refuse .unknownAccount
      | some a =>
        match refusal? svc.geoip s.peer.ip a with
        | some v => refuse v
        | none => offerOrRefuse svc s a

/-- Answer a reconnect challenge: the account must have a session key to resume. -/
def reconnectChallenge (svc : Service) (s : Session) (frame : Bytes) : Flow Outcome :=
  match Challenge.decode frame with
  | .error e => s.fail (.wire e)
  | .ok c =>
    let s := { s with phase := .closed }.introduce svc.builds c
    let refuse (v : Verdict) := s.reply (ReconnectChallengeReply.encode (.failure v))
    withAccount (Latin.upper c.login) fun
      | none => refuse .unknownAccount
      | some a =>
        match refusal? svc.geoip s.peer.ip a with
        | some v => refuse v
        | none =>
          if s.expansion.isValid then
            match a.sessionKey with
            | none => refuse .unknownAccount
            | some key =>
              .ask (.draw 16) fun (nonce : Nonce) =>
                let s := { s with
                  sessionKey := some key
                  reconnectNonce := some nonce
                  account := some a.member
                  phase := .reconnectProof }
                s.reply (ReconnectChallengeReply.encode (.nonce nonce versionChallenge))
          else refuse .versionInvalid

end RealmLogon.Session
