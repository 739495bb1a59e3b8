import RealmLogon.Session.Basic
import RealmLogon.Token

/-! The proofs of a logon and of a reconnect. A logon proof that is refused gets the same reply whatever
was wrong, and the server's own proof goes out only after the session key has been stored. -/

namespace RealmLogon.Session

open Exchange

/-- The client's proof of its executable holds. It is not looked at without a strict policy, nor if
there is no hash to compare with. -/
def versionHolds (p : Policy) (hash : Option Digest) (seed : Bytes) (proof : Digest) : Bool :=
  !p.strictVersionCheck ||
    match hash with
    | none => true
    | some h => Exchange.versionProof seed h == proof

/-- A token comes if and only if there is a secret, and it is the token of the time. -/
def tokenHolds (secret : Option Bytes) (token : Option String) (now : Int) : Bool :=
  match secret, token with
  | none, none => true
  | some secret, some text => (Token.parse text).any fun t => Token.validate secret t now.toNat
  | _, _ => false

def banTarget (p : Policy) (m : Member) (ip : Address) : BanTarget :=
  match p.banScope with
  | .account => .account m.id
  | .ip => .ip ip

def refusedProof : Bytes := LogonProofReply.encode (.failure .unknownAccount)

/-- Count a wrong password, and ban once there are too many. There is no reply if the end of the ban has no room. -/
def refusePassword (svc : Service) (s : Session) (m : Member) : Flow Outcome :=
  if svc.policy.maxWrongPasswords = 0 then s.reply refusedProof
  else
    .call (.recordFailedLogin m.login) fun
      | .error _ => s.reply refusedProof
      | .ok (n : UInt32) =>
        if n.toNat < svc.policy.maxWrongPasswords then s.reply refusedProof
        else
          .call (.autoBan (banTarget svc.policy m s.peer.ip) svc.policy.banTime)
            fun (r : Except DirectoryError Unit) =>
              if DirectoryError.halts r then s.fail .overflow else s.reply refusedProof

/-- The reply to an accepted proof, in the layout of the client's generation. -/
def acceptance (e : Expansion) (serverProof : Digest) : LogonProofReply :=
  if e = .post then .extended serverProof defaultAccountFlags 0 0 else .legacy serverProof 0

def record (s : Session) (m : Member) (key : SessionKey) : LogonRecord :=
  ⟨m.login, key, s.peer.ip, s.locale, s.os, s.timezoneOffset⟩

def acceptProof (s : Session) (m : Member) (p : LogonProof) (key : SessionKey) : Flow Outcome :=
  .call (.persistLogon (s.record m key)) fun
    | .error _ => s.reply (LogonProofReply.encode (.failure .dbBusy))
    | .ok _ =>
      { s with sessionKey := some key, phase := .authed }.reply
        (acceptance s.expansion (serverProof p.clientKey p.proof key)).encode

def checkProof (svc : Service) (s : Session) (x : Server) (m : Member) (secret : Option Bytes)
    (p : LogonProof) : Flow Outcome :=
  match x.accept p.clientKey p.proof with
  | none => refusePassword svc s m
  | some key =>
    .ask .now fun (now : Int) =>
      let hash := svc.builds.executableHash? s.build s.os
      if tokenHolds secret p.token now && versionHolds svc.policy hash p.clientKey.toList p.versionProof then
        acceptProof s m p key
      else s.reply refusedProof

def logonProof (svc : Service) (s : Session) (frame : Bytes) : Flow Outcome :=
  match LogonProof.decode frame with
  | .error e => s.fail (.wire e)
  | .ok p =>
    let s := { s with phase := .closed }
    if s.expansion.isValid then
      match s.exchange with
      | none => s.fail (.missingState .exchange)
      | some x =>
        let s := { s with exchange := none }
        match s.account with
        | none => s.fail (.missingState .account)
        | some m => checkProof svc { s with totpSecret := none } x m s.totpSecret p
    else s.fail (.noValidExpansion s.build)

/-- Answer a reconnect proof. A wrong one gets no reply. The executable is proved against a hash of
zeros. -/
def reconnectProof (svc : Service) (s : Session) (frame : Bytes) : Flow Outcome :=
  match ReconnectProof.decode frame with
  | .error e => s.fail (.wire e)
  | .ok p =>
    let s := { s with phase := .closed }
    match s.account, s.sessionKey, s.reconnectNonce with
    | none, _, _ => s.fail (.missingState .account)
    | some _, none, _ => s.fail (.missingState .sessionKey)
    | some _, some _, none => s.fail (.missingState .reconnectNonce)
    | some m, some key, some nonce =>
      let s := { s with reconnectNonce := none }
      if Exchange.reconnectProof m.login p.clientRandom nonce key = p.proof then
        if versionHolds svc.policy (some (.zero 20)) p.clientRandom.toList p.versionProof then
          { s with phase := .authed }.reply (ReconnectProofReply.encode .success)
        else s.reply (ReconnectProofReply.encode (.failure .versionInvalid))
      else s.fail (.invalidReconnectProof m.login)

end RealmLogon.Session
