import RealmLogon.Exchange.Group
import RealmLogon.Wire.Reader

/-! The client's proof of its password, and the replies to it. -/

namespace RealmLogon

open LittleEndian Exchange

structure LogonProof where
  clientKey : Key
  proof : Digest
  versionProof : Digest
  keyCount : UInt8
  securityFlags : UInt8
  token : Option String
  deriving DecidableEq

namespace LogonProof

def size : Nat := 75

/-- Place of the security flags. -/
def flagsAt : Nat := 74

/-- The authenticator flag goes with a token, and never without. -/
def encode (p : LogonProof) : Bytes :=
  Command.logonProof.code :: p.clientKey.toList ++ p.proof.toList ++ p.versionProof.toList ++ [p.keyCount] ++
    match p.token with
    | some token =>
      let b := Bytes.ofString token
      (p.securityFlags ||| SecurityFlag.authenticator) :: UInt8.ofNat b.length :: b
    | none => [p.securityFlags &&& ~~~SecurityFlag.authenticator]

def readToken (flags : UInt8) : Reader (Option String) :=
  if flags &&& SecurityFlag.authenticator = 0 then return none
  else do
    Reader.ensure 1
    let length := (← Reader.byte).toNat
    return some (← Reader.text length .malformedString)

def read : Reader LogonProof := do
  Reader.ensure size
  Reader.command .logonProof
  let clientKey ← Reader.field 32
  let proof ← Reader.field 20
  let versionProof ← Reader.field 20
  let keyCount ← Reader.byte
  let flags ← Reader.byte
  return ⟨clientKey, proof, versionProof, keyCount, flags, ← readToken flags⟩

def decode : Bytes → Except WireError LogonProof := Reader.decode read

end LogonProof

/-- The reply to a proof; expansion clients get the extended layout. -/
inductive LogonProofReply where
  | extended (serverProof : Digest) (accountFlags surveyId : UInt32) (loginFlags : UInt16)
  | legacy (serverProof : Digest) (surveyId : UInt32)
  | failure (v : Verdict)
  deriving DecidableEq

namespace LogonProofReply

def encode : LogonProofReply → Bytes
  | .extended p a s l =>
    [Command.logonProof.code, Verdict.success.code] ++ p.toList ++ word32 a ++ word32 s ++ word16 l
  | .legacy p s => [Command.logonProof.code, Verdict.success.code] ++ p.toList ++ word32 s
  | .failure v => [Command.logonProof.code, v.code, 0, 0]

def read (e : Expansion) : Reader LogonProofReply := do
  Reader.command .logonProof
  let v ← Reader.verdict
  if v ≠ .success then return .failure v
  let serverProof ← Reader.field 20
  if e = .post then
    Reader.ensure 10
    let accountFlags ← Reader.word32
    let surveyId ← Reader.word32
    return .extended serverProof accountFlags surveyId (← Reader.word16)
  else
    Reader.ensure 4
    return .legacy serverProof (← Reader.word32)

def decode (b : Bytes) (e : Expansion) : Except WireError LogonProofReply := Reader.decode (read e) b

end LogonProofReply

end RealmLogon
