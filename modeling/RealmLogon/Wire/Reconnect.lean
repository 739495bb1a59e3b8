import RealmLogon.Wire.Challenge

/-! Resuming an earlier logon: the server's nonce, the client's proof of the old session key, and the
replies. -/

namespace RealmLogon

open Exchange

structure ReconnectProof where
  clientRandom : Nonce
  proof : Digest
  versionProof : Digest
  keyCount : UInt8
  deriving DecidableEq

namespace ReconnectProof

def size : Nat := 58

def encode (p : ReconnectProof) : Bytes :=
  Command.reconnectProof.code :: p.clientRandom.toList ++ p.proof.toList ++ p.versionProof.toList ++
    [p.keyCount]

def read : Reader ReconnectProof := do
  Reader.ensure size
  Reader.command .reconnectProof
  let clientRandom ← Reader.field 16
  let proof ← Reader.field 20
  let versionProof ← Reader.field 20
  return ⟨clientRandom, proof, versionProof, ← Reader.byte⟩

def decode : Bytes → Except WireError ReconnectProof := Reader.decode read

end ReconnectProof

inductive ReconnectChallengeReply where
  | nonce (challenge : Nonce) (versionChallenge : Octets 16)
  | failure (v : Verdict)
  deriving DecidableEq

namespace ReconnectChallengeReply

def encode : ReconnectChallengeReply → Bytes
  | .nonce c v => [Command.reconnectChallenge.code, Verdict.success.code] ++ c.toList ++ v.toList
  | .failure v => challengeFailure .reconnectChallenge v

def read : Reader ReconnectChallengeReply := do
  Reader.command .reconnectChallenge
  let v ← Reader.verdict
  if v ≠ .success then return .failure v
  let challenge ← Reader.field 16
  return .nonce challenge (← Reader.field 16)

def decode : Bytes → Except WireError ReconnectChallengeReply := Reader.decode read

end ReconnectChallengeReply

inductive ReconnectProofReply where
  | success
  | failure (v : Verdict)
  deriving DecidableEq

namespace ReconnectProofReply

def encode : ReconnectProofReply → Bytes
  | .success => [Command.reconnectProof.code, Verdict.success.code, 0, 0]
  | .failure v => [Command.reconnectProof.code, v.code]

def read : Reader ReconnectProofReply := do
  Reader.command .reconnectProof
  let v ← Reader.verdict
  return if v = .success then .success else .failure v

def decode : Bytes → Except WireError ReconnectProofReply := Reader.decode read

end ReconnectProofReply

end RealmLogon
