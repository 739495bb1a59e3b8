import RealmLogon.Exchange.Proof
import RealmLogon.Exchange.SessionKey

/-! The server's half of a password exchange: a public value that hides the verifier, and the check
of the client's answer. -/

namespace RealmLogon.Exchange

/-- An exchange that waits for the client's proof. -/
structure Server where
  loginHash : Digest
  privateKey : Key
  verifier : Verifier
  salt : Salt
  publicKey : Key
  deriving DecidableEq

def Server.start (login : String) (salt : Salt) (verifier : Verifier) (privateKey : Key) : Server where
  loginHash := Sha1.hash (Bytes.ofString login)
  privateKey := privateKey
  verifier := verifier
  salt := salt
  publicKey := LittleEndian.block 32
    ((generatorPow (number privateKey) + number verifier * multiplier) % prime)

def scramble (clientKey serverKey : Key) : Nat := number (Sha1.hash (clientKey.toList ++ serverKey.toList))

def Server.sessionKey (s : Server) (clientKey : Key) : SessionKey :=
  let u := scramble clientKey s.publicKey
  let base := number clientKey * powMod (number s.verifier) u prime % prime
  Exchange.sessionKey (LittleEndian.block 32 (powMod base (number s.privateKey) prime))

def Server.expectedProof (s : Server) (clientKey : Key) : Digest :=
  clientProof s.loginHash s.salt clientKey s.publicKey (s.sessionKey clientKey)

/-- The session key, if the client's public value is no multiple of the prime and its proof is the
expected one. -/
def Server.accept (s : Server) (clientKey : Key) (proof : Digest) : Option SessionKey :=
  if number clientKey % prime = 0 then none
  else if s.expectedProof clientKey = proof then some (s.sessionKey clientKey)
  else none

end RealmLogon.Exchange
