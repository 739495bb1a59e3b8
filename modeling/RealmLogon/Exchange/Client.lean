import RealmLogon.Exchange.Registration
import RealmLogon.Exchange.Server

/-! The client's half of a password exchange. -/

namespace RealmLogon.Exchange

structure Client where
  publicKey : Key
  proof : Digest
  sessionKey : SessionKey
  deriving DecidableEq

def Client.expectedProof (c : Client) : Digest := serverProof c.publicKey c.proof c.sessionKey

/-- Answer a server's public value; a multiple of the prime gets no answer. -/
def Client.answer (login password : String) (salt : Salt) (serverKey privateKey : Key) : Option Client :=
  if number serverKey % prime = 0 then none
  else
    let a := number privateKey
    let publicKey : Key := LittleEndian.block 32 (generatorPow a)
    let u := scramble publicKey serverKey
    let x := privateExponent login password salt
    let hidden := generatorPow x * multiplier % prime
    let base := (number serverKey % prime + prime - hidden) % prime
    let key := Exchange.sessionKey (LittleEndian.block 32 (powMod base (a + u * x) prime))
    some ⟨publicKey, clientProof (Sha1.hash (Bytes.ofString login)) salt publicKey serverKey key, key⟩

end RealmLogon.Exchange
