import RealmLogon.Exchange.Group

/-! The digests by which the two sides convince each other. Each binds its arguments in one fixed
order, so two different argument lists with the same digest are two messages that collide. -/

namespace RealmLogon.Exchange

def clientProof (login : Digest) (salt : Salt) (clientKey serverKey : Key) (key : SessionKey) : Digest :=
  Sha1.hash (groupHash.toList ++ login.toList ++ salt.toList ++ clientKey.toList ++ serverKey.toList ++
    key.toList)

def serverProof (clientKey : Key) (proof : Digest) (key : SessionKey) : Digest :=
  Sha1.hash (clientKey.toList ++ proof.toList ++ key.toList)

def reconnectProof (login : String) (clientRandom serverNonce : Nonce) (key : SessionKey) : Digest :=
  Sha1.hash (Bytes.ofString login ++ clientRandom.toList ++ serverNonce.toList ++ key.toList)

def versionProof (seed : Bytes) (executable : Digest) : Digest := Sha1.hash (seed ++ executable.toList)

end RealmLogon.Exchange
