import RealmLogon.Hash.Sha1

/-! Keyed digests: HMAC over SHA-1. -/

namespace RealmLogon.Hmac

/-- The key as one block of 64 bytes: hashed first if it is longer, then filled up with zeros. -/
def keyBlock (key : Bytes) : Bytes :=
  let k := if key.length > 64 then (Sha1.hash key).toList else key
  k ++ List.replicate (64 - k.length) 0

def sha1 (key message : Bytes) : Digest :=
  let k := keyBlock key
  Sha1.hash (k.map (· ^^^ 0x5C) ++ (Sha1.hash (k.map (· ^^^ 0x36) ++ message)).toList)

end RealmLogon.Hmac
