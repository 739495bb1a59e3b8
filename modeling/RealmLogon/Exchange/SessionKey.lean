import RealmLogon.Exchange.Group

/-! From the shared secret to the session key. The bytes at even and at odd places are hashed apart, without the pairs of
bytes in which there is a leading zero, and the two digests are interleaved. -/

namespace RealmLogon.Exchange

/-- The bytes of a secret at the odd places, or at the even ones. -/
def half (odd : Bool) (secret : Key) : Octets 16 :=
  .ofFn fun i => secret.get ⟨2 * i.val + odd.toNat, by have := odd.toNat_le; omega⟩

def leadingZeros (b : Bytes) : Nat := (b.takeWhile (· == 0)).length

/-- How many bytes of each half are skipped: half the number of leading zeros, rounded up. -/
def skippedPairs (secret : Key) : Nat :=
  let zeros := leadingZeros secret.toList
  (if zeros % 2 = 1 then zeros + 1 else zeros) / 2

/-- The bytes of two digests by turns, beginning with the first. -/
def interleave (even odd : Digest) : SessionKey :=
  .ofFn fun i =>
    if i.val % 2 = 0 then even.get ⟨i.val / 2, by omega⟩ else odd.get ⟨i.val / 2, by omega⟩

def sessionKey (secret : Key) : SessionKey :=
  let pairs := skippedPairs secret
  let even := Sha1.hash ((half false secret).toList.drop pairs)
  let odd := Sha1.hash ((half true secret).toList.drop pairs)
  interleave even odd

end RealmLogon.Exchange
