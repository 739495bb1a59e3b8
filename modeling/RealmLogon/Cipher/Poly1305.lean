import RealmLogon.Bytes.LittleEndian

/-! The one-time authenticator Poly1305: a polynomial in the clamped half of the key, modulo
`2^130 - 5`, with the blocks of the message as coefficients, plus the other half. -/

namespace RealmLogon.Poly1305

def modulus : Nat := (1 <<< 130) - 5

def clamp : Nat := 0x0FFFFFFC0FFFFFFC0FFFFFFC0FFFFFFF

/-- The message in blocks of 16 bytes, each with a final byte 1 and read low byte first. -/
def absorb (r acc : Nat) (m : Bytes) : Nat :=
  if h : m = [] then acc
  else absorb r ((acc + LittleEndian.value (m.take 16 ++ [1])) * r % modulus) (m.drop 16)
termination_by m.length
decreasing_by
  have := List.length_pos_iff.mpr h
  simp only [List.length_drop]; omega

def tag (key : Bytes) (m : Bytes) : Octets 16 :=
  let r := LittleEndian.value (key.take 16) &&& clamp
  let s := LittleEndian.value ((key.drop 16).take 16)
  LittleEndian.block 16 (absorb r 0 m + s)

end RealmLogon.Poly1305
