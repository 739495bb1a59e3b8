import RealmLogon.Hash.Sha1

/-! The group of the password exchange: a safe prime of 256 bits, a generator and a multiplier, all
fixed, and powers modulo the prime. -/

namespace RealmLogon.Exchange

abbrev Salt := Octets 32
abbrev Verifier := Octets 32
/-- A public or a private value of either side. -/
abbrev Key := Octets 32
abbrev SessionKey := Octets 40
abbrev Nonce := Octets 16

def generator : UInt8 := 7

def multiplier : Nat := 3

/-- The prime as it travels, low byte first. -/
def primeBytes : Octets 32 := ⟨[
  0xB7, 0x9B, 0x3E, 0x2A, 0x87, 0x82, 0x3C, 0xAB, 0x8F, 0x5E, 0xBF, 0xBF, 0x8E, 0xB1, 0x01, 0x08,
  0x53, 0x50, 0x06, 0x29, 0x8B, 0x5B, 0xAD, 0xBD, 0x5B, 0x53, 0xE1, 0x89, 0x5E, 0x64, 0x4B, 0x89], rfl⟩

def prime : Nat := LittleEndian.value primeBytes.toList

/-- `base ^ exponent % modulus`, by squaring. -/
def powMod (base exponent modulus : Nat) : Nat :=
  if exponent = 0 then 1 % modulus
  else
    let half := powMod (base * base % modulus) (exponent / 2) modulus
    if exponent % 2 = 1 then base * half % modulus else half
termination_by exponent

theorem powMod_eq (b e m : Nat) : powMod b e m = Nat.pow b e % m := by
  induction e using Nat.strongRecOn generalizing b with
  | _ e ih =>
    rw [powMod]
    split
    · next h => subst h; rfl
    · next h =>
      have hh : powMod (b * b % m) (e / 2) m = Nat.pow b (2 * (e / 2)) % m := by
        have hm : Nat.pow (b * b % m) (e / 2) % m = Nat.pow (b * b) (e / 2) % m :=
          (Nat.pow_mod (b * b) (e / 2) m).symm
        have h2 : Nat.pow (b * b) (e / 2) = Nat.pow b (2 * (e / 2)) := by
          rw [← Nat.pow_two]; exact (Nat.pow_mul b 2 (e / 2)).symm
        rw [ih (e / 2) (by omega), hm, h2]
      simp only [hh]
      split
      · next ho =>
        have he : e = 2 * (e / 2) + 1 := by omega
        have hs : Nat.pow b e = b * Nat.pow b (2 * (e / 2)) :=
          (congrArg (Nat.pow b) he).trans (Nat.mul_comm _ _)
        rw [hs, Nat.mul_mod_mod]
      · next ho =>
        have he : 2 * (e / 2) = e := by omega
        rw [he]

def generatorPow (exponent : Nat) : Nat := powMod generator.toNat exponent prime

/-- Numbers travel as 32 bytes, low byte first. -/
def number {n : Nat} (b : Octets n) : Nat := LittleEndian.value b.toList

/-- The digests of prime and generator, combined by exclusive or. -/
def groupHash : Digest := (Sha1.hash primeBytes.toList).xor (Sha1.hash [generator])

end RealmLogon.Exchange
