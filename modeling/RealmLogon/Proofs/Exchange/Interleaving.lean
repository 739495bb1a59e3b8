import Mathlib.Algebra.Group.Nat.Even
import Mathlib.Order.Bounds.Defs
import RealmLogon.Exchange.SessionKey

/-! What a session key is made of. The derivation splits the secret and then cuts as many bytes off the one half as off
the other; told in words, it skips the front of the secret and then splits the rest. Both ways lead to the same halves,
because the number of bytes that are skipped is even, whatever the number of leading zeros is. -/

namespace RealmLogon

namespace Octets

variable {n : Nat} {b : Octets n}

/-- The bytes from a place on. A cut beyond the end fails. -/
def slice? (b : Octets n) (place : Nat) : Option Bytes :=
  if place ≤ n then some (b.toList.drop place) else none

theorem slice?_eq {place : Nat} (h : place ≤ n) : b.slice? place = some (b.toList.drop place) := if_pos h

theorem getElem?_toList (i : Fin n) : b.toList[i.val]? = some (b.get i) := by
  rw [get, List.get_eq_getElem, List.getElem?_eq_getElem]

theorem get_ofFn (f : Fin n → UInt8) (i : Fin n) : (ofFn f).get i = f i := by
  simp [get]

end Octets

namespace Exchange

/-- The bytes at places 0, 2, 4, … of a byte string of any length. -/
def evens : Bytes → Bytes
  | [] => []
  | [a] => [a]
  | a :: _ :: rest => a :: evens rest

def odds (b : Bytes) : Bytes := evens (b.drop 1)

theorem getElem?_evens (b : Bytes) (i : Nat) : (evens b)[i]? = b[2 * i]? := by
  induction b using evens.induct generalizing i with
  | case1 => rfl
  | case2 a => cases i with
    | zero => rfl
    | succ i => simp [evens, Nat.mul_add]
  | case3 a b rest ih => cases i with
    | zero => rfl
    | succ i => simp [evens, Nat.mul_add, ih]

/-- Cutting after the split is cutting twice as much before it. -/
theorem drop_evens (b : Bytes) (pairs : Nat) : (evens b).drop pairs = evens (b.drop (2 * pairs)) := by
  apply List.ext_getElem?
  intro i
  rw [List.getElem?_drop, getElem?_evens, getElem?_evens, List.getElem?_drop, Nat.mul_add]

/-- So many bytes of a secret are zero from its front on, and the next one, if there is one, is not. -/
structure LeadingZeros (secret : Key) (zeros : Nat) : Prop where
  zero : ∀ i < zeros, secret.toList[i]? = some 0
  nonzero : secret.toList[zeros]? ≠ some 0

theorem leadingZeros_eq_iff {b : Bytes} {zeros : Nat} :
    leadingZeros b = zeros ↔ (∀ i < zeros, b[i]? = some 0) ∧ b[zeros]? ≠ some 0 := by
  induction b generalizing zeros with
  | nil =>
    constructor
    · rintro rfl
      simp [leadingZeros]
    · rintro ⟨h, -⟩
      cases zeros with
      | zero => rfl
      | succ k => simpa using h 0 (Nat.zero_lt_succ k)
  | cons a b ih =>
    by_cases ha : a = 0
    · subst ha
      have hc : leadingZeros (0 :: b) = leadingZeros b + 1 := by simp [leadingZeros]
      cases zeros with
      | zero => simp [hc]
      | succ k =>
        have hfirst : (0 :: b)[0]? = some 0 := rfl
        rw [hc, Nat.add_right_cancel_iff, ih, List.getElem?_cons_succ, Nat.forall_lt_succ_left]
        simp only [hfirst, List.getElem?_cons_succ, true_and]
    · have hc : leadingZeros (a :: b) = 0 := by simp [leadingZeros, ha]
      cases zeros with
      | zero => simp [hc, ha]
      | succ k =>
        refine ⟨fun h => absurd (hc.symm.trans h) k.succ_ne_zero.symm, fun ⟨h, _⟩ => absurd ?_ ha⟩
        exact Option.some.inj (h 0 k.succ_pos)

theorem leadingZeros_iff {secret : Key} {zeros : Nat} :
    LeadingZeros secret zeros ↔ leadingZeros secret.toList = zeros :=
  ⟨fun h => leadingZeros_eq_iff.mpr ⟨h.zero, h.nonzero⟩, fun h =>
    have ⟨hz, hn⟩ := leadingZeros_eq_iff.mp h
    ⟨hz, hn⟩⟩

section Halves

variable (secret : Key)

theorem toList_half (odd : Bool) : (half odd secret).toList = evens (secret.toList.drop odd.toNat) := by
  apply List.ext_getElem?
  intro i
  rw [half, Octets.toList_ofFn, List.getElem?_ofFn, getElem?_evens, List.getElem?_drop, Nat.add_comm]
  split
  · next h => exact (Octets.getElem?_toList ⟨2 * i + odd.toNat, by have := odd.toNat_le; omega⟩).symm
  · next h =>
    have hl : secret.toList.length ≤ 2 * i + odd.toNat := by
      rw [secret.length_toList]
      omega
    exact (List.getElem?_eq_none hl).symm

/-- How many bytes of a secret are skipped: the leading zeros, and one byte more if their number is odd. -/
def skipped : Nat := leadingZeros secret.toList + leadingZeros secret.toList % 2

def significant : Bytes := secret.toList.drop (skipped secret)

theorem leadingZeros_le : leadingZeros secret.toList ≤ 32 := by
  have h := (List.takeWhile_sublist (· == 0) (l := secret.toList)).length_le
  rwa [secret.length_toList] at h

/-- The least even number that is no less than the number of leading zeros is the number of bytes that are skipped. -/
theorem skipped_eq {zeros m : Nat} (hz : LeadingZeros secret zeros) (hm : IsLeast {m | Even m ∧ zeros ≤ m} m) :
    skipped secret = m := by
  obtain rfl := leadingZeros_iff.mp hz
  have hs : Even (skipped secret) ∧ leadingZeros secret.toList ≤ skipped secret := by
    refine ⟨Nat.even_iff.mpr ?_, Nat.le_add_right _ _⟩
    rw [skipped]
    omega
  have hle : m ≤ skipped secret := hm.2 hs
  obtain ⟨he, hge⟩ : Even m ∧ leadingZeros secret.toList ≤ m := hm.1
  rw [Nat.even_iff] at he
  rw [skipped] at hle ⊢
  omega

theorem two_mul_skippedPairs : 2 * skippedPairs secret = skipped secret := by
  simp only [skippedPairs, skipped]
  split
  · omega
  · omega

/-- Both halves are long enough to be cut, also if all bytes are zeros. -/
theorem skippedPairs_le : skippedPairs secret ≤ 16 := by
  have hz := leadingZeros_le secret
  simp only [skippedPairs]
  split
  · omega
  · omega

theorem drop_half (odd : Bool) :
    (half odd secret).toList.drop (skippedPairs secret) = evens ((significant secret).drop odd.toNat) := by
  rw [toList_half, drop_evens, two_mul_skippedPairs, List.drop_drop, Nat.add_comm, ← List.drop_drop, significant]

/-- The derivation with cuts that fail beyond the end of a half. -/
def sessionKey? : Option SessionKey := do
  let even ← (half false secret).slice? (skippedPairs secret)
  let odd ← (half true secret).slice? (skippedPairs secret)
  return interleave (Sha1.hash even) (Sha1.hash odd)

theorem sessionKey?_eq : sessionKey? secret = some (sessionKey secret) := by
  have hp := skippedPairs_le secret
  rw [sessionKey?, Octets.slice?_eq hp, Octets.slice?_eq hp]
  rfl

theorem sessionKey_eq : sessionKey secret =
    interleave (Sha1.hash (evens (significant secret))) (Sha1.hash (odds (significant secret))) := by
  rw [sessionKey, drop_half, drop_half]
  rfl

end Halves

theorem get_interleave_even (even odd : Digest) (i : Fin 20) :
    (interleave even odd).get ⟨2 * i.val, by omega⟩ = even.get i := by
  have hm : 2 * i.val % 2 = 0 := Nat.mul_mod_right 2 i.val
  have hd : 2 * i.val / 2 = i.val := Nat.mul_div_cancel_left i.val (by decide)
  simp only [interleave, Octets.get_ofFn, hm, hd, if_true]

theorem get_interleave_odd (even odd : Digest) (i : Fin 20) :
    (interleave even odd).get ⟨2 * i.val + 1, by omega⟩ = odd.get i := by
  have hm : (2 * i.val + 1) % 2 ≠ 0 := by omega
  have hd : (2 * i.val + 1) / 2 = i.val := by omega
  simp only [interleave, Octets.get_ofFn, if_neg hm, hd]

/-- Let so many bytes of a secret be zero from its front on, the next one not, and let as many be skipped as the least
even number that is no less. The even and the odd places of a session key hold the digests of what then stands at the
even and at the odd places. No cut on the way is beyond the end of what is cut, and what is skipped has no part in the
key. -/
theorem session_key_of_significant (secret : Key) :
    (∃! zeros, LeadingZeros secret zeros) ∧
    ∀ zeros m, LeadingZeros secret zeros → IsLeast {m | Even m ∧ zeros ≤ m} m →
      m ≤ 32 ∧ sessionKey? secret = some (sessionKey secret) ∧
      (∀ i : Fin 20,
        (sessionKey secret).get ⟨2 * i.val, by omega⟩ = (Sha1.hash (evens (secret.toList.drop m))).get i ∧
        (sessionKey secret).get ⟨2 * i.val + 1, by omega⟩ = (Sha1.hash (odds (secret.toList.drop m))).get i) ∧
      ∀ other zeros' m', LeadingZeros other zeros' → IsLeast {m | Even m ∧ zeros' ≤ m} m' →
        other.toList.drop m' = secret.toList.drop m → sessionKey other = sessionKey secret := by
  refine ⟨⟨_, leadingZeros_iff.mpr rfl, fun zeros h => (leadingZeros_iff.mp h).symm⟩, fun zeros m hz hm => ?_⟩
  obtain rfl := skipped_eq secret hz hm
  have hpairs := two_mul_skippedPairs secret
  have hle := skippedPairs_le secret
  refine ⟨by omega, sessionKey?_eq secret, fun i => ?_, fun other zeros' m' hz' hm' h => ?_⟩
  · rw [sessionKey_eq]
    exact ⟨get_interleave_even _ _ i, get_interleave_odd _ _ i⟩
  · obtain rfl := skipped_eq other hz' hm'
    have hs : significant other = significant secret := h
    rw [sessionKey_eq, sessionKey_eq, hs]

/-- Two secrets, one with a single zero byte in front and one with two, differ in a byte that is skipped. -/
theorem one_zero_or_two :
    let one : Key := ⟨0 :: 0x77 :: List.replicate 30 0x5A, by decide⟩
    let two : Key := ⟨0 :: 0 :: List.replicate 30 0x5A, by decide⟩
    LeadingZeros one 1 ∧ LeadingZeros two 2 ∧ one ≠ two ∧ sessionKey one = sessionKey two := by
  intro one two
  have hone : LeadingZeros one 1 := ⟨by decide, by decide⟩
  have htwo : LeadingZeros two 2 := ⟨by decide, by decide⟩
  have hleast {zeros : Nat} (h : zeros = 1 ∨ zeros = 2) : IsLeast {m | Even m ∧ zeros ≤ m} 2 := by
    refine ⟨⟨⟨1, rfl⟩, by omega⟩, fun m hm => ?_⟩
    obtain ⟨⟨k, rfl⟩, hk⟩ : Even m ∧ zeros ≤ m := hm
    omega
  obtain ⟨-, hkey⟩ := session_key_of_significant two
  obtain ⟨-, -, -, hsame⟩ := hkey 2 2 htwo (hleast (.inr rfl))
  exact ⟨hone, htwo, by decide, hsame one 1 2 hone (hleast (.inl rfl)) rfl⟩

/-- Of a secret with a single last byte nothing counts, and both halves are cut at their ends. -/
example : skippedPairs ⟨List.replicate 31 0 ++ [1], by decide⟩ = 16 ∧
    significant ⟨List.replicate 31 0 ++ [1], by decide⟩ = [] := by decide

end Exchange

end RealmLogon
