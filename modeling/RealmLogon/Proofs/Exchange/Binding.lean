import Mathlib.Logic.Function.Basic
import RealmLogon.Exchange.Proof

/-! What the digests of an exchange bind. Only the first field of a message can have any length, so that a message can
be taken apart from its end: different fields make different messages, and one digest for both of them is a
collision. -/

namespace RealmLogon

theorem Octets.append_inj_iff {n : Nat} {a b : Bytes} {x y : Octets n} :
    a ++ x.toList = b ++ y.toList ↔ a = b ∧ x = y := by
  constructor
  · intro h
    obtain ⟨hab, hxy⟩ := List.append_inj' h (x.length_toList.trans y.length_toList.symm)
    exact ⟨hab, Octets.ext hxy⟩
  · rintro ⟨rfl, rfl⟩
    rfl

/-- Two different messages have one digest. -/
def Sha1.Collision (a b : Bytes) : Prop := a ≠ b ∧ hash a = hash b

instance (a b : Bytes) : Decidable (Sha1.Collision a b) := inferInstanceAs (Decidable (_ ∧ _))

theorem Sha1.hash_eq_iff {α : Type} {message : α → Bytes} (h : Function.Injective message) {x y : α} :
    hash (message x) = hash (message y) ↔ x = y ∨ Collision (message x) (message y) := by
  constructor
  · intro heq
    by_cases hxy : message x = message y
    · exact .inl (h hxy)
    · exact .inr ⟨hxy, heq⟩
  · rintro (rfl | hc)
    · rfl
    · exact hc.2

namespace Exchange

/-- What the proof of an earlier session key covers. -/
structure ReconnectTerms where
  login : String
  clientRandom : Nonce
  serverNonce : Nonce
  key : SessionKey
  deriving DecidableEq

namespace ReconnectTerms

def message (r : ReconnectTerms) : Bytes :=
  Bytes.ofString r.login ++ r.clientRandom.toList ++ r.serverNonce.toList ++ r.key.toList

def proof (r : ReconnectTerms) : Digest := reconnectProof r.login r.clientRandom r.serverNonce r.key

/-- Logins of different lengths are told apart as well. -/
theorem message_injective : Function.Injective message := by
  rintro ⟨login, r, n, k⟩ ⟨login', r', n', k'⟩ h
  obtain ⟨h, rfl⟩ := Octets.append_inj_iff.mp h
  obtain ⟨h, rfl⟩ := Octets.append_inj_iff.mp h
  obtain ⟨h, rfl⟩ := Octets.append_inj_iff.mp h
  obtain rfl := Bytes.ofString_injective h
  rfl

theorem proof_eq_iff {r r' : ReconnectTerms} : r.proof = r'.proof ↔ r = r' ∨ Sha1.Collision r.message r'.message :=
  Sha1.hash_eq_iff message_injective

end ReconnectTerms

/-- What the client's proof covers besides the group, which is the same in every exchange. -/
structure ClientTerms where
  loginHash : Digest
  salt : Salt
  clientKey : Key
  serverKey : Key
  key : SessionKey
  deriving DecidableEq

namespace ClientTerms

def message (c : ClientTerms) : Bytes :=
  groupHash.toList ++ c.loginHash.toList ++ c.salt.toList ++ c.clientKey.toList ++ c.serverKey.toList ++ c.key.toList

def clientProof (c : ClientTerms) : Digest := Exchange.clientProof c.loginHash c.salt c.clientKey c.serverKey c.key

theorem message_injective : Function.Injective message := by
  rintro ⟨l, s, a, b, k⟩ ⟨l', s', a', b', k'⟩ h
  obtain ⟨h, rfl⟩ := Octets.append_inj_iff.mp h
  obtain ⟨h, rfl⟩ := Octets.append_inj_iff.mp h
  obtain ⟨h, rfl⟩ := Octets.append_inj_iff.mp h
  obtain ⟨h, rfl⟩ := Octets.append_inj_iff.mp h
  obtain ⟨-, rfl⟩ := Octets.append_inj_iff.mp h
  rfl

theorem clientProof_eq_iff {c c' : ClientTerms} :
    c.clientProof = c'.clientProof ↔ c = c' ∨ Sha1.Collision c.message c'.message :=
  Sha1.hash_eq_iff message_injective

end ClientTerms

/-- What the server's proof covers. -/
structure ServerTerms where
  clientKey : Key
  proof : Digest
  key : SessionKey
  deriving DecidableEq

namespace ServerTerms

def message (c : ServerTerms) : Bytes := c.clientKey.toList ++ c.proof.toList ++ c.key.toList

def serverProof (c : ServerTerms) : Digest := Exchange.serverProof c.clientKey c.proof c.key

theorem message_injective : Function.Injective message := by
  rintro ⟨a, p, k⟩ ⟨a', p', k'⟩ h
  obtain ⟨h, rfl⟩ := Octets.append_inj_iff.mp h
  obtain ⟨h, rfl⟩ := Octets.append_inj_iff.mp h
  obtain rfl := Octets.ext h
  rfl

theorem serverProof_eq_iff {c c' : ServerTerms} :
    c.serverProof = c'.serverProof ↔ c = c' ∨ Sha1.Collision c.message c'.message :=
  Sha1.hash_eq_iff message_injective

end ServerTerms

/-- What the proof of an executable covers. -/
structure VersionTerms where
  seed : Bytes
  hash : Digest
  deriving DecidableEq

namespace VersionTerms

def message (x : VersionTerms) : Bytes := x.seed ++ x.hash.toList

def versionProof (x : VersionTerms) : Digest := Exchange.versionProof x.seed x.hash

theorem message_injective : Function.Injective message := by
  rintro ⟨s, d⟩ ⟨s', d'⟩ h
  obtain ⟨rfl, rfl⟩ := Octets.append_inj_iff.mp h
  rfl

theorem versionProof_eq_iff {x x' : VersionTerms} :
    x.versionProof = x'.versionProof ↔ x = x' ∨ Sha1.Collision x.message x'.message :=
  Sha1.hash_eq_iff message_injective

end VersionTerms

end Exchange

end RealmLogon
