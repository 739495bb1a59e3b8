import Mathlib.Data.Nat.ModEq
import Mathlib.Tactic.Ring
import RealmLogon.Exchange.Client

/-! The two sides of a password exchange compute one secret. The server raises `A * v ^ u` to its own
private value, the client raises `B - k * g ^ x` to `a + u * x`; both are `g ^ (b * (a + u * x))` modulo
the prime, and every number of the exchange fits in the 32 bytes in which it travels. -/

namespace RealmLogon.Exchange

theorem prime_eq : prime = 0x894B645E89E1535BBDAD5B8B290650530801B18EBFBF5E8FAB3C82872A3E9BB7 := by decide

theorem prime_pos : 0 < prime := by rw [prime_eq]; decide

theorem one_lt_prime : 1 < prime := by rw [prime_eq]; decide

theorem coprime_generator : Nat.Coprime generator.toNat prime := by rw [prime_eq]; decide

theorem powMod_eq_pow (b e m : ℕ) : powMod b e m = b ^ e % m := powMod_eq b e m

theorem generatorPow_eq (e : ℕ) : generatorPow e = generator.toNat ^ e % prime := powMod_eq_pow _ e prime

theorem generatorPow_lt (e : ℕ) : generatorPow e < prime := by
  rw [generatorPow_eq]
  exact Nat.mod_lt _ prime_pos

theorem generatorPow_modEq (e : ℕ) : generatorPow e ≡ generator.toNat ^ e [MOD prime] := by
  rw [generatorPow_eq]
  exact Nat.mod_modEq _ _

/-- A power of the generator is no multiple of the prime. -/
theorem generatorPow_ne_zero (e : ℕ) : generatorPow e ≠ 0 := by
  intro h
  have hd : prime ∣ generator.toNat ^ e := by
    apply Nat.dvd_of_mod_eq_zero
    rw [← generatorPow_eq, h]
  have hc : Nat.Coprime (generator.toNat ^ e) prime := coprime_generator.pow_left e
  have h1 := hc.symm.eq_one_of_dvd hd
  have := one_lt_prime
  omega

theorem number_block {n : ℕ} (h : n < prime) : number (LittleEndian.block 32 n : Key) = n := by
  have hp : prime < Nat.pow 256 32 := by rw [prime_eq]; decide
  simp only [number, LittleEndian.toList_block, LittleEndian.value_digits]
  exact Nat.mod_eq_of_lt (h.trans hp)

theorem number_verifier (login password : String) (salt : Salt) :
    number (verifier login password salt) = generatorPow (privateExponent login password salt) :=
  number_block (generatorPow_lt _)

namespace Server

theorem number_publicKey (login : String) (salt : Salt) (v : Verifier) (b : Key) :
    number (start login salt v b).publicKey = (generatorPow (number b) + number v * multiplier) % prime :=
  number_block (Nat.mod_lt _ prime_pos)

/-- The secret that the server derives from a client's public value. -/
def secret (s : Server) (clientKey : Key) : ℕ :=
  powMod (number clientKey * powMod (number s.verifier) (scramble clientKey s.publicKey) prime % prime)
    (number s.privateKey) prime

theorem secret_lt (s : Server) (clientKey : Key) : s.secret clientKey < prime := by
  rw [secret, powMod_eq_pow]
  exact Nat.mod_lt _ prime_pos

theorem sessionKey_eq (s : Server) (clientKey : Key) :
    s.sessionKey clientKey = Exchange.sessionKey (LittleEndian.block 32 (s.secret clientKey)) := rfl

/-- The server's secret as one power of the generator. -/
theorem secret_modEq {s : Server} {clientKey : Key} {a x : ℕ}
    (ha : number clientKey = generatorPow a) (hv : number s.verifier = generatorPow x) :
    s.secret clientKey ≡
      generator.toNat ^ (number s.privateKey * (a + scramble clientKey s.publicKey * x)) [MOD prime] := by
  let u := scramble clientKey s.publicKey
  have hu : powMod (number s.verifier) u prime ≡ (generator.toNat ^ x) ^ u [MOD prime] := by
    rw [powMod_eq_pow, hv]
    exact (Nat.mod_modEq _ _).trans ((generatorPow_modEq x).pow u)
  have hb : number clientKey * powMod (number s.verifier) u prime % prime ≡
      generator.toNat ^ (a + u * x) [MOD prime] := by
    calc number clientKey * powMod (number s.verifier) u prime % prime
      _ ≡ number clientKey * powMod (number s.verifier) u prime [MOD prime] := Nat.mod_modEq _ _
      _ ≡ generator.toNat ^ a * (generator.toNat ^ x) ^ u [MOD prime] := by
        rw [ha]
        exact (generatorPow_modEq a).mul hu
      _ = generator.toNat ^ (a + u * x) := by rw [← pow_mul, pow_add, Nat.mul_comm x u]
  calc s.secret clientKey
    _ ≡ (number clientKey * powMod (number s.verifier) u prime % prime) ^ number s.privateKey [MOD prime] := by
      rw [secret, powMod_eq_pow]
      exact Nat.mod_modEq _ _
    _ ≡ (generator.toNat ^ (a + u * x)) ^ number s.privateKey [MOD prime] := hb.pow _
    _ = generator.toNat ^ (number s.privateKey * (a + u * x)) := by
      rw [← pow_mul, Nat.mul_comm (a + u * x)]

end Server

namespace Client

/-- The secret that the client derives from a server's public value. -/
def secret (login password : String) (salt : Salt) (serverKey privateKey : Key) : ℕ :=
  let u := scramble (LittleEndian.block 32 (generatorPow (number privateKey))) serverKey
  let x := privateExponent login password salt
  let hidden := generatorPow x * multiplier % prime
  powMod ((number serverKey % prime + prime - hidden) % prime) (number privateKey + u * x) prime

theorem secret_lt (login password : String) (salt : Salt) (serverKey privateKey : Key) :
    secret login password salt serverKey privateKey < prime := by
  simp only [secret, powMod_eq_pow]
  exact Nat.mod_lt _ prime_pos

variable {login password : String} {salt : Salt} {serverKey privateKey : Key} {c : Client}

theorem answer_eq_none (h : number serverKey % prime = 0) :
    answer login password salt serverKey privateKey = none := by
  simp [answer, h]

theorem answer_eq_some (h : number serverKey % prime ≠ 0) :
    let publicKey : Key := LittleEndian.block 32 (generatorPow (number privateKey))
    let key := Exchange.sessionKey (LittleEndian.block 32 (secret login password salt serverKey privateKey))
    answer login password salt serverKey privateKey = some
      ⟨publicKey, clientProof (Sha1.hash (Bytes.ofString login)) salt publicKey serverKey key, key⟩ := by
  simp only [answer, h, if_false]
  rfl

theorem exists_answer (login password : String) (salt : Salt) (privateKey : Key)
    (h : number serverKey % prime ≠ 0) :
    ∃ c, answer login password salt serverKey privateKey = some c :=
  ⟨_, answer_eq_some h⟩

theorem ne_zero_of_answer (h : answer login password salt serverKey privateKey = some c) :
    number serverKey % prime ≠ 0 := by
  intro h0
  rw [answer_eq_none h0] at h
  cases h

theorem number_publicKey (h : answer login password salt serverKey privateKey = some c) :
    number c.publicKey = generatorPow (number privateKey) := by
  rw [answer_eq_some (ne_zero_of_answer h)] at h
  cases h
  exact number_block (generatorPow_lt _)

/-- The secret of a client that answered, with its public value in place of the encoded power. -/
theorem secret_eq (h : answer login password salt serverKey privateKey = some c) :
    secret login password salt serverKey privateKey =
      powMod ((number serverKey % prime + prime -
        generatorPow (privateExponent login password salt) * multiplier % prime) % prime)
        (number privateKey + scramble c.publicKey serverKey * privateExponent login password salt) prime := by
  rw [answer_eq_some (ne_zero_of_answer h)] at h
  cases h
  rfl

theorem sessionKey_eq (h : answer login password salt serverKey privateKey = some c) :
    c.sessionKey =
      Exchange.sessionKey (LittleEndian.block 32 (secret login password salt serverKey privateKey)) := by
  rw [answer_eq_some (ne_zero_of_answer h)] at h
  cases h
  rfl

theorem proof_eq (h : answer login password salt serverKey privateKey = some c) :
    c.proof =
      clientProof (Sha1.hash (Bytes.ofString login)) salt c.publicKey serverKey c.sessionKey := by
  rw [answer_eq_some (ne_zero_of_answer h)] at h
  cases h
  rfl

/-- Taking the verifier off the public value again leaves the server's power of the generator. -/
theorem base_modEq (b x : ℕ) :
    ((generatorPow b + generatorPow x * multiplier) % prime % prime + prime -
      generatorPow x * multiplier % prime) % prime ≡ generator.toNat ^ b [MOD prime] := by
  let hidden := generatorPow x * multiplier % prime
  have hh : hidden < prime := Nat.mod_lt _ prime_pos
  have hle : hidden ≤ (generatorPow b + generatorPow x * multiplier) % prime % prime + prime := by omega
  have hsum : (generatorPow b + generatorPow x * multiplier) % prime % prime + prime ≡
      generatorPow b + hidden [MOD prime] := by
    calc (generatorPow b + generatorPow x * multiplier) % prime % prime + prime
      _ ≡ (generatorPow b + generatorPow x * multiplier) % prime % prime [MOD prime] := Nat.add_modEq_right
      _ ≡ generatorPow b + generatorPow x * multiplier [MOD prime] :=
        (Nat.mod_modEq _ _).trans (Nat.mod_modEq _ _)
      _ ≡ generatorPow b + hidden [MOD prime] := (Nat.mod_modEq _ _).symm.add_left _
  have hdiff : (generatorPow b + generatorPow x * multiplier) % prime % prime + prime - hidden + hidden ≡
      generatorPow b + hidden [MOD prime] := by
    rw [Nat.sub_add_cancel hle]
    exact hsum
  exact (Nat.mod_modEq _ _).trans ((Nat.ModEq.add_right_cancel' hidden hdiff).trans (generatorPow_modEq b))

end Client

section Agreement

variable {login password : String} {salt : Salt} {a b : Key} {c : Client}

/-- Client and server derive one secret from the two public values. -/
theorem secret_eq
    (h : Client.answer login password salt
      (Server.start login salt (verifier login password salt) b).publicKey a = some c) :
    Client.secret login password salt (Server.start login salt (verifier login password salt) b).publicKey a =
      (Server.start login salt (verifier login password salt) b).secret c.publicKey := by
  let server := Server.start login salt (verifier login password salt) b
  let u := scramble c.publicKey server.publicKey
  let x := privateExponent login password salt
  have hA := Client.number_publicKey h
  have hB : number server.publicKey = (generatorPow (number b) + generatorPow x * multiplier) % prime := by
    rw [← number_verifier]
    exact Server.number_publicKey login salt _ b
  have hserver : server.secret c.publicKey ≡ generator.toNat ^ (number b * (number a + u * x)) [MOD prime] :=
    Server.secret_modEq hA (number_verifier login password salt)
  have hclient : Client.secret login password salt server.publicKey a ≡
      generator.toNat ^ (number b * (number a + u * x)) [MOD prime] := by
    have hbase := (Client.base_modEq (number b) x).pow (number a + u * x)
    rw [← hB, ← pow_mul] at hbase
    rw [Client.secret_eq h, powMod_eq_pow]
    exact (Nat.mod_modEq _ _).trans hbase
  exact (hclient.trans hserver.symm).eq_of_lt_of_lt (Client.secret_lt ..) (Server.secret_lt ..)

theorem accept_answer
    (h : Client.answer login password salt
      (Server.start login salt (verifier login password salt) b).publicKey a = some c) :
    (Server.start login salt (verifier login password salt) b).accept c.publicKey c.proof =
      some c.sessionKey := by
  let server := Server.start login salt (verifier login password salt) b
  have hA : number c.publicKey % prime ≠ 0 := by
    rw [Client.number_publicKey h, Nat.mod_eq_of_lt (generatorPow_lt _)]
    exact generatorPow_ne_zero _
  have hkey : server.sessionKey c.publicKey = c.sessionKey := by
    rw [Server.sessionKey_eq, ← secret_eq h, Client.sessionKey_eq h]
  have hproof : server.expectedProof c.publicKey = c.proof := by
    rw [Client.proof_eq h, ← hkey]
    rfl
  simp only [Server.accept]
  rw [if_neg hA, if_pos hproof, hkey]

end Agreement

/-- For every private value of either side: a client that is given a public value which is no multiple of the
prime answers it, the server accepts the answer, and both end with one session key and one proof of the
server. The client's public value is no multiple of the prime either. Verifier, public values and secret are
the numbers that they encode, with nothing cut off. -/
theorem exchange_agrees (login password : String) (salt : Salt) (a b : Key) :
    let v := verifier login password salt
    let server := Server.start login salt v b
    let x := privateExponent login password salt
    (number server.publicKey % prime = 0 → Client.answer login password salt server.publicKey a = none) ∧
    (number server.publicKey % prime ≠ 0 →
      ∃ c, Client.answer login password salt server.publicKey a = some c ∧
        (∃ key, server.accept c.publicKey c.proof = some key ∧ key = c.sessionKey ∧
          serverProof c.publicKey c.proof key = c.expectedProof) ∧
        number c.publicKey % prime ≠ 0 ∧
        number v = generator.toNat ^ x % prime ∧
        number server.publicKey = (generator.toNat ^ number b % prime + multiplier * number v) % prime ∧
        number c.publicKey = generator.toNat ^ number a % prime ∧
        number (LittleEndian.block 32 (server.secret c.publicKey) : Key) = server.secret c.publicKey ∧
        number (LittleEndian.block 32 (Client.secret login password salt server.publicKey a) : Key) =
          server.secret c.publicKey) := by
  intro v server x
  refine ⟨Client.answer_eq_none, fun h => ?_⟩
  obtain ⟨c, hc⟩ := Client.exists_answer login password salt a h
  have hA := Client.number_publicKey hc
  refine ⟨c, hc, ⟨c.sessionKey, accept_answer hc, rfl, rfl⟩, ?_, ?_, ?_, ?_, ?_, ?_⟩
  · rw [hA, Nat.mod_eq_of_lt (generatorPow_lt _)]
    exact generatorPow_ne_zero _
  · rw [number_verifier, generatorPow_eq]
  · rw [Server.number_publicKey, generatorPow_eq, Nat.mul_comm multiplier]
  · rw [hA, generatorPow_eq]
  · exact number_block (Server.secret_lt _ _)
  · rw [number_block (Client.secret_lt ..), secret_eq hc]

end RealmLogon.Exchange
