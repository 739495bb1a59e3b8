import RealmLogon.Proofs.Wire.Messages

/-! What a read that succeeds has taken off the front. The reads of a message are taken apart in the order of its
fields, and the bytes that were there are found to be the ones that the encoder writes. -/

namespace RealmLogon

namespace Reader

variable {α β : Type} {r : Reader α} {k : α → Reader β} {b rest : Bytes}

theorem pure_eq_ok {a c : α} (h : (pure a : Reader α) b = .ok (c, rest)) : c = a ∧ b = rest := by
  cases h
  exact ⟨rfl, rfl⟩

theorem fail_ne_ok {e : WireError} {a : α} : (fail e : Reader α) b ≠ .ok (a, rest) := by
  intro h
  cases h

theorem ensure_eq_ok {n : Nat} {u : Unit} (h : ensure n b = .ok (u, rest)) : b = rest := by
  unfold ensure at h
  split at h
  · cases h
  · cases h
    rfl

theorem byte_eq_ok {x : UInt8} (h : byte b = .ok (x, rest)) : b = [x] ++ rest := by
  cases b with
  | nil => cases h
  | cons y b =>
    cases h
    rfl

theorem octets_eq_ok {n : Nat} {o : Octets n} (h : octets n b = .ok (o, rest)) : b = o.toList ++ rest := by
  unfold octets at h
  split at h
  · cases h
    exact (List.take_append_drop n b).symm
  · cases h

theorem word16_eq_ok {w : UInt16} (h : word16 b = .ok (w, rest)) : b = LittleEndian.word16 w ++ rest := by
  obtain ⟨o, mid, ho, hw⟩ := bind_eq_ok h
  obtain ⟨rfl, rfl⟩ := pure_eq_ok hw
  rw [LittleEndian.word16_toWord16 o.length_toList]
  exact octets_eq_ok ho

theorem word32_eq_ok {w : UInt32} (h : word32 b = .ok (w, rest)) : b = LittleEndian.word32 w ++ rest := by
  obtain ⟨o, mid, ho, hw⟩ := bind_eq_ok h
  obtain ⟨rfl, rfl⟩ := pure_eq_ok hw
  rw [LittleEndian.word32_toWord32 o.length_toList]
  exact octets_eq_ok ho

theorem field_eq_ok {n : Nat} {o : Octets n} (h : field n b = .ok (o, rest)) : b = o.toList ++ rest := by
  obtain ⟨u, mid, he, ho⟩ := bind_eq_ok h
  rw [ensure_eq_ok he]
  exact octets_eq_ok ho

theorem text_eq_ok {n : Nat} {e : WireError} {s : String} (h : text n e b = .ok (s, rest)) :
    n = (Bytes.ofString s).length ∧ b = Bytes.ofString s ++ rest := by
  obtain ⟨o, mid, ho, hs⟩ := bind_eq_ok h
  cases ht : Bytes.toString? o.toList with
  | none =>
    simp only [ht] at hs
    exact absurd hs fail_ne_ok
  | some t =>
    simp only [ht] at hs
    obtain ⟨rfl, rfl⟩ := pure_eq_ok hs
    rw [Bytes.ofString_of_toString? ht]
    exact ⟨o.length_toList.symm, field_eq_ok ho⟩

theorem command_eq_ok {c : Command} {u : Unit} (h : command c b = .ok (u, rest)) : b = [c.code] ++ rest := by
  obtain ⟨v, mid, he, h⟩ := bind_eq_ok h
  obtain ⟨x, mid', hx, h⟩ := bind_eq_ok h
  rw [ensure_eq_ok he, byte_eq_ok hx]
  split at h
  · rename_i hc
    obtain ⟨-, rfl⟩ := pure_eq_ok h
    rw [hc]
  · exact absurd h fail_ne_ok

theorem decode_eq_ok {a : α} (h : decode r b = .ok a) : ∃ rest, r b = .ok (a, rest) := by
  unfold decode StateT.run at h
  cases hr : r b with
  | error e => simp [hr, Except.map] at h
  | ok x =>
    simp only [hr, Except.map, Except.ok.injEq] at h
    exact ⟨x.2, by rw [← h]⟩

end Reader

theorem Command.eq_code_of_ofCode? {code : UInt8} {c : Command} (h : Command.ofCode? code = some c) :
    code = c.code := by
  have hc := List.find?_some h
  exact (eq_of_beq hc).symm

open Reader

namespace Challenge

variable {b rest : Bytes} {c : Challenge}

theorem opening_eq_ok {code : UInt8} {o : Command} (h : opening code b = .ok (o, rest)) :
    IsOpening o ∧ code = o.code ∧ b = rest := by
  unfold opening at h
  cases hc : Command.ofCode? code with
  | none =>
    simp only [hc] at h
    exact absurd h fail_ne_ok
  | some c =>
    have he := Command.eq_code_of_ofCode? hc
    simp only [hc] at h
    cases c with
    | logonChallenge =>
      obtain ⟨rfl, rfl⟩ := pure_eq_ok h
      exact ⟨.inl rfl, he, rfl⟩
    | reconnectChallenge =>
      obtain ⟨rfl, rfl⟩ := pure_eq_ok h
      exact ⟨.inr rfl, he, rfl⟩
    | _ => exact absurd h fail_ne_ok

theorem checkSize_eq_ok {declared : UInt16} {n : Nat} {u : Unit} (h : checkSize declared n b = .ok (u, rest)) :
    declared.toNat = sizedHeader + n ∧ n ≤ maxLogin ∧ b = rest := by
  unfold checkSize at h
  split at h
  · exact absurd h fail_ne_ok
  · split at h
    · exact absurd h fail_ne_ok
    · obtain ⟨-, rfl⟩ := pure_eq_ok h
      exact ⟨by omega, by omega, rfl⟩

/-- A challenge is read from its encoding only. -/
theorem read_eq_ok (h : read b = .ok (c, rest)) :
    IsOpening c.command ∧ (Bytes.ofString c.login).length ≤ maxLogin ∧ b = c.encode ++ rest := by
  obtain ⟨_, _, h₀, h⟩ := bind_eq_ok h
  obtain ⟨code, _, h₁, h⟩ := bind_eq_ok h
  obtain ⟨command, _, h₂, h⟩ := bind_eq_ok h
  obtain ⟨error, _, h₃, h⟩ := bind_eq_ok h
  obtain ⟨size, _, h₄, h⟩ := bind_eq_ok h
  obtain ⟨gameName, _, h₅, h⟩ := bind_eq_ok h
  obtain ⟨version, _, h₆, h⟩ := bind_eq_ok h
  obtain ⟨build, _, h₇, h⟩ := bind_eq_ok h
  obtain ⟨platform, _, h₈, h⟩ := bind_eq_ok h
  obtain ⟨os, _, h₉, h⟩ := bind_eq_ok h
  obtain ⟨country, _, h₁₀, h⟩ := bind_eq_ok h
  obtain ⟨bias, _, h₁₁, h⟩ := bind_eq_ok h
  obtain ⟨ip, _, h₁₂, h⟩ := bind_eq_ok h
  obtain ⟨length, _, h₁₃, h⟩ := bind_eq_ok h
  obtain ⟨_, _, h₁₄, h⟩ := bind_eq_ok h
  obtain ⟨login, _, h₁₅, h⟩ := bind_eq_ok h
  obtain ⟨rfl, rfl⟩ := pure_eq_ok h
  obtain ⟨hc, hcode, rfl⟩ := opening_eq_ok h₂
  obtain ⟨hd, hm, rfl⟩ := checkSize_eq_ok h₁₄
  obtain ⟨hl, htext⟩ := text_eq_ok h₁₅
  have hlogin : (Bytes.ofString login).length ≤ maxLogin := by omega
  have hsize : size = UInt16.ofNat (sizedHeader + (Bytes.ofString login).length) := by
    rw [← hl, ← hd, UInt16.ofNat_toNat]
  have hlength : length = UInt8.ofNat (Bytes.ofString login).length := by
    rw [← hl, UInt8.ofNat_toNat]
  refine ⟨hc, hlogin, ?_⟩
  rw [encode_eq hlogin, ensure_eq_ok h₀, byte_eq_ok h₁, hcode, byte_eq_ok h₃, word16_eq_ok h₄, field_eq_ok h₅,
    field_eq_ok h₆, word16_eq_ok h₇, field_eq_ok h₈, field_eq_ok h₉, field_eq_ok h₁₀, word32_eq_ok h₁₁,
    field_eq_ok h₁₂, byte_eq_ok h₁₃, htext, hlength, hsize]
  simp only [declared, List.append_assoc]

end Challenge

namespace LogonProof

variable {b rest : Bytes} {p : LogonProof}

theorem getElem_authenticator (i : Nat) (hi : i < 8) :
    SecurityFlag.authenticator.toBitVec[i] = decide (i = 2) := by
  have h : SecurityFlag.authenticator.toBitVec = BitVec.twoPow 8 2 := rfl
  simp only [h, BitVec.getElem_twoPow]

theorem and_authenticator_eq_zero_iff (f : UInt8) :
    f &&& SecurityFlag.authenticator = 0 ↔ f.toBitVec[2] = false := by
  constructor
  · intro h
    have hb := congrArg (fun x : UInt8 => x.toBitVec[2]) h
    simpa [getElem_authenticator] using hb
  · intro h
    apply UInt8.eq_of_toBitVec_eq
    apply BitVec.eq_of_getElem_eq
    intro i hi
    by_cases h2 : i = 2
    · subst h2
      simp [h]
    · simp [getElem_authenticator, h2]

/-- The flags that are sent are the flags that came, if a token came with the one of the authenticator. -/
theorem sentFlags_eq (h : p.securityFlags &&& SecurityFlag.authenticator = 0 ↔ p.token = none) :
    p.sentFlags = p.securityFlags := by
  rw [and_authenticator_eq_zero_iff] at h
  apply UInt8.eq_of_toBitVec_eq
  apply BitVec.eq_of_getElem_eq
  intro i hi
  cases ht : p.token with
  | none =>
    have hf := h.mpr ht
    by_cases h2 : i = 2
    · subst h2
      simp [sentFlags, ht, hf]
    · simp [sentFlags, ht, h2, getElem_authenticator]
  | some t =>
    have hf : p.securityFlags.toBitVec[2] = true := by
      rw [← Bool.not_eq_false]
      intro hf
      rw [h.mp hf] at ht
      cases ht
    by_cases h2 : i = 2
    · subst h2
      simp [sentFlags, ht, hf]
    · simp [sentFlags, ht, h2, getElem_authenticator]

theorem sentFlags_and_ne_zero_iff (p : LogonProof) :
    p.sentFlags &&& SecurityFlag.authenticator ≠ 0 ↔ p.token.isSome = true := by
  cases ht : p.token with
  | none => simp [sentFlags, ht, and_not_authenticator]
  | some t => simp [sentFlags, ht, or_authenticator]

theorem sentFlags_and_not (p : LogonProof) :
    p.sentFlags &&& ~~~SecurityFlag.authenticator = p.securityFlags &&& ~~~SecurityFlag.authenticator := by
  apply UInt8.eq_of_toBitVec_eq
  apply BitVec.eq_of_getElem_eq
  intro i hi
  cases ht : p.token with
  | none => simp [sentFlags, ht]
  | some t =>
    by_cases h2 : i = 2
    · simp [sentFlags, ht, h2, getElem_authenticator]
    · simp [sentFlags, ht, h2, getElem_authenticator]

def written : Option String → Bytes
  | some token => UInt8.ofNat (Bytes.ofString token).length :: Bytes.ofString token
  | none => []

theorem sentToken_eq (p : LogonProof) : p.sentToken = written p.token := by
  unfold sentToken
  cases p.token <;> rfl

theorem readToken_eq_ok {flags : UInt8} {token : Option String} (h : readToken flags b = .ok (token, rest)) :
    (flags &&& SecurityFlag.authenticator = 0 ↔ token = none) ∧
      (∀ t ∈ token, (Bytes.ofString t).length < 256) ∧ b = written token ++ rest := by
  unfold readToken at h
  split at h
  · rename_i hf
    obtain ⟨rfl, rfl⟩ := pure_eq_ok h
    simp [hf, written]
  · rename_i hf
    obtain ⟨_, _, h₀, h⟩ := bind_eq_ok h
    obtain ⟨length, _, h₁, h⟩ := bind_eq_ok h
    obtain ⟨t, _, h₂, h⟩ := bind_eq_ok h
    obtain ⟨rfl, rfl⟩ := pure_eq_ok h
    obtain ⟨hl, ht⟩ := text_eq_ok h₂
    have hlength : length = UInt8.ofNat (Bytes.ofString t).length := by
      rw [← hl, UInt8.ofNat_toNat]
    refine ⟨by simp [hf], ?_, ?_⟩
    · rintro _ ⟨⟩
      rw [← hl]
      exact length.toNat_lt
    · rw [ensure_eq_ok h₀, byte_eq_ok h₁, ht, hlength]
      rfl

theorem read_eq_ok (h : read b = .ok (p, rest)) :
    (∀ t ∈ p.token, (Bytes.ofString t).length < 256) ∧ b = p.encode ++ rest := by
  obtain ⟨_, _, h₀, h⟩ := bind_eq_ok h
  obtain ⟨_, _, h₁, h⟩ := bind_eq_ok h
  obtain ⟨clientKey, _, h₂, h⟩ := bind_eq_ok h
  obtain ⟨proof, _, h₃, h⟩ := bind_eq_ok h
  obtain ⟨versionProof, _, h₄, h⟩ := bind_eq_ok h
  obtain ⟨keyCount, _, h₅, h⟩ := bind_eq_ok h
  obtain ⟨flags, _, h₆, h⟩ := bind_eq_ok h
  obtain ⟨token, _, h₇, h⟩ := bind_eq_ok h
  obtain ⟨rfl, rfl⟩ := pure_eq_ok h
  obtain ⟨hf, ht, hb⟩ := readToken_eq_ok h₇
  refine ⟨ht, ?_⟩
  rw [encode_eq, sentFlags_eq hf, ensure_eq_ok h₀, command_eq_ok h₁, field_eq_ok h₂, field_eq_ok h₃, field_eq_ok h₄,
    byte_eq_ok h₅, byte_eq_ok h₆, hb, sentToken_eq]
  simp only [List.append_assoc]

end LogonProof

namespace ReconnectProof

theorem read_eq_ok {b rest : Bytes} {p : ReconnectProof} (h : read b = .ok (p, rest)) : b = p.encode ++ rest := by
  obtain ⟨_, _, h₀, h⟩ := bind_eq_ok h
  obtain ⟨_, _, h₁, h⟩ := bind_eq_ok h
  obtain ⟨clientRandom, _, h₂, h⟩ := bind_eq_ok h
  obtain ⟨proof, _, h₃, h⟩ := bind_eq_ok h
  obtain ⟨versionProof, _, h₄, h⟩ := bind_eq_ok h
  obtain ⟨keyCount, _, h₅, h⟩ := bind_eq_ok h
  obtain ⟨rfl, rfl⟩ := pure_eq_ok h
  rw [ensure_eq_ok h₀, command_eq_ok h₁, field_eq_ok h₂, field_eq_ok h₃, field_eq_ok h₄, byte_eq_ok h₅]
  simp [encode]

end ReconnectProof

end RealmLogon
