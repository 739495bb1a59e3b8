import RealmLogon.Cipher.Stored

/-! What was sealed opens again under the same key, so a stored secret is revealed as it was given. -/

namespace RealmLogon

theorem ChaCha20.crypt_nil (key : Octets 32) (nonce : Octets 12) (counter : UInt32) :
    crypt key nonce counter [] = [] := by
  rw [crypt]
  rfl

namespace ChaCha20

variable (key : Octets 32) (nonce : Octets 12) (counter : UInt32)

theorem crypt_eq (m : Bytes) :
    crypt key nonce counter m =
      List.zipWith (· ^^^ ·) (m.take 64) (block key nonce counter) ++
        crypt key nonce (counter + 1) (m.drop 64) := by
  by_cases hm : m = []
  · simp [hm, crypt_nil]
  · rw [crypt, dif_neg hm]

theorem take_drop_crypt (m : Bytes) :
    (crypt key nonce counter m).take 64 = List.zipWith (· ^^^ ·) (m.take 64) (block key nonce counter) ∧
      (crypt key nonce counter m).drop 64 = crypt key nonce (counter + 1) (m.drop 64) := by
  rw [crypt_eq]
  by_cases hm : 64 ≤ m.length
  · have hl : (List.zipWith (· ^^^ ·) (m.take 64) (block key nonce counter)).length = 64 := by
      simp only [List.length_zipWith, List.length_take, length_block]
      omega
    exact ⟨List.take_left' hl, List.drop_left' hl⟩
  · have hd : m.drop 64 = [] := List.drop_eq_nil_of_le (by omega)
    have hl : (List.zipWith (· ^^^ ·) (m.take 64) (block key nonce counter)).length ≤ 64 := by
      simp only [List.length_zipWith, length_block]
      omega
    rw [hd, crypt_nil, List.append_nil]
    exact ⟨List.take_of_length_le hl, List.drop_eq_nil_of_le hl⟩

/-- The byte of the key stream at a place, counted from the block of a counter on. -/
def streamByte (i : Nat) : UInt8 := (block key nonce (counter + UInt32.ofNat (i / 64))).getD (i % 64) 0

theorem getElem?_block {i : Nat} (h : i < 64) :
    (block key nonce counter)[i]? = some (streamByte key nonce counter i) := by
  have hl : i < (block key nonce counter).length := by
    rw [length_block]
    exact h
  have hc : counter + UInt32.ofNat 0 = counter := UInt32.add_zero counter
  rw [streamByte, Nat.div_eq_of_lt h, Nat.mod_eq_of_lt h, hc, List.getD_eq_getElem?_getD,
    List.getElem?_eq_getElem hl, Option.getD_some]

theorem streamByte_add (i : Nat) :
    streamByte key nonce counter (64 + i) = streamByte key nonce (counter + 1) i := by
  have hd : (64 + i) / 64 = 1 + i / 64 := by omega
  rw [streamByte, streamByte, hd, Nat.add_mod_left, UInt32.ofNat_add, ← UInt32.add_assoc]
  rfl

/-- Each byte is encrypted with the byte of the key stream at its place. -/
theorem getElem?_crypt (m : Bytes) (i : Nat) :
    (crypt key nonce counter m)[i]? = m[i]?.map (· ^^^ streamByte key nonce counter i) := by
  -- along the blocks before the place
  induction i using Nat.strongRecOn generalizing counter m with
  | ind i ih =>
    obtain ⟨ht, hd⟩ := take_drop_crypt key nonce counter m
    by_cases hi : i < 64
    · rw [← List.getElem?_take_of_lt hi, ht, List.getElem?_zipWith, List.getElem?_take_of_lt hi,
        getElem?_block key nonce counter hi]
      cases m[i]? <;> rfl
    · obtain ⟨j, rfl⟩ := Nat.exists_eq_add_of_le (Nat.not_lt.mp hi)
      rw [← List.getElem?_drop, hd, ih j (by omega), List.getElem?_drop, streamByte_add]

theorem crypt_crypt (m : Bytes) : crypt key nonce counter (crypt key nonce counter m) = m := by
  refine List.ext_getElem? fun i => ?_
  have hxor (x : UInt8) : x ^^^ streamByte key nonce counter i ^^^ streamByte key nonce counter i = x := by
    rw [UInt8.xor_assoc, UInt8.xor_self, UInt8.xor_zero]
  rw [getElem?_crypt, getElem?_crypt, Option.map_map]
  simp only [Function.comp_def, hxor, Option.map_id']

end ChaCha20

namespace Sealed

section Parts

variable (nonce : Octets 12) (ciphertext : Bytes) (t : Octets 16)

theorem length_parts : (nonce.toList ++ ciphertext ++ t.toList).length = ciphertext.length + 28 := by
  simp only [List.length_append, Octets.length_toList]
  omega

theorem take_parts : (nonce.toList ++ ciphertext ++ t.toList).take 12 = nonce.toList := by
  rw [List.append_assoc]
  exact List.take_left' (by simp)

theorem middle_parts : ((nonce.toList ++ ciphertext ++ t.toList).drop 12).take
    ((nonce.toList ++ ciphertext ++ t.toList).length - 28) = ciphertext := by
  rw [length_parts, List.append_assoc, List.drop_left' (by simp)]
  exact List.take_left' (by omega)

theorem drop_parts : (nonce.toList ++ ciphertext ++ t.toList).drop
    ((nonce.toList ++ ciphertext ++ t.toList).length - 16) = t.toList := by
  rw [length_parts]
  refine List.drop_left' ?_
  simp only [List.length_append, Octets.length_toList]
  omega

end Parts

theorem openSecret_sealSecret {plaintext blob : Bytes} {key : MasterKey} {nonce : Octets 12}
    (h : sealSecret plaintext key nonce = .ok blob) : openSecret blob key = .ok plaintext := by
  unfold sealSecret at h
  by_cases hf : fits plaintext = true
  · rw [if_pos hf] at h
    cases h
    generalize hc : ChaCha20.crypt key nonce 1 plaintext = ciphertext
    have hp : ChaCha20.crypt key nonce 1 ciphertext = plaintext := by
      rw [← hc, ChaCha20.crypt_crypt]
    have hfc : fits ciphertext = true := by
      have hlen : ciphertext.length = plaintext.length := by
        rw [← hc, ChaCha20.length_crypt]
      unfold fits at hf ⊢
      rw [hlen, hf]
    have hs : ¬(nonce.toList ++ ciphertext ++ (tag key nonce ciphertext).toList).length < nonceSize + tagSize := by
      simp only [length_parts, nonceSize, tagSize]
      omega
    unfold openSecret
    rw [dif_neg hs]
    simp only [take_parts, middle_parts, drop_parts, hfc]
    rw [if_pos (by simp)]
    exact congrArg Except.ok hp
  · rw [if_neg hf] at h
    cases h

end Sealed

theorem StoredSecret.reveal_prepare {text : String} {key : Option Sealed.MasterKey} {e e' : Entropy}
    {stored : Bytes} (h : prepare text key e = (.ok stored, e')) :
    ∃ secret, Hex.decode text = .ok secret ∧ reveal key stored = .ok secret := by
  unfold prepare at h
  cases hd : Hex.decode text with
  | error x => simp [hd] at h
  | ok secret =>
    refine ⟨secret, rfl, ?_⟩
    cases key with
    | none =>
      simp only [hd, Prod.mk.injEq, Except.ok.injEq] at h
      simp only [reveal, h.1]
    | some k =>
      cases hs : Sealed.sealSecret secret k (e.peek 12) with
      | error x =>
        simp only [hd, hs] at h
        cases h
      | ok blob =>
        simp only [hd, hs] at h
        cases h
        exact Sealed.openSecret_sealSecret hs

theorem Sealed.sealSecret_of_fits {plaintext : Bytes} (h : fits plaintext = true) (key : MasterKey)
    (nonce : Octets 12) :
    sealSecret plaintext key nonce = .ok (nonce.toList ++ ChaCha20.crypt key nonce 1 plaintext ++
      (tag key nonce (ChaCha20.crypt key nonce 1 plaintext)).toList) := if_pos h

theorem Sealed.exists_sealSecret_iff {plaintext : Bytes} (key : MasterKey) (nonce : Octets 12) :
    (∃ blob, sealSecret plaintext key nonce = .ok blob) ↔ fits plaintext = true := by
  constructor
  · rintro ⟨blob, h⟩
    by_cases hf : fits plaintext = true
    · exact hf
    · rw [sealSecret, if_neg hf] at h
      cases h
  · exact fun h => ⟨_, sealSecret_of_fits h key nonce⟩

theorem StoredSecret.exists_prepare_iff {text : String} {key : Option Sealed.MasterKey} {e : Entropy} :
    (∃ stored, (prepare text key e).1 = .ok stored) ↔
      ∃ secret, Hex.decode text = .ok secret ∧ (key = none ∨ Sealed.fits secret = true) := by
  unfold prepare
  cases Hex.decode text with
  | error x => simp
  | ok secret =>
    cases key with
    | none => simp
    | some k =>
      simp only [Except.ok.injEq, exists_eq_left', reduceCtorEq, false_or]
      rw [← Sealed.exists_sealSecret_iff k (e.peek 12)]
      cases Sealed.sealSecret secret k (e.peek 12) with
      | ok blob => exact ⟨fun _ => ⟨blob, rfl⟩, fun _ => ⟨blob, rfl⟩⟩
      | error x =>
        constructor
        · rintro ⟨stored, h⟩
          cases h
        · rintro ⟨blob, h⟩
          cases h

/-- What was prepared for storage is revealed as the secret that was spelt, and every secret is prepared that is spelt
right and that the cipher takes. Any plaintext that it takes is sealed under a key as the nonce, a ciphertext of the
same length and their tag, and it opens again. -/
theorem stored_secrets_open_again :
    (∀ (text : String) (key : Option Sealed.MasterKey) (e : Entropy),
      (∀ stored, (StoredSecret.prepare text key e).1 = .ok stored →
        ∃ secret, Hex.decode text = .ok secret ∧ StoredSecret.reveal key stored = .ok secret) ∧
      ((∃ stored, (StoredSecret.prepare text key e).1 = .ok stored) ↔
        ∃ secret, Hex.decode text = .ok secret ∧ (key = none ∨ Sealed.fits secret = true))) ∧
    ∀ (plaintext : Bytes) (key : Sealed.MasterKey) (nonce : Octets 12), Sealed.fits plaintext = true →
      ∃ ciphertext blob : Bytes, Sealed.sealSecret plaintext key nonce = .ok blob ∧
        blob = nonce.toList ++ ciphertext ++ (Sealed.tag key nonce ciphertext).toList ∧
        blob.length = plaintext.length + 28 ∧
        (∀ i, ciphertext[i]? = plaintext[i]?.map (· ^^^ ChaCha20.streamByte key nonce 1 i)) ∧
        Sealed.openSecret blob key = .ok plaintext := by
  refine ⟨fun text key e => ⟨fun stored h => ?_, StoredSecret.exists_prepare_iff⟩, fun plaintext key nonce hf => ?_⟩
  · rcases hp : StoredSecret.prepare text key e with ⟨result, left⟩
    rw [hp] at h
    obtain rfl : result = .ok stored := h
    exact StoredSecret.reveal_prepare hp
  · have hs := Sealed.sealSecret_of_fits hf key nonce
    refine ⟨ChaCha20.crypt key nonce 1 plaintext, _, hs, rfl, ?_, ?_, Sealed.openSecret_sealSecret hs⟩
    · rw [Sealed.length_parts, ChaCha20.length_crypt]
    · exact ChaCha20.getElem?_crypt key nonce 1 plaintext

/-- Three bytes are stored under a key and revealed; even no bytes at all are sealed and open again. -/
theorem three_bytes_open_again :
    (∃ stored, (StoredSecret.prepare " 3132FF\n" (some (.zero 32)) (.cycle [7])).1 = .ok stored ∧
      StoredSecret.reveal (some (.zero 32)) stored = .ok [0x31, 0x32, 0xFF]) ∧
    ∃ blob, Sealed.sealSecret [] (.zero 32) (.zero 12) = .ok blob ∧ blob.length = 28 ∧
      Sealed.openSecret blob (.zero 32) = .ok [] := by
  have hd : Hex.decode " 3132FF\n" = .ok [0x31, 0x32, 0xFF] := rfl
  constructor
  · obtain ⟨hopen, hprepared⟩ := stored_secrets_open_again.1 " 3132FF\n" (some (.zero 32)) (.cycle [7])
    obtain ⟨stored, hs⟩ := hprepared.mpr ⟨_, hd, .inr (by decide)⟩
    obtain ⟨secret, hd', hr⟩ := hopen stored hs
    obtain rfl : _ = secret := Except.ok.inj (hd.symm.trans hd')
    exact ⟨stored, hs, hr⟩
  · obtain ⟨ciphertext, blob, hs, -, hl, -, ho⟩ := stored_secrets_open_again.2 [] (.zero 32) (.zero 12) (by decide)
    exact ⟨blob, hs, hl, ho⟩

end RealmLogon
