import RealmLogon.Bytes.Octets

/-! Texts in UTF-8 without a zero byte. A zero byte stands for the character of that code and for no part of any
other, so a text without this character can be told from what follows a zero byte. In the same way each ASCII character
is one byte, and any other character has bytes that are none of them. -/

namespace RealmLogon.Text

def ZeroFree (s : String) : Prop := '\x00' ∉ s.toList

instance (s : String) : Decidable (ZeroFree s) := inferInstanceAs (Decidable ('\x00' ∉ s.toList))

def IsAscii (s : String) : Prop := ∀ c ∈ s.toList, c.val.toNat < 128

instance (s : String) : Decidable (IsAscii s) :=
  List.decidableBAll (fun c : Char => c.val.toNat < 128) s.toList

theorem toNat_ofNat {v : Nat} (h : v.isValidChar) : (Char.ofNat v).val.toNat = v := by
  unfold Char.ofNat
  rw [dif_pos h]
  rfl

theorem ofString_ofList (cs : List Char) :
    Bytes.ofString (String.ofList cs) = cs.flatMap String.utf8EncodeChar := by
  simp [Bytes.ofString, List.utf8Encode]

theorem ofString_eq (s : String) : Bytes.ofString s = s.toList.flatMap String.utf8EncodeChar := by
  rw [← ofString_ofList, String.ofList_toList]

theorem mod_of_zero_eq_ofNat {n : Nat} (h : (0 : UInt8) = UInt8.ofNat n) : n % 256 = 0 := by
  have ht := congrArg UInt8.toNat h
  rw [UInt8.toNat_ofNat'] at ht
  exact ht.symm

/-- A character other than that of code zero has no zero byte. -/
theorem zero_notMem_encode {c : Char} (h : c ≠ '\x00') : (0 : UInt8) ∉ String.utf8EncodeChar c := by
  intro hm
  have hv : c.val.toNat ≠ 0 := fun he => h (Char.toNat_inj.mp he)
  simp only [String.utf8EncodeChar] at hm
  split at hm
  · simp only [List.mem_cons, List.not_mem_nil, or_false] at hm
    have h0 := mod_of_zero_eq_ofNat hm
    omega
  · split at hm
    · simp only [List.mem_cons, List.not_mem_nil, or_false] at hm
      rcases hm with hm | hm
      all_goals
        have h0 := mod_of_zero_eq_ofNat hm
        omega
    · split at hm
      · simp only [List.mem_cons, List.not_mem_nil, or_false] at hm
        rcases hm with hm | hm | hm
        all_goals
          have h0 := mod_of_zero_eq_ofNat hm
          omega
      · simp only [List.mem_cons, List.not_mem_nil, or_false] at hm
        rcases hm with hm | hm | hm | hm
        all_goals
          have h0 := mod_of_zero_eq_ofNat hm
          omega

theorem zero_notMem_ofString {s : String} (h : ZeroFree s) : (0 : UInt8) ∉ Bytes.ofString s := by
  rw [ofString_eq]
  intro hm
  obtain ⟨c, hc, h0⟩ := List.mem_flatMap.mp hm
  exact zero_notMem_encode (fun he => h (he ▸ hc)) h0

theorem zeroFree_append {s t : String} (hs : ZeroFree s) (ht : ZeroFree t) : ZeroFree (s ++ t) := by
  simp only [ZeroFree, String.toList_append, List.mem_append, not_or]
  exact ⟨hs, ht⟩

section Ascii

variable {c : Char} {cs : List Char} {s : String}

theorem encode_of_ascii (h : c.val.toNat < 128) : String.utf8EncodeChar c = [UInt8.ofNat c.val.toNat] := by
  simp only [String.utf8EncodeChar]
  rw [if_pos (by omega)]

theorem ofString_ascii (h : ∀ c ∈ cs, c.val.toNat < 128) :
    Bytes.ofString (String.ofList cs) = cs.map fun c => UInt8.ofNat c.val.toNat := by
  rw [ofString_ofList]
  induction cs with
  | nil => rfl
  | cons c cs ih =>
    have hc := encode_of_ascii (h c List.mem_cons_self)
    have hcs := ih fun x hx => h x (List.mem_cons_of_mem c hx)
    rw [List.flatMap_cons, hc, hcs]
    rfl

theorem toNat_ofNat_ascii (h : c.val.toNat < 128) : (UInt8.ofNat c.val.toNat).toNat = c.val.toNat := by
  rw [UInt8.toNat_ofNat']
  omega

/-- The last byte of a character that is not of ASCII is not of ASCII either. -/
theorem exists_byte_of_not_ascii (h : 128 ≤ c.val.toNat) : ∃ b ∈ String.utf8EncodeChar c, 128 ≤ b.toNat := by
  refine ⟨UInt8.ofNat (c.val.toNat % 64 + 128), ?_, ?_⟩
  · simp only [String.utf8EncodeChar]
    rw [if_neg (by omega)]
    split
    · simp
    · split <;> simp
  · rw [UInt8.toNat_ofNat']
    omega

theorem encode_of_not_ascii (h : 128 ≤ c.val.toNat) :
    ∃ lead next more, String.utf8EncodeChar c = lead :: next :: more ∧ 128 ≤ lead.toNat := by
  have hlead (k n : Nat) (hk : 128 ≤ k % 256) (hn : k % 256 + n < 256) : 128 ≤ (UInt8.ofNat (n + k)).toNat := by
    rw [UInt8.toNat_ofNat']
    omega
  simp only [String.utf8EncodeChar]
  rw [if_neg (by omega)]
  split
  · exact ⟨_, _, _, rfl, hlead 192 _ (by decide) (by omega)⟩
  · split
    · exact ⟨_, _, _, rfl, hlead 224 _ (by decide) (by omega)⟩
    · exact ⟨_, _, _, rfl, hlead 240 _ (by decide) (by omega)⟩

theorem ascii_of_ofString (h : ∀ b ∈ Bytes.ofString s, b.toNat < 128) : ∀ c ∈ s.toList, c.val.toNat < 128 := by
  intro c hc
  refine Nat.not_le.mp fun hn => ?_
  obtain ⟨b, hb, hle⟩ := exists_byte_of_not_ascii hn
  rw [ofString_eq] at h
  exact absurd (h b (List.mem_flatMap.mpr ⟨c, hc, hb⟩)) (Nat.not_lt.mpr hle)

end Ascii

end RealmLogon.Text
