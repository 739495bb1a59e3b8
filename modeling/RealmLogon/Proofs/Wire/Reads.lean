import RealmLogon.Wire.Reader

/-! A read that takes certain bytes off the front, whatever comes after them. Encoders write messages field by
field, and the reads of the fields are put together in the same order. -/

namespace RealmLogon.Reader

variable {α β : Type} {r : Reader α} {k : α → Reader β} {b d : Bytes} {a : α} {c : β}

/-- The read takes these bytes, and gives this value. -/
def Takes (r : Reader α) (b : Bytes) (a : α) : Prop := ∀ rest, r (b ++ rest) = .ok (a, rest)

theorem bind_apply (r : Reader α) (k : α → Reader β) (b : Bytes) :
    (r >>= k) b = (r b).bind fun x => k x.1 x.2 := rfl

theorem bind_of_ok {rest : Bytes} (h : r b = .ok (a, rest)) (k : α → Reader β) : (r >>= k) b = k a rest := by
  rw [bind_apply, h]
  rfl

theorem bind_eq_ok {rest : Bytes} (h : (r >>= k) b = .ok (c, rest)) :
    ∃ a mid, r b = .ok (a, mid) ∧ k a mid = .ok (c, rest) := by
  cases hr : r b with
  | error e =>
    rw [bind_apply, hr] at h
    cases h
  | ok x =>
    rw [bind_of_ok hr] at h
    exact ⟨x.1, x.2, rfl, h⟩

theorem bind_eq_error {e : WireError} (h : (r >>= k) b = .error e) :
    r b = .error e ∨ ∃ a rest, r b = .ok (a, rest) ∧ k a rest = .error e := by
  cases hr : r b with
  | error f =>
    rw [bind_apply, hr] at h
    cases h
    exact .inl rfl
  | ok x =>
    rw [bind_of_ok hr] at h
    exact .inr ⟨x.1, x.2, rfl, h⟩

/-- The bytes of a field are taken, and the rest is left to the reads behind it. -/
theorem Takes.apply (h : Takes r b a) (k : α → Reader β) (rest : Bytes) : (r >>= k) (b ++ rest) = k a rest :=
  bind_of_ok (h rest) k

theorem ensure_apply {n : Nat} (h : n ≤ b.length) (k : Unit → Reader β) : (Reader.ensure n >>= k) b = k () b := by
  rw [bind_apply, Reader.ensure, if_neg (by omega)]
  rfl

theorem takes_pure (a : α) : Takes (pure a : Reader α) [] a := fun _ => rfl

theorem Takes.bind (h : Takes r b a) (hk : Takes (k a) d c) : Takes (r >>= k) (b ++ d) c := by
  intro rest
  rw [List.append_assoc, h.apply]
  exact hk rest

theorem Takes.silent (h : Takes r [] a) (hk : Takes (k a) b c) : Takes (r >>= k) b c := h.bind hk

theorem Takes.map (h : Takes r b a) (hk : ∀ rest, k a rest = .ok (c, rest)) : Takes (r >>= k) b c := by
  intro rest
  rw [h.apply]
  exact hk rest

theorem Takes.ensure {n : Nat} {k : Unit → Reader β} (h : Takes (k ()) b c) (hn : n ≤ b.length) :
    Takes (Reader.ensure n >>= k) b c := by
  intro rest
  have hl : n ≤ (b ++ rest).length := by
    rw [List.length_append]
    omega
  rw [ensure_apply hl]
  exact h rest

theorem takes_byte (x : UInt8) : Takes byte [x] x := fun _ => rfl

theorem takes_octets {n : Nat} (o : Octets n) : Takes (octets n) o.toList o := by
  intro rest
  have hl : n ≤ (o.toList ++ rest).length := by
    rw [List.length_append, o.length_toList]
    omega
  have ht : (o.toList ++ rest).take n = o.toList := List.take_left' o.length_toList
  have hd : (o.toList ++ rest).drop n = rest := List.drop_left' o.length_toList
  rw [octets, dif_pos hl]
  simp only [ht, hd]

theorem takes_word16 (w : UInt16) : Takes word16 (LittleEndian.word16 w) w := by
  have hl : (LittleEndian.word16 w).length = 2 := LittleEndian.length_word16 w
  refine Takes.map (takes_octets ⟨LittleEndian.word16 w, hl⟩) fun rest => ?_
  simp only [LittleEndian.toWord16_word16]
  rfl

theorem takes_word32 (w : UInt32) : Takes word32 (LittleEndian.word32 w) w := by
  have hl : (LittleEndian.word32 w).length = 4 := LittleEndian.length_word32 w
  refine Takes.map (takes_octets ⟨LittleEndian.word32 w, hl⟩) fun rest => ?_
  simp only [LittleEndian.toWord32_word32]
  rfl

theorem takes_skip (b : Bytes) : Takes (skip b.length) b () := by
  intro rest
  have hl : ¬(b ++ rest).length < b.length := by
    rw [List.length_append]
    omega
  rw [skip, if_neg hl, List.drop_left' rfl]

theorem takes_field {n : Nat} (o : Octets n) : Takes (field n) o.toList o :=
  (takes_octets o).ensure (by simp)

theorem takes_text (s : String) (e : WireError) : Takes (text (Bytes.ofString s).length e) (Bytes.ofString s) s := by
  refine Takes.map (takes_field ⟨Bytes.ofString s, rfl⟩) fun rest => ?_
  simp only [Bytes.toString?_ofString]
  rfl

/-- A text ends at the first zero byte. -/
theorem zeroTerminated_append_cons (h : ∀ x ∈ b, (x != 0) = true) (rest : Bytes) :
    zeroTerminated (b ++ 0 :: rest) = match Bytes.toString? b with
      | some s => .ok (s, rest)
      | none => .error .malformedString := by
  have hd : (b ++ 0 :: rest).dropWhile (· != 0) = 0 :: rest := by
    rw [List.dropWhile_append_of_pos h]
    rfl
  have ht : (b ++ 0 :: rest).takeWhile (· != 0) = b := by
    rw [List.takeWhile_append_of_pos h]
    simp
  cases hs : Bytes.toString? b <;> simp only [zeroTerminated, hd, ht, hs]

theorem takes_zeroTerminated {s : String} (h : (0 : UInt8) ∉ Bytes.ofString s) :
    Takes zeroTerminated (Bytes.ofString s ++ [0]) s := by
  intro rest
  have hall : ∀ x ∈ Bytes.ofString s, (x != 0) = true := by
    intro x hx
    simp only [bne_iff_ne, ne_eq]
    rintro rfl
    exact h hx
  rw [List.append_assoc, List.singleton_append, zeroTerminated_append_cons hall, Bytes.toString?_ofString]

theorem takes_command (c : Command) : Takes (command c) [c.code] () := by
  refine Takes.ensure (Takes.map (takes_byte c.code) fun rest => ?_) (by simp)
  rw [if_pos rfl]
  rfl

theorem takes_verdict (v : Verdict) : Takes verdict [v.code] v := by
  refine Takes.ensure (Takes.map (takes_byte v.code) fun rest => ?_) (by simp)
  simp only [Verdict.ofCode?_code]
  rfl

/-- What comes after a message does not matter to its decoder. -/
theorem Takes.decode_append (h : Takes r b a) (rest : Bytes) : decode r (b ++ rest) = .ok a := by
  rw [decode, StateT.run, h]
  rfl

theorem Takes.decode (h : Takes r b a) : decode r b = .ok a := by
  simpa using h.decode_append []

theorem ensure_apply_short {n : Nat} (h : b.length < n) (k : Unit → Reader β) :
    (ensure n >>= k) b = .error (.packetTooSmall n b.length) := by
  rw [bind_apply, ensure, if_pos h]
  rfl

/-- Before any byte has come, every reply lacks its command. -/
theorem decode_command_nil (c : Command) (k : Unit → Reader β) :
    decode (command c >>= k) [] = .error (.packetTooSmall 1 0) := rfl

end RealmLogon.Reader
