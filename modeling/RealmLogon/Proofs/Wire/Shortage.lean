import RealmLogon.Proofs.Wire.Reads

/-! When a read asks for more bytes. It does so as long as its bytes are not all there, if every field is guarded; and
it does not if there are as many bytes as it takes at most. -/

namespace RealmLogon

/-- An answer that asks for more bytes. -/
def Lacks {α : Type} (x : Except WireError α) : Prop := ∃ needed got, x = .error (.packetTooSmall needed got)

namespace Reader

variable {α β : Type} {r : Reader α} {k : α → Reader β} {b d : Bytes} {a : α}

theorem lacks_bind (h : Lacks (r b)) (k : α → Reader β) : Lacks ((r >>= k) b) := by
  obtain ⟨needed, got, h⟩ := h
  rw [bind_apply, h]
  exact ⟨needed, got, rfl⟩

theorem lacks_ensure {n : Nat} (h : b.length < n) (k : Unit → Reader β) : Lacks ((ensure n >>= k) b) :=
  ⟨n, b.length, ensure_apply_short h k⟩

theorem lacks_decode (h : Lacks (r b)) : Lacks (decode r b) := by
  obtain ⟨needed, got, h⟩ := h
  rw [decode, StateT.run, h]
  exact ⟨needed, got, rfl⟩

/-- The read asks for more as long as any of these bytes is missing. -/
def Awaits (r : Reader α) (b : Bytes) : Prop := ∀ n, n < b.length → Lacks (r (b.take n))

theorem Awaits.decode_take (h : Awaits r b) {n : Nat} (hn : n < b.length) : Lacks (decode r (b.take n)) :=
  lacks_decode (h n hn)

theorem Awaits.first (h : Awaits r b) (k : α → Reader β) : Awaits (r >>= k) b := fun n hn => lacks_bind (h n hn) k

theorem Awaits.bind (ht : Takes r b a) (h : Awaits r b) (hk : Awaits (k a) d) : Awaits (r >>= k) (b ++ d) := by
  intro n hn
  by_cases hb : n < b.length
  · rw [List.take_append_of_le_length (Nat.le_of_lt hb)]
    exact lacks_bind (h n hb) k
  · rw [List.length_append] at hn
    rw [List.take_append, List.take_of_length_le (Nat.not_lt.mp hb), ht.apply]
    exact hk _ (by omega)

theorem awaits_ensure {n : Nat} (h : b.length = n) (k : Unit → Reader β) : Awaits (ensure n >>= k) b := by
  intro m hm
  refine lacks_ensure ?_ k
  rw [List.length_take]
  omega

theorem Awaits.guard {n : Nat} (h : b.length = n) (ht : Takes r b a) (hk : Awaits (k a) d) :
    Awaits (ensure n >>= fun _ => r >>= k) (b ++ d) := by
  intro m hm
  by_cases hb : m < b.length
  · refine lacks_ensure ?_ _
    rw [List.length_take]
    omega
  · rw [List.length_append] at hm
    rw [List.take_append, List.take_of_length_le (Nat.not_lt.mp hb), ensure_apply (by simp [h]), ht.apply]
    exact hk _ (by omega)

theorem awaits_command (c : Command) : Awaits (command c) [c.code] := awaits_ensure rfl _

theorem awaits_verdict (v : Verdict) : Awaits verdict [v.code] := awaits_ensure rfl _

theorem awaits_field {n : Nat} (o : Octets n) : Awaits (field n) o.toList := awaits_ensure o.length_toList _

/-- The decoder has its last word on these bytes, whatever comes behind them. -/
structure Decides (r : Reader α) (b : Bytes) : Prop where
  settles : ¬Lacks (decode r b)
  append : ∀ more, decode r (b ++ more) = decode r b

theorem not_lacks_ok (a : α) : ¬Lacks (.ok a : Except WireError α) := by
  rintro ⟨needed, got, h⟩
  cases h

theorem Takes.decides (h : Takes r b a) : Decides r b where
  settles := by
    rw [h.decode]
    exact not_lacks_ok a
  append more := by rw [h.decode_append, h.decode]

end Reader

end RealmLogon
