import RealmLogon.Proofs.Wire.Capacity
import RealmLogon.Proofs.Wire.Settling

/-! The layout of a realm list, as its decoder reads it. Every field has a size of its own, which the decoder asks for,
except the two texts of an entry. -/

namespace RealmLogon

open LittleEndian

/-- The faults that a body can have: it is too short, or one of its texts is malformed. -/
def WireError.IsOfBody : WireError → Prop
  | .packetTooSmall _ _ | .malformedString => True
  | _ => False

namespace Reader

variable {α β : Type} {r : Reader α} {k : α → Reader β} {b : Bytes} {m n : Nat}

/-- Any bytes of this number are a message, and the read asks for them. -/
structure Fixed (n : Nat) (r : Reader α) : Prop where
  takes : Sized n r
  lacks : ∀ b : Bytes, b.length < n → Lacks (r b)

theorem fixed_pure (a : α) : Fixed 0 (pure a : Reader α) := ⟨sized_pure a, fun _ h => absurd h (Nat.not_lt_zero _)⟩

theorem Sized.guard {r : Unit → Reader α} (h : Sized n (r ())) : Fixed n (ensure n >>= r) where
  takes := by
    intro b hb
    obtain ⟨a, ha⟩ := h b hb
    exact ⟨a, ha.ensure (Nat.le_of_eq hb.symm)⟩
  lacks _ hb := lacks_ensure hb r

theorem Fixed.bind (h : Fixed m r) (hk : ∀ a, Fixed n (k a)) : Fixed (m + n) (r >>= k) where
  takes := h.takes.bind fun a => (hk a).takes
  lacks := by
    intro b hb
    by_cases hm : b.length < m
    · exact lacks_bind (h.lacks b hm) k
    · obtain ⟨a, ha⟩ := h.takes.apply (Nat.not_lt.mp hm)
      rw [bind_of_ok ha]
      exact (hk a).lacks _ (by rw [List.length_drop]; omega)

/-- The faults of the read are some that a body can have. -/
def FaultsOfBody (r : Reader α) : Prop := ∀ b e, r b = .error e → e.IsOfBody

theorem FaultsOfBody.bind (h : FaultsOfBody r) (hk : ∀ a, FaultsOfBody (k a)) : FaultsOfBody (r >>= k) := by
  intro b e he
  rcases bind_eq_error he with hr | ⟨a, rest, -, hke⟩
  · exact h b e hr
  · exact hk a rest e hke

theorem Fixed.of_ok {rest : Bytes} {a : α} (h : Fixed n r) (hr : r b = .ok (a, rest)) :
    n ≤ b.length ∧ rest = b.drop n := by
  by_cases hb : b.length < n
  · obtain ⟨needed, got, hl⟩ := h.lacks b hb
    rw [hl] at hr
    cases hr
  · obtain ⟨c, hc⟩ := h.takes.apply (Nat.not_lt.mp hb)
    rw [hc] at hr
    cases hr
    exact ⟨Nat.not_lt.mp hb, rfl⟩

theorem Fixed.faultsOfBody (h : Fixed n r) : FaultsOfBody r := by
  intro b e he
  by_cases hb : b.length < n
  · obtain ⟨needed, got, hl⟩ := h.lacks b hb
    rw [hl] at he
    cases he
    trivial
  · obtain ⟨a, ha⟩ := h.takes.apply (Nat.not_lt.mp hb)
    rw [ha] at he
    cases he

theorem faultsOfBody_zeroTerminated : FaultsOfBody zeroTerminated := by
  intro b e he
  rw [zeroTerminated] at he
  split at he
  · cases he
    trivial
  · split at he
    · cases he
    · cases he
      trivial

theorem zeroTerminated_of_all (h : ∀ x ∈ b, (x != 0) = true) : zeroTerminated b = .error .malformedString := by
  have hd : b.dropWhile (· != 0) = [] := by
    rw [← List.append_nil b, List.dropWhile_append_of_pos h]
    rfl
  rw [zeroTerminated, hd]

theorem exists_zero (b : Bytes) :
    (∀ x ∈ b, (x != 0) = true) ∨ ∃ front rest, b = front ++ 0 :: rest ∧ ∀ x ∈ front, (x != 0) = true := by
  induction b with
  | nil => exact .inl fun x hx => absurd hx List.not_mem_nil
  | cons y b ih =>
    by_cases hy : y = 0
    · exact .inr ⟨[], b, by rw [hy]; rfl, fun x hx => absurd hx List.not_mem_nil⟩
    · have hy' : (y != 0) = true := bne_iff_ne.mpr hy
      rcases ih with hb | ⟨front, rest, rfl, hf⟩
      · exact .inl (List.forall_mem_cons.mpr ⟨hy', hb⟩)
      · exact .inr ⟨y :: front, rest, rfl, List.forall_mem_cons.mpr ⟨hy', hf⟩⟩

theorem zeroTerminated_append {s : String} {rest : Bytes} (h : zeroTerminated b = .ok (s, rest)) (more : Bytes) :
    zeroTerminated (b ++ more) = .ok (s, rest ++ more) := by
  rcases exists_zero b with hb | ⟨front, rest', rfl, hf⟩
  · rw [zeroTerminated_of_all hb] at h
    cases h
  · rw [zeroTerminated_append_cons hf] at h
    rw [List.append_assoc, List.cons_append, zeroTerminated_append_cons hf]
    cases ht : Bytes.toString? front with
    | none =>
      rw [ht] at h
      cases h
    | some t =>
      rw [ht] at h
      cases h
      rfl

/-- What is wrong with a text is not mended by bytes that do not end it. -/
theorem zeroTerminated_append_replicate {e : WireError} (h : zeroTerminated b = .error e) (m : Nat) :
    zeroTerminated (b ++ List.replicate m 1) = .error .malformedString := by
  rcases exists_zero b with hb | ⟨front, rest, rfl, hf⟩
  · refine zeroTerminated_of_all fun x hx => ?_
    rcases List.mem_append.mp hx with hx | hx
    · exact hb x hx
    · rw [List.eq_of_mem_replicate hx]
      rfl
  · rw [zeroTerminated_append_cons hf] at h
    rw [List.append_assoc, List.cons_append, zeroTerminated_append_cons hf]
    cases ht : Bytes.toString? front with
    | none => rfl
    | some t =>
      rw [ht] at h
      cases h

end Reader

namespace RealmEntry

open Reader

/-- The fields of an entry before its texts. -/
def front (e : Expansion) : Reader ((UInt8 × Bool) × UInt8) := do
  let kind ← readKind e
  ensure 1
  return (kind, ← byte)

def texts : Reader (String × String) := do
  let name ← zeroTerminated
  return (name, ← zeroTerminated)

def numbers : Reader (UInt32 × UInt8 × UInt8 × UInt8) := do
  ensure 7
  let population ← word32
  let characters ← byte
  let timezone ← byte
  return (population, characters, timezone, ← byte)

def version (e : Expansion) (flags : UInt8) : Reader (Option BuildVersion) :=
  if hasBuild e flags then some <$> readBuild else pure none

/-- The fields behind the texts. -/
def tail (e : Expansion) (f : (UInt8 × Bool) × UInt8) (t : String × String) : Reader RealmEntry := do
  let (population, characters, timezone, id) ← numbers
  return ⟨f.1.1, f.1.2, f.2, t.1, t.2, ⟨population⟩, characters, timezone, id, ← version e f.2⟩

theorem read_eq (e : Expansion) : read e = front e >>= fun f => texts >>= tail e f := by
  simp only [read, front, texts, tail, numbers, version, bind_assoc, pure_bind]
  iterate 10 refine bind_congr fun _ => ?_
  split <;> rfl

def kindSize (e : Expansion) : Nat := if e = .post then 2 else 4

def frontSize (e : Expansion) : Nat := kindSize e + 1

def tailSize (e : Expansion) (flags : UInt8) : Nat := 7 + if hasBuild e flags then 5 else 0

theorem fixed_front (e : Expansion) : Fixed (frontSize e) (front e) := by
  refine Fixed.bind (m := kindSize e) (n := 1) ?_ fun kind => ?_
  · unfold readKind kindSize
    split
    · exact Sized.guard (sized_byte.bind fun _ => sized_byte.bind fun _ => sized_pure _)
    · exact Sized.guard (sized_word32.bind fun _ => sized_pure _)
  · exact Sized.guard (sized_byte.bind fun _ => sized_pure _)

theorem fixed_numbers : Fixed 7 numbers := by
  refine Sized.guard (sized_word32.bind (n := 3) fun _ => ?_)
  exact sized_byte.bind (n := 2) fun _ => sized_byte.bind (n := 1) fun _ => sized_byte.bind fun _ => sized_pure _

theorem fixed_build : Fixed 5 readBuild := by
  refine Sized.guard (sized_byte.bind (n := 4) fun _ => sized_byte.bind (n := 3) fun _ => ?_)
  exact sized_byte.bind (n := 2) fun _ => sized_word16.bind fun _ => sized_pure _

theorem fixed_version (e : Expansion) (flags : UInt8) :
    Fixed (if hasBuild e flags then 5 else 0) (version e flags) := by
  unfold version
  by_cases h : hasBuild e flags
  · rw [if_pos h, if_pos h, map_eq_pure_bind]
    exact fixed_build.bind fun _ => fixed_pure _
  · rw [if_neg h, if_neg h]
    exact fixed_pure none

theorem fixed_tail (e : Expansion) (f : (UInt8 × Bool) × UInt8) (t : String × String) :
    Fixed (tailSize e f.2) (tail e f t) :=
  fixed_numbers.bind fun _ => (fixed_version e f.2).bind fun _ => fixed_pure _

variable {b u : Bytes}

theorem texts_append {t : String × String} (h : texts b = .ok (t, u)) (more : Bytes) :
    texts (b ++ more) = .ok (t, u ++ more) := by
  unfold texts at h ⊢
  obtain ⟨name, mid, hn, h⟩ := bind_eq_ok h
  obtain ⟨address, rest, ha, h⟩ := bind_eq_ok h
  rw [bind_of_ok (zeroTerminated_append hn more), bind_of_ok (zeroTerminated_append ha more)]
  cases h
  rfl

theorem texts_append_replicate {e : WireError} (h : texts b = .error e) (m : Nat) :
    texts (b ++ List.replicate m 1) = .error .malformedString := by
  unfold texts at h ⊢
  rcases bind_eq_error h with hn | ⟨name, mid, hn, h⟩
  · rw [bind_apply, zeroTerminated_append_replicate hn]
    rfl
  · rw [bind_of_ok (zeroTerminated_append hn _)]
    rcases bind_eq_error h with ha | ⟨address, rest, -, h⟩
    · rw [bind_apply, zeroTerminated_append_replicate ha]
      rfl
    · cases h

end RealmEntry

namespace RealmList

open Reader RealmEntry

variable {e : Expansion} {b w d : Bytes}

def readRest (e : Expansion) (n : Nat) : Reader (List RealmEntry) := do
  let realms ← readEntries e n
  ensure 2
  return realms

theorem readRest_zero (e : Expansion) : readRest e 0 = ensure 2 >>= fun _ => pure [] := by
  simp only [readRest, readEntries, pure_bind]

theorem readRest_succ (e : Expansion) (n : Nat) : readRest e (n + 1) = front e >>= fun f => texts >>= fun t =>
    tail e f t >>= fun r => readRest e n >>= fun realms => pure (r :: realms) := by
  simp only [readRest, readEntries, read_eq, bind_assoc, pure_bind]

def header (e : Expansion) : Reader Nat := (do ensure 4; skip 4) >>= fun _ => readCount e

def headerSize (e : Expansion) : Nat := 4 + countSize e

theorem readBody_eq (e : Expansion) : readBody e = header e >>= readRest e := by
  simp only [readBody, header, bind_assoc]
  rfl

theorem takes_count (h : b.length = countSize e) : Takes (readCount e) b (value b) := by
  have ht := takes_readCount (e := e) (h ▸ value_lt b)
  rwa [← h, digits_value] at ht

theorem fixed_count (e : Expansion) : Fixed (countSize e) (readCount e) where
  takes b hb := ⟨value b, takes_count hb⟩
  lacks b hb := by
    unfold readCount
    unfold countSize at hb
    by_cases he : e = .post
    · rw [if_pos he] at hb ⊢
      exact lacks_ensure hb _
    · rw [if_neg he] at hb ⊢
      exact lacks_ensure hb _

theorem fixed_skip (n : Nat) : Fixed n (do ensure n; skip n) := Sized.guard (sized_skip n)

theorem fixed_header (e : Expansion) : Fixed (headerSize e) (header e) :=
  (fixed_skip 4).bind fun _ => fixed_count e

theorem takes_header (h : b.length = headerSize e) : Takes (header e) b (value (b.drop 4)) := by
  have hs : (b.take 4).length = 4 := by
    rw [List.length_take, h, headerSize]
    omega
  have hc : (b.drop 4).length = countSize e := by
    rw [List.length_drop, h, headerSize]
    omega
  obtain ⟨u, hu⟩ := (fixed_skip 4).takes (b.take 4) hs
  have ht := hu.bind (k := fun _ => readCount e) (takes_count hc)
  rwa [List.take_append_drop] at ht

theorem faultsOfBody_readBody (e : Expansion) : FaultsOfBody (readBody e) := by
  have htexts : FaultsOfBody texts :=
    faultsOfBody_zeroTerminated.bind fun _ => faultsOfBody_zeroTerminated.bind fun _ => (fixed_pure _).faultsOfBody
  have hrest : ∀ n, FaultsOfBody (readRest e n) := by
    intro n
    induction n with
    | zero =>
      rw [readRest_zero]
      refine FaultsOfBody.bind (fun b err he => ?_) fun _ => (fixed_pure _).faultsOfBody
      rw [ensure] at he
      split at he
      · cases he
        trivial
      · cases he
    | succ n ih =>
      rw [readRest_succ]
      refine (fixed_front e).faultsOfBody.bind fun f => htexts.bind fun t => ?_
      exact (fixed_tail e f t).faultsOfBody.bind fun r => ih.bind fun _ => (fixed_pure _).faultsOfBody
  rw [readBody_eq]
  exact (fixed_header e).faultsOfBody.bind hrest

def envelope : Reader Bytes := do
  command .realmList
  ensure 2
  let size := (← word16).toNat
  return (← field size).toList

/-- A reader that reads nothing and gives what was decoded elsewhere. -/
def decoded : Except WireError (List RealmEntry) → Reader (List RealmEntry)
  | .ok realms => pure realms
  | .error err => fail err

theorem decoded_apply (r : Except WireError (List RealmEntry)) (b : Bytes) : decoded r b = r.map (·, b) := by
  cases r <;> rfl

theorem read_eq (e : Expansion) : read e = envelope >>= fun body => decoded (Reader.decode (readBody e) body) := by
  simp only [envelope, bind_assoc, pure_bind]
  rfl

theorem decode_eq (b : Bytes) (e : Expansion) :
    decode b e = (Reader.decode envelope b).bind (Reader.decode (readBody e)) := by
  rw [decode, Reader.decode, StateT.run, read_eq, bind_apply, Reader.decode, StateT.run]
  cases envelope b with
  | error err => rfl
  | ok x =>
    simp only [Except.bind, Except.map, decoded_apply]
    cases Reader.decode (readBody e) x.1 <;> rfl

theorem envelope_of_size (hw : w.length = 2) (d : Bytes) :
    Reader.decode envelope ([Command.realmList.code] ++ (w ++ d)) =
      if d.length < value w then .error (.packetTooSmall (value w) d.length) else .ok (d.take (value w)) := by
  have hv := value_lt w
  rw [hw] at hv
  have hn : (toWord16 w).toNat = value w := by
    rw [toWord16, UInt16.toNat_ofNat']
    exact Nat.mod_eq_of_lt hv
  have ht := takes_word16 (toWord16 w)
  rw [word16_toWord16 hw] at ht
  have hl : 2 ≤ (w ++ d).length := by
    rw [List.length_append]
    omega
  have hfield : envelope ([Command.realmList.code] ++ (w ++ d)) =
      (field (value w) >>= fun o => pure o.toList) d := by
    rw [envelope, (takes_command _).apply, ensure_apply hl, ht.apply]
    exact hn ▸ rfl
  rw [Reader.decode, StateT.run, hfield]
  by_cases hd : d.length < value w
  · rw [if_pos hd, field, bind_assoc, ensure_apply_short hd]
    rfl
  · have hlength : (d.take (value w)).length = value w := by
      rw [List.length_take]
      omega
    have hr := takes_field ⟨d.take (value w), hlength⟩ (d.drop (value w))
    rw [List.take_append_drop] at hr
    rw [if_neg hd, bind_of_ok hr]
    rfl

theorem lacks_of_size (hw : w.length = 2) (hd : d.length < value w) :
    Lacks (decode ([Command.realmList.code] ++ (w ++ d)) e) := by
  rw [decode_eq, envelope_of_size hw, if_pos hd]
  exact ⟨_, _, rfl⟩

theorem decode_of_size (hw : w.length = 2) (hd : value w ≤ d.length) :
    decode ([Command.realmList.code] ++ (w ++ d)) e = Reader.decode (readBody e) (d.take (value w)) := by
  rw [decode_eq, envelope_of_size hw, if_neg (Nat.not_lt.mpr hd)]
  rfl

/-- The command of a list that a server sends is not at fault, whatever layout the client expects. -/
theorem decode_encode_ne (e e' : Expansion) (realms : List RealmEntry) (expected actual : UInt8) :
    decode (encode e realms) e' ≠ .error (.unexpectedOpcode expected actual) := by
  intro h
  have hv : value (LittleEndian.word16 (declared e realms)) ≤ (encodeBody e realms).length := by
    rw [LittleEndian.word16, value_digits, ← toNat_declared]
    exact Nat.mod_le _ _
  rw [encode_eq, decode_of_size (length_word16 _) hv] at h
  exact faultsOfBody_readBody e' _ _ (decode_eq_error h)

theorem envelope_of_ne {x : UInt8} (hx : x ≠ Command.realmList.code) (d : Bytes) :
    Reader.decode envelope ([x] ++ d) = .error (.unexpectedOpcode Command.realmList.code x) := by
  have hc : command .realmList ([x] ++ d) = .error (.unexpectedOpcode Command.realmList.code x) := by
    rw [command, ensure_apply (by simp), (takes_byte x).apply, if_neg hx]
    rfl
  rw [Reader.decode, StateT.run, envelope, bind_apply, hc]
  rfl

theorem decode_of_ne {x : UInt8} (hx : x ≠ Command.realmList.code) (d : Bytes) :
    decode ([x] ++ d) e = .error (.unexpectedOpcode Command.realmList.code x) := by
  rw [decode_eq, envelope_of_ne hx]
  rfl

theorem exists_size (hb : 3 ≤ b.length) : ∃ x w d, w.length = 2 ∧ b = [x] ++ (w ++ d) := by
  obtain ⟨x, c, rfl⟩ := List.exists_cons_of_length_pos (Nat.lt_of_lt_of_le (by decide) hb)
  rw [List.length_cons] at hb
  refine ⟨x, c.take 2, c.drop 2, ?_, ?_⟩
  · rw [List.length_take]
    omega
  · rw [List.take_append_drop]
    rfl

end RealmList

end RealmLogon
