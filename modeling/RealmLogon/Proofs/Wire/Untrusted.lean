import RealmLogon.Proofs.Wire.Guards
import RealmLogon.Proofs.Wire.Room

/-! Realm lists that no server has written. Their count is not bound to their size, their texts end where the next zero
byte is, and several fields have spellings that a server never uses. What is read of them is no more than their bytes
pay for, and it is a list that a server could have sent. -/

namespace RealmLogon

open Reader LittleEndian

theorem Text.zeroFree_of_notMem {s : String} (h : (0 : UInt8) ∉ Bytes.ofString s) : ZeroFree s := by
  intro hc
  rw [ofString_eq] at h
  exact h (List.mem_flatMap.mpr ⟨'\x00', hc, by decide⟩)

/-- A text that is read is spelt by the bytes before the first zero byte. -/
theorem Reader.zeroTerminated_eq_ok {b rest : Bytes} {s : String} (h : zeroTerminated b = .ok (s, rest)) :
    Text.ZeroFree s ∧ b = Bytes.ofString s ++ 0 :: rest := by
  rcases exists_zero b with hb | ⟨front, rest', rfl, hf⟩
  · rw [zeroTerminated_of_all hb] at h
    cases h
  · rw [zeroTerminated_append_cons hf] at h
    cases ht : Bytes.toString? front with
    | none =>
      rw [ht] at h
      cases h
    | some t =>
      rw [ht] at h
      cases h
      have hs := Bytes.ofString_of_toString? ht
      refine ⟨Text.zeroFree_of_notMem fun h0 => ?_, by rw [hs]⟩
      rw [hs] at h0
      exact absurd (hf 0 h0) (by decide)

namespace RealmEntry

variable {e : Expansion} {r : RealmEntry} {b rest : Bytes}

/-- An entry as its layout can carry it: its texts have no zero byte, and where locks and builds are not sent, it has
none. -/
structure IsCarried (e : Expansion) (r : RealmEntry) : Prop where
  plain : r.IsPlain e
  bare : e ≠ .post → r.locked = false ∧ r.build = none

/-- The entry that comes back when it is written and read again. -/
def unnumbered (e : Expansion) (r : RealmEntry) : RealmEntry := if e = .post then r else { r with id := 0 }

theorem IsCarried.seen_eq (h : r.IsCarried e) : r.seen e = r.unnumbered e := by
  unfold seen unnumbered
  by_cases he : e = .post
  · rw [if_pos he, if_pos he]
  · obtain ⟨hl, hb⟩ := h.bare he
    rw [if_neg he, if_neg he, ← hl, ← hb]

theorem length_encodeKind (e : Expansion) (r : RealmEntry) : (r.encodeKind e).length = kindSize e := by
  unfold encodeKind kindSize
  split <;> rfl

theorem length_encodeVersion (e : Expansion) (r : RealmEntry) :
    (r.encodeVersion e).length = if hasBuild e r.flags then 5 else 0 := by
  unfold encodeVersion
  split
  · simp [encodeBuild]
  · rfl

theorem length_encode (e : Expansion) (r : RealmEntry) : (r.encode e).length =
    frontSize e + ((Bytes.ofString r.name).length + 1) + ((Bytes.ofString r.address).length + 1) +
      tailSize e r.flags := by
  simp only [encode_eq, List.length_append, List.length_singleton, length_encodeKind, length_word32,
    length_encodeVersion, frontSize, tailSize]
  omega

theorem length_encode_ge (e : Expansion) (r : RealmEntry) : 12 ≤ (r.encode e).length := by
  have hk : 2 ≤ kindSize e := by
    unfold kindSize
    split <;> decide
  rw [length_encode, frontSize, tailSize]
  omega

theorem locked_of_front {f : (UInt8 × Bool) × UInt8} (h : front e b = .ok (f, rest)) (he : e ≠ .post) :
    f.1.2 = false := by
  obtain ⟨kind, mid, hkind, h⟩ := bind_eq_ok h
  obtain ⟨_, _, -, h⟩ := bind_eq_ok h
  obtain ⟨flags, _, -, h⟩ := bind_eq_ok h
  cases h
  rw [readKind, if_neg he] at hkind
  obtain ⟨_, _, -, hkind⟩ := bind_eq_ok hkind
  obtain ⟨word, _, -, hkind⟩ := bind_eq_ok hkind
  cases hkind
  rfl

theorem texts_eq_ok {t : String × String} (h : texts b = .ok (t, rest)) :
    Text.ZeroFree t.1 ∧ Text.ZeroFree t.2 ∧
      b.length = ((Bytes.ofString t.1).length + 1) + ((Bytes.ofString t.2).length + 1) + rest.length := by
  obtain ⟨name, mid, hname, h⟩ := bind_eq_ok h
  obtain ⟨address, last, haddress, h⟩ := bind_eq_ok h
  cases h
  obtain ⟨hn, rfl⟩ := zeroTerminated_eq_ok hname
  obtain ⟨ha, rfl⟩ := zeroTerminated_eq_ok haddress
  refine ⟨hn, ha, ?_⟩
  simp only [List.length_append, List.length_cons]
  omega

theorem isSome_of_version {flags : UInt8} {v : Option BuildVersion} (h : version e flags b = .ok (v, rest)) :
    v.isSome = hasBuild e flags := by
  unfold version at h
  split at h
  · rename_i hb
    rw [map_eq_pure_bind] at h
    obtain ⟨build, _, -, h⟩ := bind_eq_ok h
    cases h
    exact hb.symm
  · rename_i hb
    cases h
    exact (Bool.eq_false_iff.mpr hb).symm

theorem tail_eq_ok {f : (UInt8 × Bool) × UInt8} {t : String × String} (h : tail e f t b = .ok (r, rest)) :
    r.locked = f.1.2 ∧ r.flags = f.2 ∧ r.name = t.1 ∧ r.address = t.2 ∧ r.build.isSome = hasBuild e f.2 := by
  obtain ⟨numbers, _, -, h⟩ := bind_eq_ok h
  obtain ⟨build, _, hbuild, h⟩ := bind_eq_ok h
  cases h
  exact ⟨rfl, rfl, rfl, rfl, isSome_of_version hbuild⟩

/-- The bytes of an entry may be none that a server writes, but there are as many as it would write. -/
theorem read_eq_ok (h : read e b = .ok (r, rest)) :
    r.IsCarried e ∧ b.length = (r.encode e).length + rest.length := by
  rw [read_eq] at h
  obtain ⟨f, u, hfront, h⟩ := bind_eq_ok h
  obtain ⟨t, v, htexts, htail⟩ := bind_eq_ok h
  obtain ⟨hname, haddress, hlength⟩ := texts_eq_ok htexts
  obtain ⟨hl, hf, hn, ha, hb⟩ := tail_eq_ok htail
  obtain ⟨hfrontLength, rfl⟩ := (fixed_front e).of_ok hfront
  obtain ⟨htailLength, rfl⟩ := (fixed_tail e f t).of_ok htail
  have hbuild : e = .post → r.build.isSome = (r.flags &&& RealmFlag.specifyBuild != 0) := by
    rintro rfl
    rw [hb, hf]
    rfl
  have hbare : e ≠ .post → r.locked = false ∧ r.build = none := by
    intro he
    refine ⟨hl.trans (locked_of_front hfront he), ?_⟩
    have hnone : hasBuild e f.2 = false := by simp [hasBuild, he]
    rw [hnone] at hb
    exact Option.isNone_iff_eq_none.mp (by simpa using hb)
  refine ⟨⟨⟨hn ▸ hname, ha ▸ haddress, hbuild⟩, hbare⟩, ?_⟩
  rw [List.length_drop] at hlength ⊢
  rw [length_encode, hf, hn, ha]
  omega

end RealmEntry

namespace RealmList

open RealmEntry

variable {e : Expansion} {n : Nat} {b : Bytes}

/-- The entries that are read before the loop ends, and how it ends: with a fault, or with the bytes that are left. -/
def loop (e : Expansion) : Nat → Bytes → List RealmEntry × Except WireError Bytes
  | 0, b => ([], .ok b)
  | n + 1, b =>
    match RealmEntry.read e b with
    | .error err => ([], .error err)
    | .ok (r, rest) => (r :: (loop e n rest).1, (loop e n rest).2)

theorem loop_of_error {err : WireError} (h : RealmEntry.read e b = .error err) :
    loop e (n + 1) b = ([], .error err) := by
  simp only [loop, h]

theorem loop_of_ok {r : RealmEntry} {rest : Bytes} (h : RealmEntry.read e b = .ok (r, rest)) :
    loop e (n + 1) b = (r :: (loop e n rest).1, (loop e n rest).2) := by
  simp only [loop, h]

theorem readEntries_eq (e : Expansion) (n : Nat) (b : Bytes) :
    readEntries e n b = (loop e n b).2.map fun rest => ((loop e n b).1, rest) := by
  induction n generalizing b with
  | zero => rfl
  | succ n ih =>
    rw [readEntries]
    cases h : RealmEntry.read e b with
    | error err =>
      rw [loop_of_error h, bind_apply, h]
      rfl
    | ok x =>
      obtain ⟨r, rest⟩ := x
      rw [loop_of_ok h, bind_of_ok h, bind_apply, ih]
      cases (loop e n rest).2 <;> rfl

theorem isCarried_of_loop : ∀ r ∈ (loop e n b).1, r.IsCarried e := by
  induction n generalizing b with
  | zero => exact fun r hr => absurd hr List.not_mem_nil
  | succ n ih =>
    cases h : RealmEntry.read e b with
    | error err =>
      rw [loop_of_error h]
      exact fun r hr => absurd hr List.not_mem_nil
    | ok x =>
      rw [loop_of_ok h]
      exact List.forall_mem_cons.mpr ⟨(read_eq_ok h).1, ih⟩

/-- The bytes pay for the entries, whether the loop comes to its end or not. -/
theorem length_loop_le : ((loop e n b).1.flatMap (·.encode e)).length ≤ b.length := by
  induction n generalizing b with
  | zero => exact Nat.zero_le _
  | succ n ih =>
    cases h : RealmEntry.read e b with
    | error err =>
      rw [loop_of_error h]
      exact Nat.zero_le _
    | ok x =>
      obtain ⟨r, rest⟩ := x
      have hr := (read_eq_ok h).2
      have hrest := ih (b := rest)
      rw [loop_of_ok h, List.flatMap_cons, List.length_append]
      omega

theorem loop_ok {rest : Bytes} (h : (loop e n b).2 = .ok rest) :
    (loop e n b).1.length = n ∧ b.length = ((loop e n b).1.flatMap (·.encode e)).length + rest.length := by
  induction n generalizing b with
  | zero =>
    cases h
    exact ⟨rfl, (Nat.zero_add _).symm⟩
  | succ n ih =>
    cases hr : RealmEntry.read e b with
    | error err =>
      rw [loop_of_error hr] at h
      cases h
    | ok x =>
      obtain ⟨r, mid⟩ := x
      rw [loop_of_ok hr] at h ⊢
      obtain ⟨hn, hb⟩ := ih h
      have hmid := (read_eq_ok hr).2
      rw [List.flatMap_cons, List.length_append, List.length_cons]
      exact ⟨congrArg Nat.succ hn, by omega⟩

theorem length_flatMap_ge (e : Expansion) (realms : List RealmEntry) :
    12 * realms.length ≤ (realms.flatMap (·.encode e)).length := by
  induction realms with
  | nil => exact Nat.le_refl 0
  | cons r rest ih =>
    have hr := r.length_encode_ge e
    rw [List.flatMap_cons, List.length_append, List.length_cons]
    omega

/-- The entries that are read of a body before the answer, and the answer. -/
def traceBody (e : Expansion) (body : Bytes) : List RealmEntry × Except WireError (List RealmEntry) :=
  match header e body with
  | .error err => ([], .error err)
  | .ok (n, rest) =>
    ((loop e n rest).1, (loop e n rest).2.bind fun left =>
      if left.length < 2 then .error (.packetTooSmall 2 left.length) else .ok (loop e n rest).1)

def trace (e : Expansion) (b : Bytes) : List RealmEntry × Except WireError (List RealmEntry) :=
  match Reader.decode envelope b with
  | .error err => ([], .error err)
  | .ok body => traceBody e body

theorem traceBody_of_header {rest : Bytes} (h : header e b = .ok (n, rest)) :
    traceBody e b = ((loop e n rest).1, (loop e n rest).2.bind fun left =>
      if left.length < 2 then .error (.packetTooSmall 2 left.length) else .ok (loop e n rest).1) := by
  rw [traceBody, h]

theorem trace_of_envelope {body : Bytes} (h : Reader.decode envelope b = .ok body) : trace e b = traceBody e body := by
  rw [trace, h]

theorem traceBody_snd (e : Expansion) (body : Bytes) : (traceBody e body).2 = Reader.decode (readBody e) body := by
  rw [Reader.decode, StateT.run, readBody_eq, bind_apply, traceBody]
  cases header e body with
  | error err => rfl
  | ok x =>
    obtain ⟨n, rest⟩ := x
    simp only [Except.bind, readRest, bind_apply, readEntries_eq]
    cases (loop e n rest).2 with
    | error err => rfl
    | ok left =>
      simp only [Except.map, ensure]
      split <;> rfl

theorem trace_snd (e : Expansion) (b : Bytes) : (trace e b).2 = decode b e := by
  rw [decode_eq, trace]
  cases Reader.decode envelope b with
  | error err => rfl
  | ok body => exact traceBody_snd e body

theorem envelope_of_short {c : Bytes} (h : c.length < 2) :
    Reader.decode envelope ([Command.realmList.code] ++ c) = .error (.packetTooSmall 2 c.length) := by
  rw [Reader.decode, StateT.run, envelope, (takes_command _).apply, ensure_apply_short h]
  rfl

theorem envelope_eq_ok {body : Bytes} (h : Reader.decode envelope b = .ok body) :
    body = bodyOf b ∧ body.length = declaredSize b := by
  by_cases hb : 3 ≤ b.length
  · obtain ⟨x, w, d, hw, rfl⟩ := exists_size hb
    rw [bodyOf_eq hw, declaredSize_eq hw]
    by_cases hx : x = Command.realmList.code
    · subst hx
      rw [envelope_of_size hw] at h
      split at h
      · cases h
      · cases h
        refine ⟨rfl, ?_⟩
        rw [List.length_take]
        omega
    · rw [envelope_of_ne hx] at h
      cases h
  · cases b with
    | nil => cases h
    | cons x c =>
      rw [List.length_cons] at hb
      rw [← List.singleton_append] at h
      by_cases hx : x = Command.realmList.code
      · rw [hx, envelope_of_short (by omega)] at h
        cases h
      · rw [envelope_of_ne hx] at h
        cases h

theorem envelope_take (b : Bytes) : Reader.decode envelope (b.take (3 + declaredSize b)) = Reader.decode envelope b := by
  by_cases hb : 3 ≤ b.length
  · obtain ⟨x, w, d, hw, rfl⟩ := exists_size hb
    have ht : ([x] ++ (w ++ d)).take (3 + declaredSize ([x] ++ (w ++ d))) = [x] ++ (w ++ d.take (value w)) := by
      rw [declaredSize_eq hw, ← List.append_assoc, ← List.append_assoc, List.take_append,
        List.take_of_length_le (by simp [hw])]
      simp [hw]
    rw [ht]
    by_cases hx : x = Command.realmList.code
    · rw [hx, envelope_of_size hw, envelope_of_size hw, List.length_take, List.take_take, Nat.min_self]
      by_cases hd : d.length < value w
      · rw [if_pos (by omega), if_pos hd, Nat.min_eq_right (by omega)]
      · rw [if_neg (by omega), if_neg hd]
    · rw [envelope_of_ne hx, envelope_of_ne hx]
  · rw [List.take_of_length_le (by omega)]

theorem trace_take (e : Expansion) (b : Bytes) : trace e (b.take (3 + declaredSize b)) = trace e b := by
  rw [trace, trace, envelope_take]

theorem traceBody_length (e : Expansion) (body : Bytes) : 12 * (traceBody e body).1.length ≤ body.length := by
  cases h : header e body with
  | error err =>
    rw [traceBody, h]
    exact Nat.zero_le _
  | ok x =>
    obtain ⟨n, rest⟩ := x
    obtain ⟨-, rfl⟩ := (fixed_header e).of_ok h
    have hpaid : ((loop e n (body.drop (headerSize e))).1.flatMap (·.encode e)).length ≤ _ := length_loop_le
    have hentries := length_flatMap_ge e (loop e n (body.drop (headerSize e))).1
    rw [List.length_drop] at hpaid
    rw [traceBody_of_header h]
    dsimp only
    omega

/-- However many entries a reply claims, those that are read are paid for by the size that it declares. -/
theorem trace_length (e : Expansion) (b : Bytes) : (trace e b).1.length ≤ declaredSize b / 12 := by
  cases h : Reader.decode envelope b with
  | error err =>
    rw [trace, h]
    exact Nat.zero_le _
  | ok body =>
    have hbody := traceBody_length e body
    rw [(envelope_eq_ok h).2] at hbody
    rw [trace_of_envelope h]
    omega

/-- What an accepted body says: it has the entries that it counts, and its size has room for them. -/
structure Accepts (e : Expansion) (body : Bytes) (realms : List RealmEntry) : Prop where
  read : (traceBody e body).1 = realms
  count : realms.length = value ((body.drop 4).take (countSize e))
  carried : ∀ r ∈ realms, r.IsCarried e
  room : emptyBody e + (realms.flatMap (·.encode e)).length ≤ body.length

theorem emptyBody_eq (e : Expansion) : emptyBody e = headerSize e + 2 := by
  unfold emptyBody headerSize countSize
  split <;> rfl

theorem header_eq_ok {rest : Bytes} (h : header e b = .ok (n, rest)) :
    headerSize e ≤ b.length ∧ rest = b.drop (headerSize e) ∧ n = value ((b.drop 4).take (countSize e)) := by
  obtain ⟨hb, hrest⟩ := (fixed_header e).of_ok h
  have hq : (b.take (headerSize e)).length = headerSize e := by
    rw [List.length_take]
    omega
  have ht := takes_header hq (b.drop (headerSize e))
  rw [List.take_append_drop, h, List.drop_take] at ht
  cases ht
  refine ⟨hb, rfl, ?_⟩
  rw [headerSize, Nat.add_sub_cancel_left]

theorem accepts_of_ok {realms : List RealmEntry} (h : Reader.decode (readBody e) b = .ok realms) :
    Accepts e b realms := by
  rw [← traceBody_snd] at h
  cases hheader : header e b with
  | error err =>
    rw [traceBody, hheader] at h
    cases h
  | ok x =>
    obtain ⟨n, rest⟩ := x
    obtain ⟨hb, rfl, hn⟩ := header_eq_ok hheader
    rw [traceBody_of_header hheader] at h
    cases hs : (loop e n (b.drop (headerSize e))).2 with
    | error err =>
      rw [hs] at h
      cases h
    | ok left =>
      simp only [hs, Except.bind] at h
      split at h
      · cases h
      · rename_i hleft
        cases h
        obtain ⟨hcount, hlength⟩ := loop_ok hs
        rw [List.length_drop] at hlength
        refine ⟨by rw [traceBody_of_header hheader], hcount.trans hn, isCarried_of_loop, ?_⟩
        rw [emptyBody_eq]
        omega

theorem sent_eq_of_room {realms : List RealmEntry}
    (h : emptyBody e + (realms.flatMap (·.encode e)).length ≤ maxBody) : sent e realms = realms := by
  have hfits : realms <+: sent e realms := isPrefix_fitting (List.prefix_refl realms) (by omega)
  exact (fitting_isPrefix e _ realms).eq_of_length_le hfits.length_le

theorem declaredSize_le (b : Bytes) : declaredSize b ≤ maxBody := by
  have hv := value_lt ((b.drop 1).take 2)
  have hl : ((b.drop 1).take 2).length ≤ 2 := by
    rw [List.length_take]
    exact Nat.min_le_left _ _
  have hp : Nat.pow 256 ((b.drop 1).take 2).length ≤ Nat.pow 256 2 := Nat.pow_le_pow_right (by decide) hl
  exact Nat.le_of_lt_succ (Nat.lt_of_lt_of_le hv hp)

theorem countField_eq {body : Bytes} (h : Reader.decode envelope b = .ok body) (hl : headerSize e ≤ body.length) :
    (body.drop 4).take (countSize e) = (b.drop 7).take (countSize e) := by
  obtain ⟨hbody, hsize⟩ := envelope_eq_ok h
  have hc : min (countSize e) (declaredSize b - 4) = countSize e := by
    rw [headerSize] at hl
    omega
  rw [hbody, bodyOf, List.drop_take, List.take_take, hc, List.drop_drop]

theorem encode_accepted {body : Bytes} {realms : List RealmEntry} (h : Accepts e body realms)
    (hb : body.length ≤ maxBody) : sent e realms = realms ∧
      decode (encode e realms) e = .ok (realms.map (·.unnumbered e)) := by
  have hsent : sent e realms = realms := sent_eq_of_room (Nat.le_trans h.room hb)
  have hseen : realms.map (·.seen e) = realms.map (·.unnumbered e) :=
    List.map_congr_left fun r hr => (h.carried r hr).seen_eq
  refine ⟨hsent, ?_⟩
  rw [decode_encode e fun r hr => (h.carried r hr).plain, hsent, hseen]

/-- Whatever the bytes are, no more entries are read of them than the declared size has room for, nothing behind that
size is looked at, and no read goes past the end. What is accepted has as many entries as it counts; they all find
room in the reply that sends them again, and are decoded from it as they are. -/
theorem any_bytes_decode_stably (e : Expansion) (b : Bytes) :
    (trace e b).2 = decode b e ∧
    (trace e b).1.length ≤ declaredSize b / 12 ∧
    trace e (b.take (3 + declaredSize b)) = trace e b ∧
    decode b e ≠ .error .overrun ∧
    ∀ realms, decode b e = .ok realms →
      (trace e b).1 = realms ∧
      realms.length = value ((b.drop 7).take (countSize e)) ∧
      sent e realms = realms ∧
      decode (encode e realms) e = .ok (realms.map (·.unnumbered e)) := by
  refine ⟨trace_snd e b, trace_length e b, trace_take e b, (covered_read e).decode_ne b, fun realms hok => ?_⟩
  rw [decode_eq] at hok
  cases h : Reader.decode envelope b with
  | error err =>
    rw [h] at hok
    cases hok
  | ok body =>
    rw [h] at hok
    have ha : Accepts e body realms := accepts_of_ok hok
    have hroom := ha.room
    rw [emptyBody_eq] at hroom
    refine ⟨?_, ?_, encode_accepted ha ?_⟩
    · rw [trace_of_envelope h]
      exact ha.read
    · rw [← countField_eq h (by omega)]
      exact ha.count
    · rw [(envelope_eq_ok h).2]
      exact declaredSize_le b

namespace Sample

/-- A reply with a lock that is neither of the two that are sent, a longer footer, and a byte behind its end. -/
def oddReply : Bytes :=
  [0x10, 23, 0, 9, 9, 9, 9, 1, 0, 1, 7, 0, 65, 0, 66, 0, 0, 0, 0, 63, 2, 1, 5, 1, 2, 3, 99]

def oddRealm : RealmEntry := ⟨1, true, 0, "A", "B", ⟨0x3F000000⟩, 2, 1, 5, none⟩

theorem oddReply_decodes_stably : decode oddReply .post = .ok [oddRealm] ∧
    [oddRealm].length = value ((oddReply.drop 7).take (countSize .post)) ∧
    decode (encode .post [oddRealm]) .post = .ok [oddRealm] := by
  have hok : decode oddReply .post = .ok [oddRealm] := rfl
  obtain ⟨-, -, -, -, h⟩ := any_bytes_decode_stably .post oddReply
  obtain ⟨-, hcount, -, hagain⟩ := h [oddRealm] hok
  exact ⟨hok, hcount, hagain⟩

end Sample

end RealmList

end RealmLogon
