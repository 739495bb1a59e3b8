import RealmLogon.Proofs.Wire.Layout

/-! A realm list that can still be completed. Its size is declared before its entries, so a body may end before they do:
its decoder then asks for bytes that have no place in it. -/

namespace RealmLogon.RealmList

open LittleEndian Reader RealmEntry

/-- The fewest bytes that have to follow before `n` entries are there, or one of them is malformed. -/
def missing (e : Expansion) : Nat → Bytes → Nat
  | 0, b => 2 - b.length
  | n + 1, b =>
    match front e b with
    | .error _ => frontSize e - b.length
    | .ok (f, b) =>
      match texts b with
      | .error _ => 0
      | .ok (_, b) => (tailSize e f.2 - b.length) + missing e n (b.drop (tailSize e f.2))

section Missing

variable {e : Expansion} {n m : Nat} {b c u more : Bytes} {f : (UInt8 × Bool) × UInt8} {t : String × String}

theorem missing_of_short (h : b.length < frontSize e) : missing e (n + 1) b = frontSize e - b.length := by
  obtain ⟨needed, got, hl⟩ := (fixed_front e).lacks b h
  simp only [missing, hl]

theorem missing_of_malformed {err : WireError} (hf : front e b = .ok (f, c)) (ht : texts c = .error err) :
    missing e (n + 1) b = 0 := by
  simp only [missing, hf, ht]

theorem missing_of_texts (hf : front e b = .ok (f, c)) (ht : texts c = .ok (t, u)) :
    missing e (n + 1) b = (tailSize e f.2 - u.length) + missing e n (u.drop (tailSize e f.2)) := by
  simp only [missing, hf, ht]

theorem lacks_readRest (h : more.length < missing e n b) : Lacks (readRest e n (b ++ more)) := by
  induction n generalizing b more with
  | zero =>
    rw [missing] at h
    rw [readRest_zero]
    refine lacks_ensure ?_ _
    rw [List.length_append]
    omega
  | succ n ih =>
    rw [readRest_succ]
    by_cases hb : b.length < frontSize e
    · rw [missing_of_short hb] at h
      refine lacks_bind ((fixed_front e).lacks _ ?_) _
      rw [List.length_append]
      omega
    · obtain ⟨f, hf⟩ := (fixed_front e).takes.append (Nat.not_lt.mp hb)
      have hfront := hf []
      rw [List.append_nil, List.append_nil] at hfront
      rw [bind_of_ok (hf _)]
      cases ht : texts (b.drop (frontSize e)) with
      | error err =>
        rw [missing_of_malformed hfront ht] at h
        exact absurd h (Nat.not_lt_zero _)
      | ok x =>
        obtain ⟨t, u⟩ := x
        rw [missing_of_texts hfront ht] at h
        rw [bind_of_ok (texts_append ht more)]
        by_cases hu : (u ++ more).length < tailSize e f.2
        · exact lacks_bind ((fixed_tail e f t).lacks _ hu) _
        · obtain ⟨r, hr⟩ := (fixed_tail e f t).takes.apply (Nat.not_lt.mp hu)
          rw [bind_of_ok hr, List.drop_append]
          refine lacks_bind (ih ?_) _
          rw [List.length_append] at hu
          rw [List.length_drop]
          omega

/-- So many bytes are enough, if they put no end to a text. -/
theorem settled_readRest (h : missing e n b ≤ m) : Settled (readRest e n (b ++ List.replicate m 1)) := by
  induction n generalizing b m with
  | zero =>
    rw [missing] at h
    have hl : 2 ≤ (b ++ List.replicate m 1).length := by
      rw [List.length_append, List.length_replicate]
      omega
    rw [readRest_zero, ensure_apply hl]
    exact settled_ok _
  | succ n ih =>
    rw [readRest_succ]
    by_cases hb : b.length < frontSize e
    · rw [missing_of_short hb] at h
      have hl : frontSize e ≤ (b ++ List.replicate m 1).length := by
        rw [List.length_append, List.length_replicate]
        omega
      obtain ⟨f, hf⟩ := (fixed_front e).takes.apply hl
      have hdrop : b.drop (frontSize e) = [] := List.drop_eq_nil_of_le (Nat.le_of_lt hb)
      rw [bind_of_ok hf, List.drop_append, hdrop, List.drop_replicate, bind_apply, texts_append_replicate rfl]
      -- The texts of the entry have not begun, and bytes that are all one never end them.
      exact settled_error trivial
    · obtain ⟨f, hf⟩ := (fixed_front e).takes.append (Nat.not_lt.mp hb)
      have hfront := hf []
      rw [List.append_nil, List.append_nil] at hfront
      rw [bind_of_ok (hf _)]
      cases ht : texts (b.drop (frontSize e)) with
      | error err =>
        rw [bind_apply, texts_append_replicate ht]
        exact settled_error trivial
      | ok x =>
        obtain ⟨t, u⟩ := x
        rw [missing_of_texts hfront ht] at h
        rw [bind_of_ok (texts_append ht _)]
        have hu : tailSize e f.2 ≤ (u ++ List.replicate m 1).length := by
          rw [List.length_append, List.length_replicate]
          omega
        obtain ⟨r, hr⟩ := (fixed_tail e f t).takes.apply hu
        rw [bind_of_ok hr, List.drop_append, List.drop_replicate]
        exact settled_bind (ih (by omega)) fun _ _ _ => settled_ok _

end Missing

/-- The fewest bytes that have to follow before a body does not ask for more. A count of which bytes are missing may
turn out to be the number that is known of it. -/
def missingBody (e : Expansion) (b : Bytes) : Nat :=
  (headerSize e - b.length) + missing e (value ((b.drop 4).take (countSize e))) (b.drop (headerSize e))

section Body

variable {e : Expansion} {n m : Nat} {b w d more : Bytes}

theorem missing_nil_succ (e : Expansion) (n : Nat) : missing e (n + 1) [] = frontSize e :=
  missing_of_short (Nat.succ_pos _)

/-- An entry more does not make up for anything. -/
theorem missing_nil_le (h : n ≤ m) : missing e n [] ≤ missing e m [] := by
  have hf : 2 ≤ frontSize e := by
    unfold frontSize kindSize
    split <;> omega
  cases m with
  | zero => exact Nat.le_of_eq (by rw [Nat.le_zero.mp h])
  | succ m =>
    rw [missing_nil_succ]
    cases n with
    | zero => exact hf
    | succ n => exact Nat.le_of_eq (missing_nil_succ e n)

theorem value_append_replicate (b : Bytes) (n : Nat) : value (b ++ List.replicate n 0) = value b := by
  induction b with
  | nil =>
    induction n with
    | zero => rfl
    | succ n ih =>
      simp only [List.nil_append, List.replicate_succ, value] at ih ⊢
      rw [ih]
      rfl
  | cons x b ih => rw [List.cons_append, value, ih, value]

theorem value_le_append (b more : Bytes) : value b ≤ value (b ++ more) := by
  induction b with
  | nil => exact Nat.zero_le _
  | cons x b ih =>
    rw [List.cons_append, value, value]
    omega

/-- The bytes of the count, of which some may have come before and some behind. -/
theorem drop_take_header (e : Expansion) (b more : Bytes) : ((b ++ more).take (headerSize e)).drop 4 =
    (b.drop 4).take (countSize e) ++ (more.drop (4 - b.length)).take (countSize e - (b.drop 4).length) := by
  have hh : headerSize e - 4 = countSize e := by
    unfold headerSize
    omega
  rw [List.drop_take, hh, List.drop_append, List.take_append]

theorem lacks_readBody (h : more.length < missingBody e b) : Lacks (readBody e (b ++ more)) := by
  rw [readBody_eq]
  by_cases hl : (b ++ more).length < headerSize e
  · exact lacks_bind ((fixed_header e).lacks _ hl) _
  · have hq : ((b ++ more).take (headerSize e)).length = headerSize e := by
      rw [List.length_take]
      omega
    rw [← List.take_append_drop (headerSize e) (b ++ more), (takes_header hq).apply, List.drop_append,
      drop_take_header]
    rw [missingBody] at h
    by_cases hb : headerSize e ≤ b.length
    · have hc : countSize e - (b.drop 4).length = 0 := by
        rw [List.length_drop]
        unfold headerSize at hb
        omega
      rw [hc, List.take_zero, List.append_nil]
      refine lacks_readRest ?_
      rw [List.length_drop]
      omega
    · have hdrop : b.drop (headerSize e) = [] := List.drop_eq_nil_of_le (by omega)
      rw [hdrop] at h ⊢
      refine lacks_readRest (Nat.lt_of_lt_of_le ?_ (missing_nil_le (value_le_append _ _)))
      rw [List.length_append] at hl
      rw [List.length_drop]
      omega

theorem settled_readBody_of_header (hb : headerSize e ≤ b.length) (h : missingBody e b ≤ m) :
    Settled (readBody e (b ++ List.replicate m 1)) := by
  have hq : (b.take (headerSize e)).length = headerSize e := by
    rw [List.length_take]
    omega
  have hcount : (b.take (headerSize e)).drop 4 = (b.drop 4).take (countSize e) := by
    have hd := drop_take_header e b []
    rwa [List.append_nil, List.drop_nil, List.take_nil, List.append_nil] at hd
  rw [missingBody] at h
  rw [readBody_eq, ← List.take_append_drop (headerSize e) b, List.append_assoc, (takes_header hq).apply, hcount]
  exact settled_readRest (by omega)

theorem settled_readBody (h : missingBody e b ≤ m) : ∃ more, more.length = m ∧ Settled (readBody e (b ++ more)) := by
  let zeros : Bytes := List.replicate (headerSize e - b.length) 0
  have hlength : (b ++ zeros).length = b.length + (headerSize e - b.length) := by
    rw [List.length_append, List.length_replicate]
  have hdrop : (b ++ zeros).drop (headerSize e) = b.drop (headerSize e) := by
    rw [List.drop_append, List.drop_replicate, Nat.sub_self, List.replicate_zero, List.append_nil]
  have hcount : value (((b ++ zeros).drop 4).take (countSize e)) = value ((b.drop 4).take (countSize e)) := by
    rw [List.drop_append, List.drop_replicate, List.take_append, List.take_replicate, value_append_replicate]
  rw [missingBody] at h
  have hm : missingBody e (b ++ zeros) ≤ m - (headerSize e - b.length) := by
    rw [missingBody, hdrop, hcount]
    omega
  refine ⟨zeros ++ List.replicate (m - (headerSize e - b.length)) 1, ?_, ?_⟩
  · rw [List.length_append, List.length_replicate, List.length_replicate]
    omega
  · rw [← List.append_assoc]
    exact settled_readBody_of_header (by omega) hm

end Body

section Reply

variable {e : Expansion} {b w d more : Bytes}

/-- The size that a reply declares, once its first three bytes have come. -/
def declaredSize (b : Bytes) : Nat := value ((b.drop 1).take 2)

def bodyOf (b : Bytes) : Bytes := (b.drop 3).take (declaredSize b)

/-- The size that a reply declares is not known yet, or it leaves enough bytes for what is missing. -/
def HasRoom (e : Expansion) (b : Bytes) : Prop :=
  b.length < 3 ∨ (bodyOf b).length + missingBody e (bodyOf b) ≤ declaredSize b

instance (e : Expansion) (b : Bytes) : Decidable (HasRoom e b) := inferInstanceAs (Decidable (_ ∨ _))

theorem declaredSize_eq (hw : w.length = 2) (x : UInt8) (d : Bytes) : declaredSize ([x] ++ (w ++ d)) = value w := by
  change value ((w ++ d).take 2) = value w
  rw [List.take_left' hw]

theorem bodyOf_eq (hw : w.length = 2) (x : UInt8) (d : Bytes) : bodyOf ([x] ++ (w ++ d)) = d.take (value w) := by
  rw [bodyOf, declaredSize_eq hw]
  change ((w ++ d).drop 2).take _ = _
  rw [List.drop_left' hw]

theorem decode_append_of_body (hb : 3 + declaredSize b ≤ b.length) (e : Expansion) (more : Bytes) :
    decode (b ++ more) e = decode b e := by
  obtain ⟨x, w, d, hw, rfl⟩ := exists_size (Nat.le_trans (Nat.le_add_right 3 _) hb)
  rw [List.append_assoc, List.append_assoc]
  by_cases hx : x = Command.realmList.code
  · rw [declaredSize_eq hw, List.length_append, List.length_append, List.length_singleton, hw] at hb
    have hd : value w ≤ d.length := by omega
    have hm : value w ≤ (d ++ more).length := by
      rw [List.length_append]
      omega
    rw [hx, decode_of_size hw hm, decode_of_size hw hd, List.take_append_of_le_length hd]
  · rw [decode_of_ne hx, decode_of_ne hx]

theorem exists_settled_of_room (hb : 3 ≤ b.length)
    (hr : (bodyOf b).length + missingBody e (bodyOf b) ≤ declaredSize b) :
    ∃ more, Settled (decode (b ++ more) e) := by
  obtain ⟨x, w, d, hw, rfl⟩ := exists_size hb
  rw [bodyOf_eq hw, declaredSize_eq hw] at hr
  by_cases hx : x = Command.realmList.code
  · obtain ⟨more, hl, hs⟩ := settled_readBody (Nat.le_sub_of_add_le' hr)
    refine ⟨more, ?_⟩
    rw [List.length_take] at hl
    have hd : value w ≤ (d ++ more).length := by
      rw [List.length_append]
      omega
    have ht : (d ++ more).take (value w) = d.take (value w) ++ more := by
      rw [List.take_append, List.take_of_length_le (l := more) (by omega)]
    rw [List.append_assoc, List.append_assoc, hx, decode_of_size hw hd, ht]
    exact settled_decode hs
  · refine ⟨[], ?_⟩
    rw [List.append_nil, decode_of_ne hx]
    exact settled_error trivial

/-- A size that is large enough can still be declared as long as its high byte is not known. -/
theorem exists_settled_of_short (hb : b.length < 3) : ∃ more, Settled (decode (b ++ more) e) := by
  have hlarge : ∀ pad, (b ++ pad).length = 3 → 65280 ≤ declaredSize (b ++ pad) →
      ∃ more, Settled (decode (b ++ more) e) := by
    intro pad hl hd
    have hbody : bodyOf (b ++ pad) = [] := by
      rw [bodyOf, List.drop_eq_nil_of_le (Nat.le_of_eq hl), List.take_nil]
    have hm : missingBody e [] ≤ 10 := by
      simp only [missingBody, List.drop_nil, List.take_nil, List.length_nil, value, missing]
      unfold headerSize countSize
      split <;> decide
    obtain ⟨more, h⟩ := exists_settled_of_room (e := e) (Nat.le_of_eq hl.symm) (by
      rw [hbody, List.length_nil]
      omega)
    rw [List.append_assoc] at h
    exact ⟨pad ++ more, h⟩
  rcases b with _ | ⟨x, _ | ⟨y, _ | ⟨z, b⟩⟩⟩
  · refine ⟨[1], ?_⟩
    rw [List.nil_append, ← List.append_nil [1], decode_of_ne (by decide)]
    exact settled_error trivial
  · have hd : declaredSize ([x] ++ [255, 255]) = 65535 := by simp [declaredSize, value]
    exact hlarge [255, 255] rfl (by omega)
  · have hd : declaredSize ([x, y] ++ [255]) = y.toNat + 65280 := by simp [declaredSize, value]
    exact hlarge [255] rfl (by omega)
  · simp only [List.length_cons] at hb
    omega

theorem exists_settled (hr : HasRoom e b) : ∃ more, Settled (decode (b ++ more) e) := by
  by_cases hb : b.length < 3
  · exact exists_settled_of_short hb
  · exact exists_settled_of_room (Nat.not_lt.mp hb) (hr.resolve_left hb)

theorem lacks_of_not_hasRoom (hr : ¬HasRoom e b) (hl : Lacks (decode b e)) (more : Bytes) :
    Lacks (decode (b ++ more) e) := by
  obtain ⟨hb, hroom⟩ := not_or.mp hr
  obtain ⟨x, w, d, hw, rfl⟩ := exists_size (Nat.not_lt.mp hb)
  rw [bodyOf_eq hw, declaredSize_eq hw] at hroom
  rw [List.append_assoc, List.append_assoc]
  by_cases hx : x = Command.realmList.code
  · rw [hx]
    by_cases hd : (d ++ more).length < value w
    · exact lacks_of_size hw hd
    · rw [decode_of_size hw (Nat.not_lt.mp hd), List.take_append]
      refine lacks_decode (lacks_readBody ?_)
      rw [List.length_append] at hd
      rw [List.length_take] at hroom
      rw [List.length_take]
      omega
  · rw [decode_of_ne hx] at hl
    exact absurd hl (Settled.not_lacks (settled_error trivial))

end Reply

end RealmLogon.RealmList
