import RealmLogon.Session.Basic

/-! Frames are found at the front of the buffer. What is found there, a frame or a fault, does not change when
more bytes come after it. -/

namespace RealmLogon

namespace Frame

variable {opcode : UInt8} {r : Rule} {b : Bytes} {n : Nat}

theorem byteAt_append {i : Nat} (h : i < b.length) (more : Bytes) : byteAt (b ++ more) i = byteAt b i := by
  unfold byteAt
  rw [List.getElem?_append_left h]

theorem challengeLength_append (h : 4 ≤ b.length) (more : Bytes) :
    challengeLength (b ++ more) = challengeLength b := by
  unfold challengeLength
  rw [byteAt_append (by omega), byteAt_append (by omega)]

theorem proofLength_append (h : LogonProof.size ≤ b.length) (hn : proofLength b ≠ .ok none) (more : Bytes) :
    proofLength (b ++ more) = proofLength b := by
  have hf : LogonProof.flagsAt < b.length := Nat.lt_of_lt_of_le (by decide) h
  by_cases hb : LogonProof.size < b.length
  · unfold proofLength
    rw [byteAt_append hf, List.getElem?_append_left hb]
  · have hl : b[LogonProof.size]? = none := List.getElem?_eq_none (by omega)
    unfold proofLength at hn ⊢
    rw [byteAt_append hf]
    cases hx : byteAt b LogonProof.flagsAt with
    | error e => rfl
    | ok flags =>
      simp only [hx, hl, bind, Except.bind, Option.map_none] at hn ⊢
      split at hn
      · rename_i h0
        simp only [h0, if_true]
      · exact absurd rfl hn

def longest : Nat := LogonProof.size + 256

/-- A frame learns its length in one of three ways. The fixed lengths of a logon are moderate. -/
theorem length_cases (hr : rule opcode = .ok r) :
    (∀ b, r.length b = if b.length < 4 then .ok none else challengeLength b) ∨
    (∀ b, r.length b = if b.length < LogonProof.size then .ok none else proofLength b) ∨
    ∃ n, 0 < n ∧ (r.phase ≠ .xfer → 4 ≤ n ∧ n ≤ longest) ∧
      ∀ b, r.length b = if b.length < n then .ok none else .ok (some n) := by
  unfold rule at hr
  cases hc : Command.ofCode? opcode with
  | none => simp [hc] at hr
  | some c =>
    simp only [hc] at hr
    cases c with
    | logonChallenge => cases hr; exact .inl fun b => rfl
    | reconnectChallenge => cases hr; exact .inl fun b => rfl
    | logonProof => cases hr; exact .inr (.inl fun b => rfl)
    | reconnectProof => cases hr; exact .inr (.inr ⟨_, by decide, fun _ => by decide, fun b => rfl⟩)
    | realmList => cases hr; exact .inr (.inr ⟨_, by decide, fun _ => by decide, fun b => rfl⟩)
    | xferAccept => cases hr; exact .inr (.inr ⟨_, by decide, fun hp => absurd rfl hp, fun b => rfl⟩)
    | xferCancel => cases hr; exact .inr (.inr ⟨_, by decide, fun hp => absurd rfl hp, fun b => rfl⟩)
    | xferResume => cases hr; exact .inr (.inr ⟨_, by decide, fun hp => absurd rfl hp, fun b => rfl⟩)
    | xferInitiate => cases hr
    | xferData => cases hr

theorem if_append {α : Type} {m : Nat} {b more : Bytes} {f : Bytes → Except WireError (Option α)}
    (h : (if b.length < m then .ok none else f b) ≠ .ok none) (hf : m ≤ b.length → f (b ++ more) = f b) :
    (if (b ++ more).length < m then .ok none else f (b ++ more)) = if b.length < m then .ok none else f b := by
  by_cases hm : b.length < m
  · rw [if_pos hm] at h
    exact absurd rfl h
  · have hl : ¬(b ++ more).length < m := by
      rw [List.length_append]
      omega
    rw [if_neg hm, if_neg hl, hf (by omega)]

theorem length_append (hr : rule opcode = .ok r) (h : r.length b ≠ .ok none) (more : Bytes) :
    r.length (b ++ more) = r.length b := by
  rcases length_cases hr with hl | hl | ⟨n, -, -, hl⟩
  · rw [hl, hl]
    rw [hl] at h
    exact if_append h fun hm => challengeLength_append hm more
  · rw [hl, hl]
    rw [hl] at h
    refine if_append h fun hm => proofLength_append hm (fun hp => h ?_) more
    rw [if_neg (by omega), hp]
  · rw [hl, hl]
    rw [hl] at h
    exact if_append (f := fun _ => .ok (some n)) h fun _ => rfl

theorem challengeLength_bounds (h : challengeLength b = .ok (some n)) : 0 < n ∧ n ≤ Challenge.maxSize := by
  unfold challengeLength at h
  cases hl : byteAt b 2 with
  | error e => simp [hl, bind, Except.bind] at h
  | ok low =>
    cases hh : byteAt b 3 with
    | error e => simp [hl, hh, bind, Except.bind] at h
    | ok high =>
      simp only [hl, hh, bind, Except.bind] at h
      split at h
      · cases h
      · cases h
        omega

theorem proofLength_bounds (h : proofLength b = .ok (some n)) : 0 < n ∧ n ≤ LogonProof.size + 256 := by
  unfold proofLength at h
  cases hf : byteAt b LogonProof.flagsAt with
  | error e => simp [hf, bind, Except.bind] at h
  | ok flags =>
    simp only [hf, bind, Except.bind] at h
    split at h
    · cases h
      decide
    · cases hn : b[LogonProof.size]? with
      | none => simp [hn] at h
      | some length =>
        have hlt := length.toNat_lt
        simp only [hn, Option.map_some] at h
        cases h
        omega

theorem length_pos (hr : rule opcode = .ok r) (h : r.length b = .ok (some n)) : 0 < n := by
  rcases length_cases hr with hl | hl | ⟨m, hm, -, hl⟩
  · rw [hl] at h
    split at h
    · cases h
    · exact (challengeLength_bounds h).1
  · rw [hl] at h
    split at h
    · cases h
    · exact (proofLength_bounds h).1
  · rw [hl] at h
    split at h
    · cases h
    · cases h
      exact hm

end Frame

namespace Session

variable {s : Session} {b : Bytes} {c : Command} {n : Nat}

theorem nextFrame_eq_some (h : s.nextFrame b = .ok (some (c, n))) :
    ∃ opcode rest r, b = opcode :: rest ∧ Frame.rule opcode = .ok r ∧ r.phase = s.phase ∧ r.command = c ∧
      r.length b = .ok (some n) ∧ n ≤ b.length := by
  cases b with
  | nil => cases h
  | cons opcode b =>
    cases hr : Frame.rule opcode with
    | error e => simp [nextFrame, hr] at h
    | ok r =>
      simp only [nextFrame, hr] at h
      by_cases hp : r.phase = s.phase
      · rw [if_neg fun hne => hne hp] at h
        cases hl : r.length (opcode :: b) with
        | error e => simp [hl] at h
        | ok l =>
          cases l with
          | none => simp [hl] at h
          | some l =>
            simp only [hl] at h
            by_cases hn : l ≤ (opcode :: b).length
            · rw [if_pos hn] at h
              cases h
              exact ⟨opcode, b, r, rfl, hr, hp, rfl, hl, hn⟩
            · rw [if_neg hn] at h
              cases h
      · rw [if_pos hp] at h
        cases h

theorem nextFrame_bounds (h : s.nextFrame b = .ok (some (c, n))) : 0 < n ∧ n ≤ b.length := by
  obtain ⟨opcode, rest, r, rfl, hr, -, -, hl, hn⟩ := nextFrame_eq_some h
  exact ⟨Frame.length_pos hr hl, hn⟩

/-- A frame or a fault at the front of the buffer stays when more bytes come. -/
theorem nextFrame_append (h : s.nextFrame b ≠ .ok none) (more : Bytes) :
    s.nextFrame (b ++ more) = s.nextFrame b := by
  cases b with
  | nil => exact absurd rfl h
  | cons opcode b =>
    cases hr : Frame.rule opcode with
    | error e => simp only [List.cons_append, nextFrame, hr]
    | ok r =>
      by_cases hp : r.phase = s.phase
      · have hl : r.length (opcode :: b) ≠ .ok none := by
          intro hl
          refine h ?_
          simp only [nextFrame, hr, hl]
          rw [if_neg fun hne => hne hp]
        have ha := Frame.length_append hr hl more
        rw [List.cons_append] at ha
        simp only [List.cons_append, nextFrame, hr, ha]
        cases hn : r.length (opcode :: b) with
        | error e => rfl
        | ok l =>
          cases l with
          | none => exact absurd hn hl
          | some l =>
            have hle : l ≤ (opcode :: b).length := by
              refine Decidable.by_contra fun hle => h ?_
              simp only [nextFrame, hr, hn, if_neg hle]
              rw [if_neg fun hne => hne hp]
            have hle' : l ≤ (opcode :: (b ++ more)).length := by
              rw [← List.cons_append, List.length_append]
              omega
            simp only [if_pos hle, if_pos hle']
      · simp only [List.cons_append, nextFrame, hr, if_pos hp]

theorem logonChallenge_le (h : s.nextFrame b = .ok (some (.logonChallenge, n))) : n ≤ Challenge.maxSize := by
  obtain ⟨opcode, rest, r, rfl, -, -, hc, hl, -⟩ := nextFrame_eq_some h
  unfold Frame.Rule.length at hl
  simp only [hc] at hl
  split at hl
  · cases hl
  · exact (Frame.challengeLength_bounds hl).2

theorem logonProof_le (h : s.nextFrame b = .ok (some (.logonProof, n))) : n ≤ LogonProof.size + 256 := by
  obtain ⟨opcode, rest, r, rfl, -, -, hc, hl, -⟩ := nextFrame_eq_some h
  unfold Frame.Rule.length at hl
  simp only [hc] at hl
  split at hl
  · cases hl
  · exact (Frame.proofLength_bounds hl).2

end Session

end RealmLogon
