import RealmLogon.Proofs.Session.Framing
import RealmLogon.Proofs.Wire.Layout

/-! The reads that guard nothing. Each runs past the end of a string that is too short for it, so a decoder asks first
for the bytes of all the reads up to its next guard. -/

namespace RealmLogon

namespace Reader

variable {α β : Type} {r : Reader α} {k : α → Reader β} {b : Bytes} {m n : Nat}

theorem byte_overruns : byte b = .error .overrun ↔ b.length < 1 := by
  cases b <;> simp [byte]

theorem octets_overruns : octets n b = .error .overrun ↔ b.length < n := by
  unfold octets
  split <;> simp <;> omega

theorem skip_overruns : skip n b = .error .overrun ↔ b.length < n := by
  unfold skip
  split <;> simp <;> omega

theorem bind_pure_overruns (f : α → β) :
    (r >>= fun a => pure (f a)) b = .error .overrun ↔ r b = .error .overrun := by
  rw [bind_apply]
  cases r b with
  | error e => simp [Except.bind]
  | ok x => constructor <;> (intro h; cases h)

theorem word16_overruns : word16 b = .error .overrun ↔ b.length < 2 :=
  (bind_pure_overruns _).trans octets_overruns

theorem word32_overruns : word32 b = .error .overrun ↔ b.length < 4 :=
  (bind_pure_overruns _).trans octets_overruns

/-- With `n` bytes left the read does not run past their end, and it leaves at least `m` of them. -/
structure Covered (n : Nat) (r : Reader α) (m : Nat) : Prop where
  inside : ∀ {b : Bytes}, n ≤ b.length → r b ≠ .error .overrun
  leaves : ∀ {b rest : Bytes} {a : α}, n ≤ b.length → r b = .ok (a, rest) → m ≤ rest.length

theorem covered_pure (a : α) : Covered n (pure a : Reader α) n where
  inside _ h := by cases h
  leaves hb h := by
    cases h
    exact hb

theorem covered_fail {e : WireError} (he : e ≠ .overrun) : Covered n (fail e : Reader α) m where
  inside _ h := he (Except.error.inj h)
  leaves _ h := by cases h

theorem Covered.mono {l : Nat} (h : Covered n r m) (hl : l ≤ m) : Covered n r l where
  inside hb := h.inside hb
  leaves hb hr := Nat.le_trans hl (h.leaves hb hr)

theorem Sized.covered {s : Nat} (h : Sized s r) : Covered (n + s) r n where
  inside hb he := by
    obtain ⟨a, ha⟩ := h.apply (Nat.le_trans (Nat.le_add_left s n) hb)
    rw [ha] at he
    cases he
  leaves hb hr := by
    obtain ⟨a, ha⟩ := h.apply (Nat.le_trans (Nat.le_add_left s n) hb)
    rw [ha] at hr
    cases hr
    rw [List.length_drop]
    omega

theorem Fixed.covered {s : Nat} (h : Fixed s r) : Covered n r (n - s) where
  inside _ he := h.faultsOfBody _ _ he
  leaves hb hr := by
    obtain ⟨-, rfl⟩ := h.of_ok hr
    rw [List.length_drop]
    omega

theorem Covered.bind {l : Nat} (h : Covered n r m) (hk : ∀ a, Covered m (k a) l) : Covered n (r >>= k) l where
  inside hb he := by
    rcases bind_eq_error he with hr | ⟨a, rest, hr, hke⟩
    · exact h.inside hb hr
    · exact (hk a).inside (h.leaves hb hr) hke
  leaves hb he := by
    obtain ⟨a, mid, hr, hke⟩ := bind_eq_ok he
    exact (hk a).leaves (h.leaves hb hr) hke

/-- A guard covers the reads behind it, however many bytes were known before. -/
theorem Covered.guard {s : Nat} {r : Unit → Reader α} (h : Covered s (r ()) m) : Covered n (ensure s >>= r) m where
  inside {b} _ he := by
    by_cases hb : b.length < s
    · rw [ensure_apply_short hb] at he
      cases he
    · rw [ensure_apply (Nat.not_lt.mp hb)] at he
      exact h.inside (Nat.not_lt.mp hb) he
  leaves {b _ _} _ hr := by
    by_cases hb : b.length < s
    · rw [ensure_apply_short hb] at hr
      cases hr
    · rw [ensure_apply (Nat.not_lt.mp hb)] at hr
      exact h.leaves (Nat.not_lt.mp hb) hr

/-- A guard for bytes that are known to be there. -/
theorem Covered.known {s : Nat} {r : Unit → Reader α} (h : Covered n (r ()) m) (hs : s ≤ n) :
    Covered n (ensure s >>= r) m where
  inside hb he := by
    rw [ensure_apply (Nat.le_trans hs hb)] at he
    exact h.inside hb he
  leaves hb hr := by
    rw [ensure_apply (Nat.le_trans hs hb)] at hr
    exact h.leaves hb hr

theorem Covered.ite {p : Prop} [Decidable p] {s : Reader α} (hr : Covered n r m) (hs : Covered n s m) :
    Covered n (if p then r else s) m := by
  split
  · exact hr
  · exact hs

theorem Covered.check {p : Prop} [Decidable p] {e : WireError} {k : Unit → Reader α} (he : e ≠ .overrun)
    (h : Covered n (k ()) m) : Covered n (if p then fail e >>= k else k ()) m := by
  split
  · exact ⟨fun _ hr => he (Except.error.inj hr), fun _ hr => by cases hr⟩
  · exact h

theorem covered_field (s : Nat) : Covered n (field s) (n - s) := (Sized.guard (sized_octets s)).covered

theorem covered_command (c : Command) : Covered n (command c) (n - 1) := by
  have hcode : ∀ s, Covered (s + 1) (byte >>= fun actual =>
      if actual = c.code then pure () else fail (.unexpectedOpcode c.code actual)) s := fun s =>
    sized_byte.covered.bind fun actual => Covered.ite (covered_pure ()) (covered_fail (by simp))
  cases n with
  | zero => exact (hcode 0).guard
  | succ n => exact (hcode n).known (Nat.le_add_left 1 n)

theorem covered_text (s : Nat) {e : WireError} (he : e ≠ .overrun) : Covered n (text s e) (n - s) := by
  refine (covered_field s).bind fun o => ?_
  cases Bytes.toString? o.toList with
  | some t => exact covered_pure t
  | none => exact covered_fail he

theorem covered_verdict : Covered n verdict 0 := by
  refine Covered.guard (sized_byte.covered.bind fun code => ?_)
  cases Verdict.ofCode? code with
  | some v => exact covered_pure v
  | none => exact covered_fail (by simp)

/-- The first bytes, which stay where they are. -/
def peek (n : Nat) : Reader Bytes := fun b => if b.length < n then .error .overrun else .ok (b.take n, b)

/-- The text up to the first zero byte, cut out and skipped by reads that guard nothing. -/
def cutAtZero : Reader String := fun b =>
  match b.findIdx? (· == 0) with
  | none => .error .malformedString
  | some stop => (do
      let text ← peek stop
      match Bytes.toString? text with
      | some s => skip (stop + 1); return s
      | none => fail .malformedString) b

theorem findIdx?_of_all (h : ∀ x ∈ b, (x != 0) = true) : b.findIdx? (· == 0) = none := by
  rw [List.findIdx?_eq_none_iff]
  intro x hx
  simpa using h x hx

theorem zeroTerminated_eq_cutAtZero : zeroTerminated = cutAtZero := by
  funext b
  rcases exists_zero b with hb | ⟨front, rest, rfl, hf⟩
  · rw [zeroTerminated_of_all hb, cutAtZero, findIdx?_of_all hb]
  · have hsome : (front ++ 0 :: rest).findIdx? (· == 0) = some front.length := by
      rw [List.findIdx?_append, findIdx?_of_all hf]
      simp [List.findIdx?_cons]
    rw [zeroTerminated_append_cons hf, cutAtZero, hsome]
    have hpeek : peek front.length (front ++ 0 :: rest) = .ok (front, front ++ 0 :: rest) := by
      simp [peek]
    simp only [bind_of_ok hpeek]
    cases Bytes.toString? front with
    | none => rfl
    | some s =>
      have hskip := takes_skip (front ++ [0]) rest
      rw [List.length_append, List.length_singleton, List.append_assoc, List.singleton_append] at hskip
      simp only [bind_of_ok hskip]
      rfl

theorem peek_overruns : peek n b = .error .overrun ↔ b.length < n := by
  unfold peek
  split <;> simp <;> omega

theorem Covered.decode_ne (h : Covered 0 r m) (b : Bytes) : Reader.decode r b ≠ .error .overrun := fun he =>
  h.inside (Nat.zero_le _) (decode_eq_error he)

end Reader

open Reader

variable {n : Nat}

namespace Challenge

theorem covered_opening (code : UInt8) : Covered n (opening code) n := by
  unfold opening
  split
  · exact covered_pure _
  · exact covered_pure _
  · exact covered_fail (by simp)

theorem covered_checkSize (declared : UInt16) (loginLength : Nat) : Covered n (checkSize declared loginLength) n :=
  Covered.ite (covered_fail (by simp)) (Covered.ite (covered_fail (by simp)) (covered_pure ()))

theorem covered_read : Covered 0 read 0 := by
  refine Covered.guard ?_
  refine Covered.bind (m := 33) sized_byte.covered fun code => ?_
  refine (covered_opening code).bind fun command => ?_
  refine sized_byte.covered.bind fun error => ?_
  refine sized_word16.covered.bind fun declared => ?_
  refine (covered_field 4).bind fun gameName => ?_
  refine (covered_field 3).bind fun version => ?_
  refine sized_word16.covered.bind fun build => ?_
  refine (covered_field 4).bind fun platform => ?_
  refine (covered_field 4).bind fun os => ?_
  refine (covered_field 4).bind fun country => ?_
  refine sized_word32.covered.bind fun timezoneBias => ?_
  refine (covered_field 4).bind fun ip => ?_
  refine sized_byte.covered.bind fun loginLength => ?_
  refine (covered_checkSize declared loginLength.toNat).bind fun _ => ?_
  exact (covered_text _ (by simp)).bind fun login => (covered_pure _).mono (Nat.zero_le _)

end Challenge

namespace LogonProof

theorem covered_readToken (flags : UInt8) : Covered 0 (readToken flags) 0 :=
  Covered.ite (covered_pure none)
    (Covered.guard (sized_byte.covered.bind fun length =>
      (covered_text _ (by simp)).bind fun token => (covered_pure (some token)).mono (Nat.zero_le _)))

theorem covered_read : Covered 0 read 0 := by
  refine Covered.guard ?_
  refine Covered.bind (m := 74) (covered_command _) fun _ => ?_
  refine (covered_field 32).bind fun clientKey => ?_
  refine (covered_field 20).bind fun proof => ?_
  refine (covered_field 20).bind fun versionProof => ?_
  refine sized_byte.covered.bind fun keyCount => ?_
  refine sized_byte.covered.bind fun flags => ?_
  exact (covered_readToken flags).bind fun token => covered_pure _

end LogonProof

theorem ReconnectProof.covered_read : Covered 0 read 0 := by
  refine Covered.guard ?_
  refine Covered.bind (m := 57) (covered_command _) fun _ => ?_
  refine (covered_field 16).bind fun clientRandom => ?_
  refine (covered_field 20).bind fun proof => ?_
  refine (covered_field 20).bind fun versionProof => ?_
  exact sized_byte.covered.bind fun keyCount => covered_pure _

namespace ChallengeReply

theorem covered_skipExtra (flags flag : UInt8) (size : Nat) : Covered 0 (skipExtra flags flag size) 0 :=
  Covered.ite (covered_pure ()) ((RealmList.fixed_skip size).covered.mono (Nat.zero_le _))

theorem covered_readOffer : Covered 0 readOffer 0 := by
  refine (covered_field 32).bind fun serverKey => ?_
  refine Covered.guard ?_
  refine Covered.bind (m := 2) (sized_skip 1).covered fun _ => ?_
  refine sized_byte.covered.bind fun generator => ?_
  refine sized_byte.covered.bind fun primeLength => ?_
  refine Covered.check (by simp) ?_
  refine (covered_field 32).bind fun prime => ?_
  refine (covered_field 32).bind fun salt => ?_
  refine (covered_field 16).bind fun versionChallenge => ?_
  refine Covered.guard ?_
  refine Covered.bind (m := 0) sized_byte.covered fun flags => ?_
  refine (covered_skipExtra flags SecurityFlag.pin 20).bind fun _ => ?_
  refine (covered_skipExtra flags SecurityFlag.matrix 12).bind fun _ => ?_
  exact (covered_skipExtra flags SecurityFlag.authenticator 1).bind fun _ => covered_pure _

theorem covered_read : Covered 0 read 0 := by
  refine (covered_command _).bind fun _ => ?_
  refine Covered.guard ?_
  refine Covered.bind (m := 1) (sized_skip 1).covered fun _ => ?_
  refine covered_verdict.bind fun v => ?_
  exact Covered.ite (covered_readOffer.bind fun o => covered_pure _) (covered_pure _)

end ChallengeReply

theorem LogonProofReply.covered_read (e : Expansion) : Covered 0 (read e) 0 := by
  refine (covered_command _).bind fun _ => ?_
  refine covered_verdict.bind fun v => ?_
  refine Covered.ite (covered_pure _) ?_
  refine (covered_field 20).bind fun serverProof => ?_
  refine Covered.ite (Covered.guard ?_) (Covered.guard ?_)
  · refine Covered.bind (m := 6) sized_word32.covered fun accountFlags => ?_
    refine sized_word32.covered.bind fun surveyId => ?_
    exact sized_word16.covered.bind fun loginFlags => covered_pure _
  · exact Covered.bind (m := 0) sized_word32.covered fun surveyId => covered_pure _

theorem ReconnectChallengeReply.covered_read : Covered 0 read 0 := by
  refine (covered_command _).bind fun _ => ?_
  refine covered_verdict.bind fun v => ?_
  refine Covered.ite (covered_pure _) ?_
  refine (covered_field 16).bind fun challenge => ?_
  exact (covered_field 16).bind fun versionChallenge => covered_pure _

theorem ReconnectProofReply.covered_read : Covered 0 read 0 := by
  refine (covered_command _).bind fun _ => ?_
  exact covered_verdict.bind fun v => covered_pure _

theorem RealmList.covered_read (e : Expansion) : Covered 0 (read e) 0 := by
  refine (covered_command _).bind fun _ => ?_
  refine Covered.guard ?_
  refine Covered.bind (m := 0) sized_word16.covered fun size => ?_
  refine (covered_field size.toNat).bind fun body => ?_
  cases h : Reader.decode (readBody e) body.toList with
  | ok realms => exact (covered_pure realms).mono (Nat.zero_le _)
  | error err =>
    refine covered_fail fun he => ?_
    subst he
    exact faultsOfBody_readBody e _ _ (decode_eq_error h)

namespace Frame

variable {b : Bytes} {i : Nat}

theorem byteAt_of_lt (h : i < b.length) : byteAt b i = .ok b[i] := by
  rw [byteAt, List.getElem?_eq_getElem h]

theorem byteAt_overruns : byteAt b i = .error .overrun ↔ b.length ≤ i := by
  by_cases h : i < b.length
  · rw [byteAt_of_lt h]
    simpa using h
  · rw [byteAt, List.getElem?_eq_none (Nat.not_lt.mp h)]
    simpa using h

theorem challengeLength_ne (h : 4 ≤ b.length) : challengeLength b ≠ .error .overrun := by
  intro he
  have h2 : 2 < b.length := by omega
  have h3 : 3 < b.length := by omega
  simp only [challengeLength, byteAt_of_lt h2, byteAt_of_lt h3, bind, Except.bind] at he
  split at he <;> cases he

theorem proofLength_ne (h : LogonProof.size ≤ b.length) : proofLength b ≠ .error .overrun := by
  intro he
  have hf : LogonProof.flagsAt < b.length := Nat.lt_of_lt_of_le (by decide) h
  simp only [proofLength, byteAt_of_lt hf, bind, Except.bind] at he
  split at he <;> cases he

/-- The bytes that tell the length of a frame are among those that must have come. -/
theorem Rule.length_ne {opcode : UInt8} {r : Rule} (hr : rule opcode = .ok r) : r.length b ≠ .error .overrun := by
  intro he
  rcases length_cases hr with hl | hl | ⟨n, -, -, hl⟩
  · rw [hl] at he
    split at he
    · cases he
    · exact challengeLength_ne (by omega) he
  · rw [hl] at he
    split at he
    · cases he
    · exact proofLength_ne (by omega) he
  · rw [hl] at he
    split at he <;> cases he

theorem rule_ne (opcode : UInt8) : rule opcode ≠ .error .overrun := by
  unfold rule
  split
  · simp
  · split <;> simp

end Frame

/-- The reads that guard nothing run past the end of bytes that are too few for them, and of no others. -/
structure Unguarded (b : Bytes) : Prop where
  byte : Reader.byte b = .error .overrun ↔ b.length < 1
  word16 : Reader.word16 b = .error .overrun ↔ b.length < 2
  word32 : Reader.word32 b = .error .overrun ↔ b.length < 4
  octets : ∀ n, Reader.octets n b = .error .overrun ↔ b.length < n
  peek : ∀ n, Reader.peek n b = .error .overrun ↔ b.length < n
  skip : ∀ n, Reader.skip n b = .error .overrun ↔ b.length < n
  byteAt : ∀ i, Frame.byteAt b i = .error .overrun ↔ b.length ≤ i

theorem unguarded (b : Bytes) : Unguarded b :=
  ⟨byte_overruns, word16_overruns, word32_overruns, fun _ => octets_overruns, fun _ => peek_overruns,
    fun _ => skip_overruns, fun _ => Frame.byteAt_overruns⟩

/-- A read that guards nothing can go past the end of the bytes, but none does in a decoder or in the framing, whatever
the bytes are. The text of a realm is found by looking for its zero byte, which is the same as reads that guard
nothing. -/
theorem no_read_overruns (b : Bytes) :
    Unguarded b ∧
    (∀ opcode, (Frame.rule opcode).bind (·.length b) ≠ .error .overrun) ∧
    Challenge.decode b ≠ .error .overrun ∧
    LogonProof.decode b ≠ .error .overrun ∧
    ReconnectProof.decode b ≠ .error .overrun ∧
    ChallengeReply.decode b ≠ .error .overrun ∧
    (∀ e, LogonProofReply.decode b e ≠ .error .overrun) ∧
    ReconnectChallengeReply.decode b ≠ .error .overrun ∧
    ReconnectProofReply.decode b ≠ .error .overrun ∧
    (∀ e, RealmList.decode b e ≠ .error .overrun) ∧
    zeroTerminated = cutAtZero := by
  have hframe : ∀ opcode, (Frame.rule opcode).bind (·.length b) ≠ .error .overrun := by
    intro opcode
    cases hr : Frame.rule opcode with
    | error err =>
      intro he
      cases he
      exact Frame.rule_ne opcode hr
    | ok r => exact Frame.Rule.length_ne hr
  exact ⟨unguarded b, hframe, Challenge.covered_read.decode_ne b, LogonProof.covered_read.decode_ne b,
    ReconnectProof.covered_read.decode_ne b, ChallengeReply.covered_read.decode_ne b,
    fun e => (LogonProofReply.covered_read e).decode_ne b, ReconnectChallengeReply.covered_read.decode_ne b,
    ReconnectProofReply.covered_read.decode_ne b, fun e => (RealmList.covered_read e).decode_ne b,
    zeroTerminated_eq_cutAtZero⟩

end RealmLogon
