import RealmLogon.Proofs.Session.Framing
import RealmLogon.Proofs.Wire.Inversion

/-! The messages of a client as frames. The length that is found at the front of the bytes and the end that the
decoder comes to are told by different fields, and they are the same. -/

namespace RealmLogon

open Reader

namespace Frame

/-- The length of the frame at the front of the bytes, by the rule of their first one. -/
def lengthOf : Bytes → Except WireError (Option Nat)
  | [] => .ok none
  | opcode :: rest => (rule opcode).bind (·.length (opcode :: rest))

variable {b : Bytes} {n : Nat}

theorem lengthOf_of_rule {opcode : UInt8} {rest : Bytes} {r : Rule} (hr : rule opcode = .ok r)
    (hb : b = opcode :: rest) : lengthOf b = r.length b := by
  rw [hb, lengthOf, hr]
  rfl

theorem lengthOf_append (h : lengthOf b = .ok (some n)) (more : Bytes) : lengthOf (b ++ more) = .ok (some n) := by
  cases b with
  | nil => cases h
  | cons opcode rest =>
    cases hr : rule opcode with
    | error e => simp [lengthOf, hr, Except.bind] at h
    | ok r =>
      rw [lengthOf_of_rule hr rfl] at h
      have hk : r.length (opcode :: rest) ≠ .ok none := by simp [h]
      rw [lengthOf_of_rule hr (List.cons_append ..), length_append hr hk, h]

end Frame

namespace Challenge

variable {c : Challenge}

theorem rule_eq (hc : IsOpening c.command) : Frame.rule c.command.code = .ok ⟨c.command, .challenge, 4⟩ := by
  rcases hc with hc | hc <;> rw [hc] <;> rfl

/-- The length of a challenge is told by the size that it declares, and that is a number of 16 bits. -/
theorem length_frame_eq (hc : IsOpening c.command) {total : Nat}
    (ht : total = 4 + (sizedHeader + (Bytes.ofString c.login).length) % 65536) :
    Frame.Rule.length ⟨c.command, .challenge, 4⟩ c.encode =
      if maxSize < total then .error (.challengeTooLarge maxSize total) else .ok (some total) := by
  have hh : headerSize = 34 := rfl
  have hlong := c.length_encode
  generalize hd : sizedHeader + (Bytes.ofString c.login).length = declared at ht
  have hp : Nat.pow 256 2 = 65536 := rfl
  have hv : 4 + LittleEndian.value (LittleEndian.digits 2 declared) = total := by
    rw [LittleEndian.value_digits, hp, ht]
  have he : ∃ rest, c.encode = c.command.code :: c.error :: (LittleEndian.digits 2 declared ++ rest) := by
    rw [encode, hd]
    exact ⟨_, by simp only [List.append_assoc]; rfl⟩
  obtain ⟨rest, he⟩ := he
  have hlen : Frame.Rule.length ⟨c.command, .challenge, 4⟩ c.encode = Frame.challengeLength c.encode := by
    have h4 : ¬c.encode.length < 4 := by omega
    unfold Frame.Rule.length
    rw [if_neg h4]
    rcases hc with hc | hc <;> rw [hc]
  rw [hlen, he, ← hv]
  rfl

theorem lengthOf_encode_eq (hc : IsOpening c.command) {total : Nat}
    (ht : total = 4 + (sizedHeader + (Bytes.ofString c.login).length) % 65536) :
    Frame.lengthOf c.encode =
      if maxSize < total then .error (.challengeTooLarge maxSize total) else .ok (some total) :=
  (Frame.lengthOf_of_rule (rule_eq hc) rfl).trans (length_frame_eq hc ht)

theorem length_frame (hc : IsOpening c.command) (hl : (Bytes.ofString c.login).length ≤ maxLogin) :
    Frame.Rule.length ⟨c.command, .challenge, 4⟩ c.encode = .ok (some c.encode.length) := by
  have hh : headerSize = 34 := rfl
  have hz : sizedHeader = 30 := rfl
  have hm : maxLogin = 16 := rfl
  have hx : maxSize = 50 := rfl
  have hlong := c.length_encode
  have ht : c.encode.length = 4 + (sizedHeader + (Bytes.ofString c.login).length) % 65536 := by omega
  rw [length_frame_eq hc ht, if_neg (by omega)]

theorem lengthOf_encode (hc : IsOpening c.command) (hl : (Bytes.ofString c.login).length ≤ maxLogin) :
    Frame.lengthOf c.encode = .ok (some c.encode.length) :=
  (Frame.lengthOf_of_rule (rule_eq hc) rfl).trans (length_frame hc hl)

end Challenge

namespace LogonProof

variable {p : LogonProof}

/-- The length of the token tells where a proof ends, if its flags announce one. -/
theorem length_frame (ht : ∀ t ∈ p.token, (Bytes.ofString t).length < 256) :
    Frame.Rule.length ⟨.logonProof, .logonProof, size⟩ p.encode = .ok (some p.encode.length) := by
  have hsize : size = 75 := rfl
  have hat : flagsAt = 74 := rfl
  have he := p.encode_eq
  generalize hb : p.clientKey.toList ++ (p.proof.toList ++ (p.versionProof.toList ++ [p.keyCount])) = front
  have hfront : front.length = 73 := by simp [← hb]
  have he' : p.encode = Command.logonProof.code :: (front ++ p.sentFlags :: p.sentToken) := by
    rw [he, ← hb]
    simp
  have hflags : p.encode[flagsAt]? = some p.sentFlags := by
    rw [he', hat, List.getElem?_cons_succ, List.getElem?_append_right (by omega)]
    simp [hfront]
  have hnext : p.encode[size]? = p.sentToken.head? := by
    rw [he', hsize, List.getElem?_cons_succ, List.getElem?_append_right (by omega)]
    simp [hfront, List.head?_eq_getElem?]
  have hlength : p.encode.length = size + p.sentToken.length := by
    rw [he']
    simp only [List.length_cons, List.length_append]
    omega
  have hlong : ¬p.encode.length < size := by omega
  have hlen : Frame.Rule.length ⟨.logonProof, .logonProof, size⟩ p.encode = Frame.proofLength p.encode :=
    if_neg hlong
  rw [hlen]
  simp only [Frame.proofLength, Frame.byteAt, hflags, hnext, bind, Except.bind]
  cases hp : p.token with
  | none =>
    have hf := and_not_authenticator p.securityFlags
    simp [sentFlags, sentToken, hp, hf, hlength]
  | some token =>
    have hf := or_authenticator p.securityFlags
    have hn := ht token hp
    simp [sentFlags, sentToken, hp, hf, hlength]
    omega

theorem lengthOf_encode (ht : ∀ t ∈ p.token, (Bytes.ofString t).length < 256) :
    Frame.lengthOf p.encode = .ok (some p.encode.length) :=
  (Frame.lengthOf_of_rule (r := ⟨.logonProof, .logonProof, size⟩) rfl rfl).trans (length_frame ht)

end LogonProof

namespace ReconnectProof

theorem length_frame (p : ReconnectProof) :
    Frame.Rule.length ⟨.reconnectProof, .reconnectProof, size⟩ p.encode = .ok (some p.encode.length) := by
  have hl : p.encode.length = size := by simp [encode, size]
  rw [hl]
  exact if_neg (Nat.not_lt_of_le (Nat.le_of_eq hl.symm))

theorem lengthOf_encode (p : ReconnectProof) : Frame.lengthOf p.encode = .ok (some p.encode.length) :=
  (Frame.lengthOf_of_rule (r := ⟨.reconnectProof, .reconnectProof, size⟩) rfl rfl).trans p.length_frame

end ReconnectProof

/-- What a read takes from a frame is the frame as it is encoded, and all of it. -/
structure FramesExactly {α : Type} (read : Reader α) (encode : α → Bytes) : Prop where
  consumed : ∀ b n, Frame.lengthOf b = .ok (some n) → n ≤ b.length → ∀ a rest, read (b.take n) = .ok (a, rest) →
    rest = []
  encoded : ∀ b n, Frame.lengthOf b = .ok (some n) → n ≤ b.length → ∀ a, decode read (b.take n) = .ok a →
    encode a = b.take n
  injective : ∀ b n b' n', Frame.lengthOf b = .ok (some n) → n ≤ b.length → Frame.lengthOf b' = .ok (some n') →
    n' ≤ b'.length → ∀ a, decode read (b.take n) = .ok a → decode read (b'.take n') = .ok a →
    b.take n = b'.take n'

/-- It is enough that a message is read from its encoding only, and that its encoding is one frame. -/
theorem framesExactly_of_read {α : Type} {read : Reader α} {encode : α → Bytes}
    (h : ∀ b a rest, read b = .ok (a, rest) →
      b = encode a ++ rest ∧ Frame.lengthOf (encode a) = .ok (some (encode a).length)) :
    FramesExactly read encode := by
  have hread : ∀ b n, Frame.lengthOf b = .ok (some n) → n ≤ b.length → ∀ a rest,
      read (b.take n) = .ok (a, rest) → rest = [] ∧ encode a = b.take n := by
    intro b n hl hn a rest hr
    obtain ⟨ht, he⟩ := h _ _ _ hr
    have hb : b = encode a ++ (rest ++ b.drop n) := by
      rw [← List.append_assoc, ← ht, List.take_append_drop]
    have hlength : n = (encode a).length := by
      have ha := Frame.lengthOf_append he (rest ++ b.drop n)
      rw [← hb, hl] at ha
      simpa using ha
    have htake : (encode a ++ rest).length = n := by
      rw [← ht, List.length_take]
      omega
    have hrest : rest = [] := by
      rw [List.length_append] at htake
      exact List.length_eq_zero_iff.mp (by omega)
    rw [hrest, List.append_nil] at ht
    exact ⟨hrest, ht.symm⟩
  have hencode : ∀ b n, Frame.lengthOf b = .ok (some n) → n ≤ b.length → ∀ a,
      decode read (b.take n) = .ok a → encode a = b.take n := by
    intro b n hl hn a hd
    obtain ⟨rest, hr⟩ := decode_eq_ok hd
    exact (hread b n hl hn a rest hr).2
  refine ⟨fun b n hl hn a rest hr => (hread b n hl hn a rest hr).1, hencode, ?_⟩
  intro b n b' n' hl hn hl' hn' a hd hd'
  rw [← hencode b n hl hn a hd, ← hencode b' n' hl' hn' a hd']

/-- The messages of a client are exactly the frames that their decoders accept. A message is one frame whatever
comes after it, and is decoded to what was encoded; what is decoded from a frame is encoded to the same frame. -/
theorem requests_framed_exactly :
    (∀ c : Challenge, Challenge.IsOpening c.command → (Bytes.ofString c.login).length ≤ Challenge.maxLogin →
      (∀ more, Frame.lengthOf (c.encode ++ more) = .ok (some c.encode.length)) ∧
        Challenge.decode c.encode = .ok c) ∧
    (∀ p : LogonProof, (∀ t ∈ p.token, (Bytes.ofString t).length ≤ 255) →
      (∀ more, Frame.lengthOf (p.encode ++ more) = .ok (some p.encode.length)) ∧
        ∃ flags, LogonProof.decode p.encode = .ok { p with securityFlags := flags } ∧
          (flags &&& SecurityFlag.authenticator ≠ 0 ↔ p.token.isSome = true) ∧
          flags &&& ~~~SecurityFlag.authenticator = p.securityFlags &&& ~~~SecurityFlag.authenticator) ∧
    (∀ p : ReconnectProof,
      (∀ more, Frame.lengthOf (p.encode ++ more) = .ok (some p.encode.length)) ∧
        ReconnectProof.decode p.encode = .ok p) ∧
    FramesExactly Challenge.read Challenge.encode ∧ FramesExactly LogonProof.read LogonProof.encode ∧
    FramesExactly ReconnectProof.read ReconnectProof.encode := by
  refine ⟨?_, ?_, ?_, ?_, ?_, ?_⟩
  · intro c hc hl
    exact ⟨Frame.lengthOf_append (Challenge.lengthOf_encode hc hl), Challenge.decode_encode hc hl⟩
  · intro p ht
    have hlt : ∀ t ∈ p.token, (Bytes.ofString t).length < 256 := fun t h => Nat.lt_succ_of_le (ht t h)
    exact ⟨Frame.lengthOf_append (LogonProof.lengthOf_encode hlt), p.sentFlags, LogonProof.decode_encode p hlt,
      p.sentFlags_and_ne_zero_iff, p.sentFlags_and_not⟩
  · intro p
    exact ⟨Frame.lengthOf_append p.lengthOf_encode, p.decode_encode⟩
  · refine framesExactly_of_read fun b c rest h => ?_
    obtain ⟨hc, hl, hb⟩ := Challenge.read_eq_ok h
    exact ⟨hb, Challenge.lengthOf_encode hc hl⟩
  · refine framesExactly_of_read fun b p rest h => ?_
    obtain ⟨ht, hb⟩ := LogonProof.read_eq_ok h
    exact ⟨hb, LogonProof.lengthOf_encode ht⟩
  · exact framesExactly_of_read fun b p rest h => ⟨ReconnectProof.read_eq_ok h, p.lengthOf_encode⟩

end RealmLogon
