import RealmLogon.Proofs.Wire.Shortage
import RealmLogon.Wire.LogonProof
import RealmLogon.Wire.Reconnect

/-! Reads that so many bytes are enough for. A decoder of this kind never asks in vain: with as many bytes more, it
gives a value or finds a fault. -/

namespace RealmLogon

/-- A fault that more bytes cannot mend: the message is not too short, and no read went past its end. -/
def WireError.IsFinal : WireError → Prop
  | .packetTooSmall _ _ | .overrun => False
  | _ => True

/-- An answer that more bytes are not needed for. -/
def Settled {α : Type} (x : Except WireError α) : Prop := ∀ e, x = .error e → e.IsFinal

theorem Settled.not_lacks {α : Type} {x : Except WireError α} (h : Settled x) : ¬Lacks x := by
  rintro ⟨needed, got, hx⟩
  exact h _ hx

namespace Reader

variable {α β : Type} {r : Reader α} {k : α → Reader β} {b d : Bytes} {a : α} {m n : Nat}

theorem settled_ok (a : α) : Settled (.ok a : Except WireError α) := by
  intro e h
  cases h

theorem settled_error {e : WireError} (h : e.IsFinal) : Settled (.error e : Except WireError α) := by
  rintro _ ⟨⟩
  exact h

theorem settled_bind (h : Settled (r b)) (hk : ∀ a rest, r b = .ok (a, rest) → Settled (k a rest)) :
    Settled ((r >>= k) b) := by
  intro e he
  rcases bind_eq_error he with hr | ⟨a, rest, hr, hke⟩
  · exact h e hr
  · exact hk a rest hr e hke

theorem decode_eq_error {e : WireError} (h : decode r b = .error e) : r b = .error e := by
  rw [decode, StateT.run] at h
  cases hr : r b with
  | ok x =>
    rw [hr] at h
    cases h
  | error f =>
    rw [hr] at h
    cases h
    rfl

theorem settled_decode (h : Settled (r b)) : Settled (decode r b) := fun e he => h e (decode_eq_error he)

/-- Any bytes of this number are a message. -/
def Sized (n : Nat) (r : Reader α) : Prop := ∀ b : Bytes, b.length = n → ∃ a, Takes r b a

theorem sized_pure (a : α) : Sized 0 (pure a : Reader α) := by
  intro b hb
  rw [List.length_eq_zero_iff.mp hb]
  exact ⟨a, takes_pure a⟩

theorem sized_byte : Sized 1 byte := by
  intro b hb
  obtain ⟨x, rfl⟩ := List.length_eq_one_iff.mp hb
  exact ⟨x, takes_byte x⟩

theorem sized_octets (n : Nat) : Sized n (octets n) := fun b hb => ⟨⟨b, hb⟩, takes_octets ⟨b, hb⟩⟩

theorem sized_skip (n : Nat) : Sized n (skip n) := by
  rintro b rfl
  exact ⟨(), takes_skip b⟩

theorem Sized.bind (h : Sized m r) (hk : ∀ a, Sized n (k a)) : Sized (m + n) (r >>= k) := by
  intro b hb
  obtain ⟨a, ha⟩ := h (b.take m) (by rw [List.length_take]; omega)
  obtain ⟨c, hc⟩ := hk a (b.drop m) (by rw [List.length_drop]; omega)
  rw [← List.take_append_drop m b]
  exact ⟨c, ha.bind hc⟩

theorem sized_word16 : Sized 2 word16 := (sized_octets 2).bind fun _ => sized_pure _

theorem sized_word32 : Sized 4 word32 := (sized_octets 4).bind fun _ => sized_pure _

theorem Sized.append (h : Sized n r) (hb : n ≤ b.length) :
    ∃ a, ∀ more, r (b ++ more) = .ok (a, b.drop n ++ more) := by
  obtain ⟨a, ha⟩ := h (b.take n) (by rw [List.length_take]; omega)
  refine ⟨a, fun more => ?_⟩
  have hr := ha (b.drop n ++ more)
  rwa [← List.append_assoc, List.take_append_drop] at hr

theorem Sized.apply (h : Sized n r) (hb : n ≤ b.length) : ∃ a, r b = .ok (a, b.drop n) := by
  obtain ⟨a, ha⟩ := h.append hb
  have hr := ha []
  rw [List.append_nil, List.append_nil] at hr
  exact ⟨a, hr⟩

/-- On so many bytes the read has no need of more, and it takes no more than these. -/
structure Suffices (n : Nat) (r : Reader α) : Prop where
  settles : ∀ {b : Bytes}, n ≤ b.length → Settled (r b)
  spares : ∀ {b rest : Bytes} {a : α}, n ≤ b.length → r b = .ok (a, rest) → b.length ≤ rest.length + n

theorem Sized.suffices (h : Sized n r) : Suffices n r where
  settles := by
    intro b hb
    obtain ⟨a, ha⟩ := h.apply hb
    rw [ha]
    exact settled_ok _
  spares := by
    intro b rest c hb hr
    obtain ⟨a, ha⟩ := h.apply hb
    rw [ha] at hr
    cases hr
    rw [List.length_drop]
    omega

theorem suffices_pure (a : α) : Suffices 0 (pure a : Reader α) := (sized_pure a).suffices

theorem suffices_fail {e : WireError} (h : e.IsFinal) : Suffices 0 (fail e : Reader α) where
  settles _ := settled_error h
  spares _ h := by cases h

theorem Suffices.mono (h : Suffices m r) (hmn : m ≤ n) : Suffices n r where
  settles hl := h.settles (Nat.le_trans hmn hl)
  spares hl hr := Nat.le_trans (h.spares (Nat.le_trans hmn hl) hr) (Nat.add_le_add_left hmn _)

theorem Suffices.bind (h : Suffices m r) (hk : ∀ a, Suffices n (k a)) : Suffices (m + n) (r >>= k) where
  settles := by
    intro b hl
    refine settled_bind (h.settles (by omega)) fun a rest hr => ?_
    have hs := h.spares (by omega) hr
    exact (hk a).settles (by omega)
  spares := by
    intro b rest c hl he
    obtain ⟨a, mid, hr, hke⟩ := bind_eq_ok he
    have hs := h.spares (by omega) hr
    have ht := (hk a).spares (by omega) hke
    omega

theorem Suffices.guard {r : Unit → Reader α} (h : Suffices n (r ())) (hm : m ≤ n) :
    Suffices n (ensure m >>= r) where
  settles := by
    intro b hl
    rw [ensure_apply (by omega)]
    exact h.settles hl
  spares := by
    intro b rest a hl hr
    rw [ensure_apply (by omega)] at hr
    exact h.spares hl hr

theorem Suffices.ite {p : Prop} [Decidable p] {s : Reader α} (hr : Suffices n r) (hs : Suffices n s) :
    Suffices n (if p then r else s) := by
  split
  · exact hr
  · exact hs

theorem Suffices.check {p : Prop} [Decidable p] {e : WireError} {k : Unit → Reader α} (he : e.IsFinal)
    (h : Suffices n (k ())) : Suffices n (if p then fail e >>= k else k ()) := by
  split
  · exact ⟨fun _ => settled_error he, fun _ hr => by cases hr⟩
  · exact h

theorem suffices_field (n : Nat) : Suffices n (field n) := (sized_octets n).suffices.guard (Nat.le_refl n)

theorem suffices_command (c : Command) : Suffices 1 (command c) := by
  refine Suffices.guard (sized_byte.suffices.bind (n := 0) fun code => ?_) (Nat.le_refl 1)
  exact Suffices.ite (suffices_pure ()) (suffices_fail trivial)

theorem suffices_verdict : Suffices 1 verdict := by
  refine Suffices.guard (sized_byte.suffices.bind (n := 0) fun code => ?_) (Nat.le_refl 1)
  cases Verdict.ofCode? code with
  | some v => exact suffices_pure v
  | none => exact suffices_fail trivial

/-- Bytes of any value make up for what is missing. -/
theorem Suffices.cure (h : Suffices n r) (b : Bytes) : ∃ more, Settled (decode r (b ++ more)) := by
  refine ⟨List.replicate n 0, settled_decode (h.settles ?_)⟩
  rw [List.length_append, List.length_replicate]
  omega

end Reader

open Reader

theorem ChallengeReply.suffices_skipExtra (flags flag : UInt8) (n : Nat) : Suffices n (skipExtra flags flag n) :=
  Suffices.ite ((suffices_pure ()).mono (Nat.zero_le n)) ((sized_skip n).suffices.guard (Nat.le_refl n))

theorem ChallengeReply.suffices_readOffer : Suffices 149 readOffer := by
  refine (suffices_field 32).bind (n := 117) fun serverKey => ?_
  refine Suffices.guard ?_ (by decide)
  refine (sized_skip 1).suffices.bind (n := 116) fun _ => ?_
  refine sized_byte.suffices.bind (n := 115) fun generator => ?_
  refine sized_byte.suffices.bind (n := 114) fun primeLength => ?_
  refine Suffices.check trivial ?_
  refine (suffices_field 32).bind (n := 82) fun prime => ?_
  refine (suffices_field 32).bind (n := 50) fun salt => ?_
  refine (suffices_field 16).bind (n := 34) fun versionChallenge => ?_
  refine Suffices.guard ?_ (by decide)
  refine sized_byte.suffices.bind (n := 33) fun flags => ?_
  refine (suffices_skipExtra flags SecurityFlag.pin 20).bind (n := 13) fun _ => ?_
  refine (suffices_skipExtra flags SecurityFlag.matrix 12).bind (n := 1) fun _ => ?_
  exact (suffices_skipExtra flags SecurityFlag.authenticator 1).bind fun _ => suffices_pure _

theorem ChallengeReply.suffices_read : Suffices 152 read := by
  refine (suffices_command _).bind (n := 151) fun _ => ?_
  refine Suffices.guard ?_ (by decide)
  refine (sized_skip 1).suffices.bind (n := 150) fun _ => ?_
  refine suffices_verdict.bind (n := 149) fun v => ?_
  exact Suffices.ite (suffices_readOffer.bind fun _ => suffices_pure _) ((suffices_pure _).mono (Nat.zero_le _))

theorem LogonProofReply.suffices_read (e : Expansion) : Suffices 32 (read e) := by
  refine (suffices_command _).bind (n := 31) fun _ => ?_
  refine suffices_verdict.bind (n := 30) fun v => ?_
  refine Suffices.ite ((suffices_pure _).mono (Nat.zero_le _)) ?_
  refine (suffices_field 20).bind (n := 10) fun serverProof => ?_
  refine Suffices.ite ?_ ?_
  · refine Suffices.guard ?_ (by decide)
    refine sized_word32.suffices.bind (n := 6) fun accountFlags => ?_
    refine sized_word32.suffices.bind (n := 2) fun surveyId => ?_
    exact sized_word16.suffices.bind fun _ => suffices_pure _
  · refine Suffices.guard ?_ (by decide)
    exact (sized_word32.suffices.bind fun _ => suffices_pure _).mono (by decide)

theorem ReconnectChallengeReply.suffices_read : Suffices 34 read := by
  refine (suffices_command _).bind (n := 33) fun _ => ?_
  refine suffices_verdict.bind (n := 32) fun v => ?_
  refine Suffices.ite ((suffices_pure _).mono (Nat.zero_le _)) ?_
  refine (suffices_field 16).bind (n := 16) fun challenge => ?_
  exact (suffices_field 16).bind fun _ => suffices_pure _

theorem ReconnectProofReply.suffices_read : Suffices 2 read := by
  refine (suffices_command _).bind (n := 1) fun _ => ?_
  exact suffices_verdict.bind fun _ => suffices_pure _

end RealmLogon
