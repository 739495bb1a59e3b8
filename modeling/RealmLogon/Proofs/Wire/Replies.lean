import RealmLogon.Proofs.Wire.Messages

/-! Replies that come in parts. A decoder answers with the reply once all of its bytes are there, whatever follows them,
and asks for more bytes at every place before. -/

namespace RealmLogon

open Reader

/-- The decoder finds a value in these bytes, and asks for more in everything shorter. -/
structure DecodesIncrementally {α : Type} (decode : Bytes → Except WireError α) (b : Bytes) (a : α) : Prop where
  complete : ∀ more, decode (b ++ more) = .ok a
  partly : ∀ p, p <+: b → p ≠ b → ∃ needed got, decode p = .error (.packetTooSmall needed got)

namespace Reader

variable {α β : Type} {r : Reader α} {k : α → Reader β} {b d : Bytes} {a : α} {n : Nat}

/-- The read asks for more as long as any of these bytes is missing behind the first ones. -/
def AwaitsBehind (n : Nat) (r : Reader α) (b : Bytes) : Prop := ∀ m, n ≤ m → m < b.length → Lacks (r (b.take m))

theorem Awaits.behind (h : Awaits r b) : AwaitsBehind 0 r b := fun m _ hm => h m hm

theorem AwaitsBehind.ensure {k : Unit → Reader β} (h : AwaitsBehind n (k ()) b) : Awaits (ensure n >>= k) b := by
  intro m hm
  have hl : (b.take m).length = m := List.length_take_of_le (Nat.le_of_lt hm)
  by_cases hn : m < n
  · exact lacks_ensure (hl.symm ▸ hn) k
  · rw [ensure_apply (by omega)]
    exact h m (Nat.not_lt.mp hn) hm

theorem AwaitsBehind.bind (ht : Takes r b a) (h : AwaitsBehind n (k a) d) :
    AwaitsBehind (b.length + n) (r >>= k) (b ++ d) := by
  intro m hn hm
  rw [List.length_append] at hm
  rw [List.take_append, List.take_of_length_le (by omega), ht.apply]
  exact h _ (by omega) (by omega)

theorem Awaits.silent (ht : Takes r [] a) (h : Awaits (k a) b) : Awaits (r >>= k) b := by
  intro m hm
  have hr := ht.apply k (b.take m)
  rw [List.nil_append] at hr
  rw [hr]
  exact h m hm

theorem Takes.decodesIncrementally (ht : Takes r b a) (h : Awaits r b) :
    DecodesIncrementally (Reader.decode r) b a where
  complete := ht.decode_append
  partly := by
    intro p hp hne
    have hlt : p.length < b.length := Nat.lt_of_le_of_ne hp.length_le fun he => hne (hp.eq_of_length he)
    rw [List.prefix_iff_eq_take.mp hp]
    exact h.decode_take hlt

end Reader

namespace ChallengeReply

/-- Only the flags tell whether one more byte belongs to an offer. -/
theorem awaits_sentExtra (o : ChallengeOffer) (k : Unit → Reader ChallengeOffer) :
    Awaits (skipExtra (sentFlags o) SecurityFlag.authenticator 1 >>= k) (sentExtra o) := by
  have hs : sentFlags o &&& SecurityFlag.authenticator = sentFlags o := by
    rw [sentFlags, UInt8.and_assoc, UInt8.and_self]
  by_cases h : sentFlags o = 0
  · rw [sentExtra, if_pos h]
    exact fun n hn => absurd hn (Nat.not_lt_zero n)
  · rw [skipExtra, hs, if_neg h, sentExtra, if_neg h]
    exact (awaits_ensure rfl _).first k

theorem awaits_offer (o : ChallengeOffer) :
    Awaits readOffer (o.serverKey.toList ++ ([1] ++ ([o.generator] ++ ([32] ++ (o.prime.toList ++
      (o.salt.toList ++ (o.versionChallenge.toList ++ ([sentFlags o] ++ sentExtra o)))))))) := by
  have hn : ¬UInt8.toNat 32 ≠ 32 := by decide
  refine Awaits.bind (takes_field _) (awaits_field _) ?_
  refine AwaitsBehind.ensure ?_
  refine AwaitsBehind.bind (n := 2) (takes_skip [1]) ?_
  refine AwaitsBehind.bind (n := 1) (takes_byte _) ?_
  refine AwaitsBehind.bind (n := 0) (takes_byte _) ?_
  simp only [if_neg hn]
  refine Awaits.behind ?_
  refine Awaits.bind (takes_field _) (awaits_field _) ?_
  refine Awaits.bind (takes_field _) (awaits_field _) ?_
  refine Awaits.bind (takes_field _) (awaits_field _) ?_
  refine Awaits.guard rfl (takes_byte _) ?_
  refine Awaits.silent (takes_skipExtra (sentFlags_and o (by decide)) 20) ?_
  refine Awaits.silent (takes_skipExtra (sentFlags_and o (by decide)) 12) ?_
  exact awaits_sentExtra o _

theorem awaits_encode (r : ChallengeReply) : Awaits read r.encode := by
  cases r with
  | offer o =>
    rw [encode_offer]
    refine Awaits.bind (takes_command _) (awaits_command _) ?_
    refine AwaitsBehind.ensure ?_
    refine AwaitsBehind.bind (n := 1) (takes_skip [0]) ?_
    refine AwaitsBehind.bind (n := 0) (takes_verdict _) ?_
    rw [if_pos rfl]
    exact ((awaits_offer o).first _).behind
  | failure v => exact Awaits.bind (takes_command _) (awaits_command _) (awaits_ensure rfl _)

end ChallengeReply

namespace LogonProofReply

theorem awaits_extended (d : Digest) (a s : UInt32) (l : UInt16) :
    Awaits (read .post) (LogonProofReply.extended d a s l).encode := by
  rw [encode_extended]
  refine Awaits.bind (takes_command _) (awaits_command _) ?_
  refine Awaits.bind (takes_verdict _) (awaits_verdict _) ?_
  have hn : ¬Verdict.success ≠ .success := by decide
  simp only [if_neg hn, if_true]
  refine Awaits.bind (takes_field _) (awaits_field _) ?_
  exact awaits_ensure (by simp) _

theorem awaits_legacy (d : Digest) (s : UInt32) {e : Expansion} (h : e ≠ .post) :
    Awaits (read e) (LogonProofReply.legacy d s).encode := by
  rw [encode_legacy]
  refine Awaits.bind (takes_command _) (awaits_command _) ?_
  refine Awaits.bind (takes_verdict _) (awaits_verdict _) ?_
  have hn : ¬Verdict.success ≠ .success := by decide
  simp only [if_neg hn]
  refine Awaits.bind (takes_field _) (awaits_field _) ?_
  rw [if_neg h]
  exact awaits_ensure (by simp) _

end LogonProofReply

/-- What a client reads of a reply: of the security flags of an offer only the authenticator is sent. -/
def ChallengeReply.received : ChallengeReply → ChallengeReply
  | .offer o => .offer { o with securityFlags := o.securityFlags &&& SecurityFlag.authenticator }
  | .failure v => .failure v

/-- Challenge and proof replies can be read as their bytes come: the decoder finds the whole reply as soon as it is
there, whatever follows it, and asks for more bytes at each place before. A refusal says something else than success,
and the two layouts of an accepted proof are read by the generation that each is for. -/
theorem replies_decode_incrementally :
    (∀ r : ChallengeReply, r ≠ .failure .success → DecodesIncrementally ChallengeReply.decode r.encode r.received) ∧
    (∀ r : ReconnectChallengeReply, r ≠ .failure .success →
      DecodesIncrementally ReconnectChallengeReply.decode r.encode r) ∧
    (∀ proof accountFlags surveyId loginFlags,
      DecodesIncrementally (LogonProofReply.decode · .post)
        (LogonProofReply.extended proof accountFlags surveyId loginFlags).encode
        (.extended proof accountFlags surveyId loginFlags)) ∧
    ∀ proof surveyId,
      DecodesIncrementally (LogonProofReply.decode · .pre) (LogonProofReply.legacy proof surveyId).encode
        (.legacy proof surveyId) := by
  refine ⟨?_, ?_, ?_, ?_⟩
  · intro r hr
    refine Takes.decodesIncrementally ?_ r.awaits_encode
    cases r with
    | offer o => exact ChallengeReply.takes_encode_offer o
    | failure v => exact ChallengeReply.takes_failure fun hv => hr (hv ▸ rfl)
  · intro r hr
    refine Takes.decodesIncrementally ?_ r.awaits_encode
    cases r with
    | nonce challenge salt => exact ReconnectChallengeReply.takes_nonce challenge salt
    | failure v => exact ReconnectChallengeReply.takes_failure fun hv => hr (hv ▸ rfl)
  · intro proof accountFlags surveyId loginFlags
    exact (LogonProofReply.takes_extended proof accountFlags surveyId loginFlags).decodesIncrementally
      (LogonProofReply.awaits_extended proof accountFlags surveyId loginFlags)
  · intro proof surveyId
    have he : Expansion.pre ≠ .post := by decide
    exact (LogonProofReply.takes_legacy proof surveyId he).decodesIncrementally
      (LogonProofReply.awaits_legacy proof surveyId he)

end RealmLogon
