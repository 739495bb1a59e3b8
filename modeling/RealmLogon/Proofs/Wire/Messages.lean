import RealmLogon.Proofs.Wire.Shortage
import RealmLogon.Wire.LogonProof
import RealmLogon.Wire.Reconnect

/-! Messages are decoded to what was encoded. -/

namespace RealmLogon

open Reader

namespace Challenge

def IsOpening (c : Command) : Prop := c = .logonChallenge ∨ c = .reconnectChallenge

theorem takes_opening {c : Command} (h : IsOpening c) : Takes (opening c.code) [] c := by
  intro rest
  rcases h with rfl | rfl <;> rfl

theorem takes_checkSize {n : Nat} {w : UInt16} (hw : w.toNat = sizedHeader + n) (hn : n ≤ maxLogin) :
    Takes (checkSize w n) [] () := by
  intro rest
  rw [checkSize, if_neg (by omega), if_neg (by omega)]
  rfl

def declared (c : Challenge) : UInt16 := UInt16.ofNat (sizedHeader + (Bytes.ofString c.login).length)

theorem toNat_declared {c : Challenge} (h : (Bytes.ofString c.login).length ≤ maxLogin) :
    c.declared.toNat = sizedHeader + (Bytes.ofString c.login).length := by
  have hs : sizedHeader = 30 := rfl
  have hm : maxLogin = 16 := rfl
  rw [declared, UInt16.toNat_ofNat']
  omega

theorem encode_eq {c : Challenge} (h : (Bytes.ofString c.login).length ≤ maxLogin) :
    c.encode = [c.command.code] ++ ([c.error] ++ (LittleEndian.word16 c.declared ++ (c.gameName.toList ++
      (c.version.toList ++ (LittleEndian.word16 c.build ++ (c.platform.toList ++ (c.os.toList ++
      (c.country.toList ++ (LittleEndian.word32 c.timezoneBias ++ (c.ip.toList ++
      ([UInt8.ofNat (Bytes.ofString c.login).length] ++ Bytes.ofString c.login))))))))))) := by
  have hd : LittleEndian.word16 c.declared =
      LittleEndian.digits 2 (sizedHeader + (Bytes.ofString c.login).length) := by
    rw [LittleEndian.word16, toNat_declared h]
  rw [hd]
  simp [encode]

theorem length_encode (c : Challenge) : c.encode.length = headerSize + (Bytes.ofString c.login).length := by
  simp [encode, headerSize]
  omega

theorem takes_encode {c : Challenge} (hc : IsOpening c.command)
    (hl : (Bytes.ofString c.login).length ≤ maxLogin) : Takes read c.encode c := by
  have hm : maxLogin = 16 := rfl
  have hn : (UInt8.ofNat (Bytes.ofString c.login).length).toNat = (Bytes.ofString c.login).length := by
    rw [UInt8.toNat_ofNat']
    omega
  have hsize : headerSize ≤ c.encode.length := by
    rw [length_encode]
    omega
  refine Takes.ensure ?_ hsize
  rw [encode_eq hl]
  refine (takes_byte _).bind ?_
  refine (takes_opening hc).silent ?_
  refine (takes_byte _).bind ?_
  refine (takes_word16 _).bind ?_
  refine (takes_field _).bind ?_
  refine (takes_field _).bind ?_
  refine (takes_word16 _).bind ?_
  refine (takes_field _).bind ?_
  refine (takes_field _).bind ?_
  refine (takes_field _).bind ?_
  refine (takes_word32 _).bind ?_
  refine (takes_field _).bind ?_
  refine (takes_byte _).bind ?_
  rw [hn]
  refine (takes_checkSize (toNat_declared hl) hl).silent ?_
  exact (takes_text c.login .invalidLogin).map fun rest => rfl

theorem decode_encode {c : Challenge} (hc : IsOpening c.command)
    (hl : (Bytes.ofString c.login).length ≤ maxLogin) : decode c.encode = .ok c :=
  (takes_encode hc hl).decode

end Challenge

namespace LogonProof

def sentFlags (p : LogonProof) : UInt8 :=
  if p.token.isSome then p.securityFlags ||| SecurityFlag.authenticator
  else p.securityFlags &&& ~~~SecurityFlag.authenticator

def sentToken (p : LogonProof) : Bytes :=
  match p.token with
  | some token => UInt8.ofNat (Bytes.ofString token).length :: Bytes.ofString token
  | none => []

theorem encode_eq (p : LogonProof) :
    p.encode = [Command.logonProof.code] ++ (p.clientKey.toList ++ (p.proof.toList ++ (p.versionProof.toList ++
      ([p.keyCount] ++ ([p.sentFlags] ++ p.sentToken))))) := by
  cases h : p.token <;> simp [encode, sentFlags, sentToken, h]

theorem or_authenticator (f : UInt8) : (f ||| SecurityFlag.authenticator) &&& SecurityFlag.authenticator ≠ 0 := by
  intro h
  have hb := congrArg (fun x : UInt8 => x.toBitVec.getLsbD 2) h
  simp [SecurityFlag.authenticator] at hb

theorem and_not_authenticator (f : UInt8) :
    (f &&& ~~~SecurityFlag.authenticator) &&& SecurityFlag.authenticator = 0 := by
  have h : ~~~SecurityFlag.authenticator &&& SecurityFlag.authenticator = 0 := by decide
  rw [UInt8.and_assoc, h, UInt8.and_zero]

theorem takes_readToken (p : LogonProof) (h : ∀ t ∈ p.token, (Bytes.ofString t).length < 256) :
    Takes (readToken p.sentFlags) p.sentToken p.token := by
  cases ht : p.token with
  | none =>
    have hf : p.sentFlags &&& SecurityFlag.authenticator = 0 := by
      simp only [sentFlags, ht, Option.isSome_none, Bool.false_eq_true, if_false]
      exact and_not_authenticator p.securityFlags
    simp only [readToken, if_pos hf, sentToken, ht]
    exact takes_pure none
  | some t =>
    have hf : ¬p.sentFlags &&& SecurityFlag.authenticator = 0 := by
      simp only [sentFlags, ht, Option.isSome_some, if_true]
      exact or_authenticator p.securityFlags
    have hn : (UInt8.ofNat (Bytes.ofString t).length).toNat = (Bytes.ofString t).length := by
      rw [UInt8.toNat_ofNat']
      exact Nat.mod_eq_of_lt (h t ht)
    simp only [readToken, if_neg hf, sentToken, ht]
    refine Takes.ensure ?_ (by simp)
    refine (takes_byte _).bind (d := Bytes.ofString t) ?_
    rw [hn]
    exact (takes_text t .malformedString).map fun rest => rfl

theorem takes_encode (p : LogonProof) (h : ∀ t ∈ p.token, (Bytes.ofString t).length < 256) :
    Takes read p.encode { p with securityFlags := p.sentFlags } := by
  have hsize : size ≤ p.encode.length := by
    rw [encode_eq]
    simp [size]
    omega
  refine Takes.ensure ?_ hsize
  rw [encode_eq]
  refine (takes_command _).bind ?_
  refine (takes_field _).bind ?_
  refine (takes_field _).bind ?_
  refine (takes_field _).bind ?_
  refine (takes_byte _).bind ?_
  refine (takes_byte _).bind ?_
  exact (takes_readToken p h).map fun rest => rfl

theorem decode_encode (p : LogonProof) (h : ∀ t ∈ p.token, (Bytes.ofString t).length < 256) :
    decode p.encode = .ok { p with securityFlags := p.sentFlags } := (takes_encode p h).decode

end LogonProof

namespace ReconnectProof

theorem takes_encode (p : ReconnectProof) : Takes read p.encode p := by
  have he : p.encode = [Command.reconnectProof.code] ++ (p.clientRandom.toList ++ (p.proof.toList ++
      (p.versionProof.toList ++ [p.keyCount]))) := by
    simp [encode]
  have hsize : size ≤ p.encode.length := by
    rw [he]
    simp [size]
  refine Takes.ensure ?_ hsize
  rw [he]
  refine (takes_command _).bind ?_
  refine (takes_field _).bind ?_
  refine (takes_field _).bind ?_
  refine (takes_field _).bind ?_
  exact (takes_byte _).map fun rest => rfl

theorem decode_encode (p : ReconnectProof) : decode p.encode = .ok p := (takes_encode p).decode

end ReconnectProof

namespace ChallengeReply

theorem takes_skipExtra {flags flag : UInt8} (h : flags &&& flag = 0) (n : Nat) :
    Takes (skipExtra flags flag n) [] () := by
  rw [skipExtra, if_pos h]
  exact takes_pure ()

/-- Of an offer only the flag of the authenticator goes over the wire. -/
def sentFlags (o : ChallengeOffer) : UInt8 := o.securityFlags &&& SecurityFlag.authenticator

def sentExtra (o : ChallengeOffer) : Bytes := if sentFlags o = 0 then [] else [1]

theorem takes_sentExtra (o : ChallengeOffer) :
    Takes (skipExtra (sentFlags o) SecurityFlag.authenticator 1) (sentExtra o) () := by
  have hs : sentFlags o &&& SecurityFlag.authenticator = sentFlags o := by
    rw [sentFlags, UInt8.and_assoc, UInt8.and_self]
  by_cases h : sentFlags o = 0
  · rw [skipExtra, hs, if_pos h, sentExtra, if_pos h]
    exact takes_pure ()
  · rw [skipExtra, hs, if_neg h, sentExtra, if_neg h]
    exact Takes.ensure (takes_skip [1]) (by simp)

theorem sentFlags_and {flag : UInt8} (o : ChallengeOffer) (h : SecurityFlag.authenticator &&& flag = 0) :
    sentFlags o &&& flag = 0 := by
  rw [sentFlags, UInt8.and_assoc, h, UInt8.and_zero]

theorem takes_offer (o : ChallengeOffer) :
    Takes readOffer (o.serverKey.toList ++ ([1] ++ ([o.generator] ++ ([32] ++ (o.prime.toList ++
      (o.salt.toList ++ (o.versionChallenge.toList ++ ([sentFlags o] ++ sentExtra o))))))))
      { o with securityFlags := sentFlags o } := by
  refine (takes_field _).bind ?_
  refine Takes.ensure ?_ (by simp)
  refine (takes_skip [1]).bind ?_
  refine (takes_byte _).bind ?_
  refine (takes_byte _).bind ?_
  have hn : ¬UInt8.toNat 32 ≠ 32 := by decide
  simp only [if_neg hn]
  refine (takes_field _).bind ?_
  refine (takes_field _).bind ?_
  refine (takes_field _).bind ?_
  refine Takes.ensure ?_ (by simp)
  refine (takes_byte _).bind ?_
  refine (takes_skipExtra (sentFlags_and o (by decide)) 20).silent ?_
  refine (takes_skipExtra (sentFlags_and o (by decide)) 12).silent ?_
  exact (takes_sentExtra o).map fun rest => rfl

theorem encode_offer (o : ChallengeOffer) :
    (ChallengeReply.offer o).encode = [Command.logonChallenge.code] ++ ([0] ++ ([Verdict.success.code] ++
      (o.serverKey.toList ++ ([1] ++ ([o.generator] ++ ([32] ++ (o.prime.toList ++ (o.salt.toList ++
        (o.versionChallenge.toList ++ ([sentFlags o] ++ sentExtra o)))))))))) := by
  simp [encode, sentFlags, sentExtra]
  rfl

theorem takes_encode_offer (o : ChallengeOffer) :
    Takes read (ChallengeReply.offer o).encode (.offer { o with securityFlags := sentFlags o }) := by
  rw [encode_offer]
  refine (takes_command _).bind ?_
  refine Takes.ensure ?_ (by simp)
  refine (takes_skip [0]).bind ?_
  refine (takes_verdict _).bind ?_
  rw [if_pos rfl]
  exact (takes_offer o).map fun rest => rfl

theorem decode_offer (o : ChallengeOffer) :
    decode (ChallengeReply.offer o).encode = .ok (.offer { o with securityFlags := sentFlags o }) :=
  (takes_encode_offer o).decode

theorem takes_failure {v : Verdict} (hv : v ≠ .success) :
    Takes read (ChallengeReply.failure v).encode (.failure v) := by
  have he : (ChallengeReply.failure v).encode = [Command.logonChallenge.code] ++ ([0] ++ [v.code]) := rfl
  rw [he]
  refine (takes_command _).bind ?_
  refine Takes.ensure ?_ (by simp)
  refine (takes_skip [0]).bind ?_
  refine (takes_verdict _).map fun rest => ?_
  rw [if_neg hv]
  rfl

theorem decode_failure {v : Verdict} (hv : v ≠ .success) :
    decode (ChallengeReply.failure v).encode = .ok (.failure v) := (takes_failure hv).decode

end ChallengeReply

namespace LogonProofReply

theorem encode_extended (d : Digest) (a s : UInt32) (l : UInt16) :
    (LogonProofReply.extended d a s l).encode = [Command.logonProof.code] ++ ([Verdict.success.code] ++
      (d.toList ++ (LittleEndian.word32 a ++ (LittleEndian.word32 s ++ LittleEndian.word16 l)))) := by
  simp [encode]

theorem takes_extended (d : Digest) (a s : UInt32) (l : UInt16) :
    Takes (read .post) (LogonProofReply.extended d a s l).encode (.extended d a s l) := by
  rw [encode_extended]
  refine (takes_command _).bind ?_
  refine (takes_verdict _).bind ?_
  have hn : ¬Verdict.success ≠ .success := by decide
  simp only [if_neg hn, if_true]
  refine (takes_field _).bind ?_
  refine Takes.ensure ?_ (by simp)
  refine (takes_word32 _).bind ?_
  refine (takes_word32 _).bind ?_
  exact (takes_word16 _).map fun rest => rfl

theorem decode_extended (d : Digest) (a s : UInt32) (l : UInt16) :
    decode (LogonProofReply.extended d a s l).encode .post = .ok (.extended d a s l) := (takes_extended d a s l).decode

theorem encode_legacy (d : Digest) (s : UInt32) :
    (LogonProofReply.legacy d s).encode = [Command.logonProof.code] ++ ([Verdict.success.code] ++
      (d.toList ++ LittleEndian.word32 s)) := by
  simp [encode]

theorem takes_legacy (d : Digest) (s : UInt32) {e : Expansion} (h : e ≠ .post) :
    Takes (read e) (LogonProofReply.legacy d s).encode (.legacy d s) := by
  rw [encode_legacy]
  refine (takes_command _).bind ?_
  refine (takes_verdict _).bind ?_
  have hn : ¬Verdict.success ≠ .success := by decide
  simp only [if_neg hn]
  refine (takes_field _).bind ?_
  rw [if_neg h]
  refine Takes.ensure ?_ (by simp)
  exact (takes_word32 _).map fun rest => rfl

theorem decode_legacy (d : Digest) (s : UInt32) {e : Expansion} (h : e ≠ .post) :
    decode (LogonProofReply.legacy d s).encode e = .ok (.legacy d s) := (takes_legacy d s h).decode

end LogonProofReply

namespace ReconnectChallengeReply

theorem encode_nonce (c : Exchange.Nonce) (v : Octets 16) :
    (ReconnectChallengeReply.nonce c v).encode = [Command.reconnectChallenge.code] ++
      ([Verdict.success.code] ++ (c.toList ++ v.toList)) := by
  simp [encode]

theorem takes_nonce (c : Exchange.Nonce) (v : Octets 16) :
    Takes read (ReconnectChallengeReply.nonce c v).encode (.nonce c v) := by
  rw [encode_nonce]
  refine (takes_command _).bind ?_
  refine (takes_verdict _).bind ?_
  have hn : ¬Verdict.success ≠ .success := by decide
  simp only [if_neg hn]
  refine (takes_field _).bind ?_
  exact (takes_field _).map fun rest => rfl

theorem decode_nonce (c : Exchange.Nonce) (v : Octets 16) :
    decode (ReconnectChallengeReply.nonce c v).encode = .ok (.nonce c v) := (takes_nonce c v).decode

theorem awaits_encode (r : ReconnectChallengeReply) : Awaits read r.encode := by
  cases r with
  | nonce c v =>
    rw [encode_nonce]
    refine Awaits.bind (takes_command _) (awaits_command _) ?_
    refine Awaits.bind (takes_verdict _) (awaits_verdict _) ?_
    have hn : ¬Verdict.success ≠ .success := by decide
    simp only [if_neg hn]
    exact Awaits.bind (takes_field _) (awaits_field _) ((awaits_field _).first _)
  | failure v => exact Awaits.bind (takes_command _) (awaits_command _) ((awaits_verdict v).first _)

theorem takes_failure {v : Verdict} (hv : v ≠ .success) :
    Takes read (ReconnectChallengeReply.failure v).encode (.failure v) := by
  refine Takes.bind (b := [Command.reconnectChallenge.code]) (takes_command _) ?_
  refine (takes_verdict _).map fun rest => ?_
  rw [if_pos hv]
  rfl

theorem decode_failure {v : Verdict} (hv : v ≠ .success) :
    decode (ReconnectChallengeReply.failure v).encode = .ok (.failure v) := (takes_failure hv).decode

end ReconnectChallengeReply

namespace ReconnectProofReply

theorem decode_success : decode ReconnectProofReply.success.encode = .ok .success := rfl

theorem awaits_failure (v : Verdict) : Awaits read (ReconnectProofReply.failure v).encode :=
  Awaits.bind (takes_command _) (awaits_command _) ((awaits_verdict v).first _)

/-- A refusal that says success is read as a success. -/
theorem takes_failure (v : Verdict) :
    Takes read (ReconnectProofReply.failure v).encode (if v = .success then .success else .failure v) := by
  refine Takes.bind (b := [Command.reconnectProof.code]) (takes_command _) ?_
  exact (takes_verdict v).map fun rest => rfl

/-- A success has two bytes more than its decoder takes. -/
theorem encode_success : ReconnectProofReply.success.encode =
    (ReconnectProofReply.failure .success).encode ++ List.replicate 2 0 := rfl

end ReconnectProofReply

end RealmLogon
