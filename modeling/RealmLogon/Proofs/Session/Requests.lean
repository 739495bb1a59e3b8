import RealmLogon.Proofs.Wire.Frames

/-! Each message of a client is one frame, in the phase that it belongs to. -/

namespace RealmLogon

namespace Session

variable {s : Session}

theorem nextFrame_of_rule {opcode : UInt8} {b : Bytes} {r : Frame.Rule} {n : Nat}
    (hr : Frame.rule opcode = .ok r) (hp : r.phase = s.phase) (hl : r.length (opcode :: b) = .ok (some n))
    (hn : n = (opcode :: b).length) :
    s.nextFrame (opcode :: b) = .ok (some (r.command, (opcode :: b).length)) := by
  simp only [nextFrame, hr, hl]
  rw [if_neg fun hne => hne hp, if_pos (Nat.le_of_eq hn), hn]

theorem nextFrame_challenge {c : Challenge} (hc : Challenge.IsOpening c.command)
    (hl : (Bytes.ofString c.login).length ≤ Challenge.maxLogin) (hs : s.phase = .challenge) :
    s.nextFrame c.encode = .ok (some (c.command, c.encode.length)) :=
  nextFrame_of_rule (Challenge.rule_eq hc) hs.symm (Challenge.length_frame hc hl) rfl

theorem nextFrame_logonProof {p : LogonProof} (ht : ∀ t ∈ p.token, (Bytes.ofString t).length < 256)
    (hs : s.phase = .logonProof) : s.nextFrame p.encode = .ok (some (.logonProof, p.encode.length)) :=
  nextFrame_of_rule (r := ⟨.logonProof, .logonProof, LogonProof.size⟩) rfl hs.symm (LogonProof.length_frame ht) rfl

theorem nextFrame_reconnectProof (p : ReconnectProof) (hs : s.phase = .reconnectProof) :
    s.nextFrame p.encode = .ok (some (.reconnectProof, p.encode.length)) :=
  nextFrame_of_rule (r := ⟨.reconnectProof, .reconnectProof, ReconnectProof.size⟩) rfl hs.symm p.length_frame rfl

theorem nextFrame_realmList (hs : s.phase = .authed) :
    s.nextFrame realmListRequest = .ok (some (.realmList, realmListRequest.length)) :=
  nextFrame_of_rule (r := ⟨.realmList, .authed, realmListRequestSize⟩) rfl hs.symm rfl rfl

end Session

end RealmLogon
