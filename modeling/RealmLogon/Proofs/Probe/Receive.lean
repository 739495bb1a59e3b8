import RealmLogon.Probe.Talk
import RealmLogon.Proofs.Wire.Shortage

/-! The steps of reading a reply, against any far end. -/

namespace RealmLogon.Talk

variable {σ α : Type} [Peer σ] {decode : Bytes → Except WireError α} {buffer r : Bytes} {s s' : σ × World}

/-- What a reader makes of a decoder's last word on so many bytes, behind which nothing comes. -/
def outcome (x : Except WireError α) (length : Nat) : Except ProbeError α :=
  match x with
  | .ok a => .ok a
  | .error (.packetTooSmall _ _) => .error (.closedAfter length)
  | .error e => .error (.malformed e)

theorem outcome_eq {x : Except WireError α} (h : ¬Lacks x) (m n : Nat) : outcome x m = outcome x n := by
  cases x with
  | ok a => rfl
  | error e =>
    cases e with
    | packetTooSmall needed got => exact absurd ⟨needed, got, rfl⟩ h
    | _ => rfl

theorem receiveAfter_of_not_lacks (h : ¬Lacks (decode buffer)) :
    receiveAfter decode buffer s = (outcome (decode buffer) buffer.length, s) := by
  rw [receiveAfter]
  cases hd : decode buffer with
  | ok a => rfl
  | error e =>
    cases e with
    | packetTooSmall needed got => exact absurd ⟨needed, got, hd⟩ h
    | _ => rfl

theorem receiveAfter_of_read (h : Lacks (decode buffer)) (hr : Peer.read s = (r, s')) (hne : r ≠ []) :
    receiveAfter decode buffer s = receiveAfter decode (buffer ++ r) s' := by
  obtain ⟨needed, got, h⟩ := h
  rw [receiveAfter]
  simp only [h, hr, dif_neg hne]

theorem receiveAfter_of_end (h : Lacks (decode buffer)) (hr : Peer.read s = ([], s')) :
    receiveAfter decode buffer s = (outcome (decode buffer) buffer.length, s') := by
  obtain ⟨needed, got, h⟩ := h
  rw [receiveAfter]
  simp only [h, hr, dif_pos, outcome]

end RealmLogon.Talk
