import RealmLogon.Proofs.Probe.Receive
import RealmLogon.Proofs.Wire.Room

/-! How long a client waits. A reply that is still too short can be settled by the bytes that follow it, with one
exception: a realm list whose declared size has no room for the entries that it counts. -/

namespace RealmLogon.Talk

open RealmList

/-- If no bytes settle a reply, the client reads until the server closes the connection. -/
theorem receiveAfter_of_vain {σ α : Type} [Peer σ] {decode : Bytes → Except WireError α} {buffer : Bytes}
    (h : ∀ more, Lacks (decode (buffer ++ more))) (s : σ × World) :
    ∃ n s', receiveAfter decode buffer s = (.error (.closedAfter n), s') := by
  induction hn : Peer.stock s.1 using Nat.strongRecOn generalizing buffer s with
  | ind n ih =>
    have hl : Lacks (decode buffer) := by
      have hl := h []
      rwa [List.append_nil] at hl
    by_cases hr : (Peer.read s).1 = []
    · refine ⟨buffer.length, (Peer.read s).2, ?_⟩
      rw [receiveAfter_of_end hl (Prod.ext hr rfl)]
      obtain ⟨needed, got, hl⟩ := hl
      rw [hl]
      rfl
    · have hstock := Peer.stock_read s hr
      rw [receiveAfter_of_read hl rfl hr]
      refine ih _ (hn ▸ hstock) (fun more => ?_) _ rfl
      rw [List.append_assoc]
      exact h _

/-- Whatever has come of a reply to a challenge or to a proof, there are bytes that settle it. So it is for a realm list
as long as its declared size has room for what is missing, and when the whole body has come, its decoder has the last
word. Without room no bytes settle a list that is too short, and only the server ends the client's wait, by closing the
connection. -/
theorem wait_can_end_with_room (b : Bytes) (e : Expansion) :
    (∃ more, Settled (ChallengeReply.decode (b ++ more))) ∧
    (∃ more, Settled (LogonProofReply.decode (b ++ more) e)) ∧
    (∃ more, Settled (ReconnectChallengeReply.decode (b ++ more))) ∧
    (∃ more, Settled (ReconnectProofReply.decode (b ++ more))) ∧
    (HasRoom e b → ∃ more, Settled (RealmList.decode (b ++ more) e)) ∧
    (3 + declaredSize b ≤ b.length → ∀ more, RealmList.decode (b ++ more) e = RealmList.decode b e) ∧
    (¬HasRoom e b → Lacks (RealmList.decode b e) →
      (∀ more, Lacks (RealmList.decode (b ++ more) e)) ∧
      ∀ (σ : Type) [Peer σ] (s : σ × World), ∃ n s',
        receiveAfter (fun c => RealmList.decode c e) b s = (.error (.closedAfter n), s')) := by
  refine ⟨ChallengeReply.suffices_read.cure b, (LogonProofReply.suffices_read e).cure b,
    ReconnectChallengeReply.suffices_read.cure b, ReconnectProofReply.suffices_read.cure b, exists_settled,
    fun hb => decode_append_of_body hb e, fun hr hl => ?_⟩
  have hvain := lacks_of_not_hasRoom hr hl
  exact ⟨hvain, fun σ _ s => receiveAfter_of_vain hvain s⟩

/-- A realm list that declares no bytes for its body is never settled. -/
theorem empty_body_never_settled :
    ∃ needed got, RealmList.decode ([0x10, 0, 0] ++ [1, 2, 3]) .post = .error (.packetTooSmall needed got) := by
  obtain ⟨-, -, -, -, -, -, hvain⟩ := wait_can_end_with_room [0x10, 0, 0] .post
  have hl : Lacks (RealmList.decode [0x10, 0, 0] .post) := ⟨4, 0, rfl⟩
  exact (hvain (by decide) hl).1 [1, 2, 3]

end RealmLogon.Talk
