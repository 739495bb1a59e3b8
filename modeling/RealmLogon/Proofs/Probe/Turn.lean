import RealmLogon.Proofs.Connection.Link
import RealmLogon.Proofs.Probe.Receive

/-! One turn of a talk with a host: the client sends a message, the host answers it, and the client reads until it
has the whole reply. -/

namespace RealmLogon

open Connection

/-- A decoder gives a value for a reply, and asks for more as long as the reads have brought a part of it. -/
structure Decodes {α : Type} (decode : Bytes → Except WireError α) (reply : Bytes) (a : α) : Prop where
  whole : decode reply = .ok a
  part : ∀ n, n * readSize < reply.length →
    ∃ needed got, decode (reply.take (n * readSize)) = .error (.packetTooSmall needed got)

theorem decodes_of_short {α : Type} {decode : Bytes → Except WireError α} {reply : Bytes} {a : α}
    (hl : reply.length ≤ readSize) (hz : decode [] = .error (.packetTooSmall 1 0)) (h : decode reply = .ok a) :
    Decodes decode reply a := by
  refine ⟨h, fun n hn => ?_⟩
  cases n with
  | zero =>
    rw [Nat.zero_mul, List.take_zero]
    exact ⟨1, 0, hz⟩
  | succ n =>
    rw [Nat.succ_mul] at hn
    omega

namespace Host

/-- The connection of the client has come to rest, with bytes for the client to read. -/
def Stands (h : Host) (r : Rest) (out : Bytes) : Prop :=
  ∃ l, h.served = some ⟨h.service, l⟩ ∧ l.Stands h.service r out

/-- The connection waits for the client's next message, and the world is `w` when it has come so far. -/
def Awaits (h : Host) (s : Session) (w : World) : Prop :=
  ∃ l, h.served = some ⟨h.service, l⟩ ∧ l.Awaits h.service h.world s w

theorem Stands.awaits {h : Host} {s : Session} (hs : h.Stands (.waiting s []) []) : h.Awaits s h.world := by
  obtain ⟨l, hl, hs⟩ := hs
  exact ⟨l, hl, hs.awaits h.world⟩

def answered (h : Host) (l : Link) (w : World) : Host := { h with served := some ⟨h.service, l⟩, world := w }

theorem send_of_awaits {h : Host} {s : Session} {w : World} (ha : h.Awaits s w) {m : Bytes} (hm : m ≠ [])
    (hl : m.length ≤ bufferLimit) :
    ∃ l, (∀ client, send m (h, client) = some (h.answered l (serve h.service s m w).2.2, client)) ∧
      l.Stands h.service (serve h.service s m w).2.1 (serve h.service s m w).1 := by
  obtain ⟨l, hserved, ha⟩ := ha
  obtain ⟨l', hadvance, hs⟩ := ha.advance hm hl
  have hlapse : l'.lapse 0 = l' := by
    simp only [Link.lapse, hs.punctual.early, Bool.false_eq_true, if_false]
  have hsend : Served.send m (⟨h.service, l⟩, h.world) =
      some (⟨h.service, l'⟩, (serve h.service s m w).2.2) := by
    simp only [Served.send, ha.isFinished, Bool.false_eq_true, if_false, Served.advance, hadvance, hlapse]
  refine ⟨l', fun client => ?_, hs⟩
  simp only [send, hserved, bind, Option.bind, hsend]
  rfl

end Host

namespace Talk

section Run

variable {σ α β : Type} {x : Talk σ α} {k : α → Talk σ β} {s s' : σ × World}

theorem run_bind (x : Talk σ α) (k : α → Talk σ β) (s : σ × World) :
    (x >>= k).run s =
      match x.run s with
      | (.ok a, s') => (k a).run s'
      | (.error e, s') => (.error e, s') := by
  change (match x.run s with | (r, s') => (ExceptT.bindCont k r : StateM (σ × World) (Except ProbeError β)) s') = _
  rcases x.run s with ⟨r, s'⟩
  cases r <;> rfl

theorem run_bind_ok {a : α} (h : x.run s = (.ok a, s')) : (x >>= k).run s = (k a).run s' := by
  rw [run_bind, h]

theorem run_bind_error {e : ProbeError} (h : x.run s = (.error e, s')) : (x >>= k).run s = (.error e, s') := by
  rw [run_bind, h]

theorem run_send [Peer σ] {b : Bytes} (h : Peer.send b s = some s') :
    (send b : Talk σ Unit).run s = (.ok (), s') := by
  change send b s = _
  unfold send
  rw [h]

theorem run_draw (n : Nat) (far : σ) (client : World) :
    (draw n : Talk σ (Octets n)).run (far, client) =
      (.ok (client.entropy.peek n), (far, { client with entropy := client.entropy.skip n })) := rfl

theorem run_receiveNonce [Peer σ] {nonce : Exchange.Nonce} {v : Octets 16}
    (h : (receive ReconnectChallengeReply.decode).run s = (.ok (.nonce nonce v), s')) :
    receiveNonce.run s = (.ok nonce, s') := by
  rw [receiveNonce, run_bind_ok h]
  rfl

end Run

variable {α : Type}

theorem read_answered {h : Host} {l : Link} {r : Rest} {out : Bytes} (hs : l.Stands h.service r out)
    (ho : out ≠ []) (w client : World) :
    Peer.read (h.answered l w, client) =
      (out.take readSize, (h.answered { l with outbound := out.drop readSize } w, client)) := by
  change Host.read (h.answered l w, client) = _
  simp only [Host.read, Host.answered, Served.read, hs.outbound, if_neg ho]

/-- Reads bring the reply in parts, and the last of them completes it. -/
theorem receiveAfter_eq {decode : Bytes → Except WireError α} {reply : Bytes} {a : α}
    (hd : Decodes decode reply a) {r : Rest} {out buffer : Bytes} (hr : buffer ++ out = reply)
    (hn : out = [] ∨ ∃ n, buffer.length = n * readSize) {h : Host} {l : Link}
    (hs : l.Stands h.service r out) (w client : World) :
    receiveAfter decode buffer (h.answered l w, client) =
      (.ok a, (h.answered { l with outbound := [] } w, client)) := by
  -- All reads but the last are full, so the buffer stops at places where the decoder asks for more.
  induction hlen : out.length using Nat.strongRecOn generalizing out buffer l with
  | ind length ih =>
    by_cases ho : out = []
    · have hl : { l with outbound := [] } = l := by
        rw [← ho, ← hs.outbound]
      have hwhole : decode buffer = .ok a := by
        rw [← hd.whole, ← hr, ho, List.append_nil]
      rw [receiveAfter_of_not_lacks (hwhole ▸ Reader.not_lacks_ok a), hwhole, hl]
      rfl
    · obtain ⟨n, hn⟩ := hn.resolve_left ho
      have hpos := List.length_pos_iff.mpr ho
      have hbuffer : buffer = reply.take (n * readSize) := by
        rw [← hr, ← hn, List.take_left' rfl]
      have hlt : n * readSize < reply.length := by
        rw [← hr, ← hn, List.length_append]
        omega
      have hlacks : Lacks (decode buffer) := hbuffer ▸ hd.part n hlt
      have hsize : readSize = 1024 := rfl
      have hne : out.take readSize ≠ [] := by
        intro hnil
        have htake := congrArg List.length hnil
        rw [List.length_take, List.length_nil] at htake
        omega
      have hdrop : (out.drop readSize).length < length := by
        rw [List.length_drop]
        omega
      have hnext : out.drop readSize = [] ∨ ∃ n, (buffer ++ out.take readSize).length = n * readSize := by
        by_cases hle : out.length ≤ readSize
        · exact .inl (List.drop_eq_nil_of_le hle)
        · refine .inr ⟨n + 1, ?_⟩
          rw [List.length_append, List.length_take, hn, Nat.succ_mul]
          omega
      have hwhole : buffer ++ out.take readSize ++ out.drop readSize = reply := by
        rw [List.append_assoc, List.take_append_drop, hr]
      have hstands : Link.Stands h.service { l with outbound := out.drop readSize } r (out.drop readSize) :=
        ⟨hs.rest, hs.punctual, hs.inbound, rfl, hs.inputClosed, hs.capacity⟩
      rw [receiveAfter_of_read hlacks (read_answered hs ho w client) hne]
      exact ih _ hdrop hwhole hnext hstands rfl

/-- A message is answered, and the reply is read. -/
theorem turn {h : Host} {s : Session} {w : World} (ha : h.Awaits s w) {m : Bytes} (hm : m ≠ [])
    (hl : m.length ≤ bufferLimit) {reply : Bytes} {r : Rest} {w' : World}
    (hserve : serve h.service s m w = (reply, r, w')) {decode : Bytes → Except WireError α} {a : α}
    (hd : Decodes decode reply a) :
    ∃ sent received : Host,
      (∀ client, (send m : Talk Host Unit).run (h, client) = (.ok (), (sent, client))) ∧
      (∀ client, (receive decode).run (sent, client) = (.ok a, (received, client))) ∧
      received.service = h.service ∧ received.client = h.client ∧ received.world = w' ∧ received.Stands r [] := by
  obtain ⟨l, hsend, hs⟩ := Host.send_of_awaits ha hm hl
  rw [hserve] at hsend hs
  refine ⟨h.answered l w', h.answered { l with outbound := [] } w', fun client => ?_, fun client => ?_, rfl, rfl,
    rfl, ?_⟩
  · exact run_send (hsend client)
  · exact receiveAfter_eq hd rfl (.inr ⟨0, by simp⟩) hs w' client
  · exact ⟨_, rfl, hs.rest, hs.punctual, hs.inbound, rfl, hs.inputClosed, hs.capacity⟩

end Talk

end RealmLogon
