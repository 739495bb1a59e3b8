import RealmLogon.Proofs.Probe.Turn
import RealmLogon.Proofs.Wire.Layout
import RealmLogon.Proofs.Wire.Messages

/-! Replies that come in pieces. A server answers each request at once, and what is on its way reaches the client in
reads of any size. The result of a reconnect does not depend on these sizes; the result of the realm list that follows
it does, because the reply to a proof has two bytes more than its decoder takes. -/

namespace RealmLogon

/-- A server with what it has written, and a network that cuts this into reads. -/
structure Delivery where
  answer : Bytes → Bytes
  /-- Bytes that the client has not read yet. -/
  underway : Bytes
  /-- The sizes of the next reads. A read delivers a byte at least, if there is one, and when no size is left it
  delivers what there is. -/
  sizes : List Nat
  /-- The sizes of the reads after each of the next messages. -/
  ahead : List (List Nat)

namespace Delivery

def size (sizes : List Nat) : Nat := min readSize (max 1 (sizes.headD readSize))

def send (b : Bytes) (s : Delivery × World) : Option (Delivery × World) :=
  some ({ s.1 with
    underway := s.1.underway ++ s.1.answer b
    sizes := s.1.ahead.headD []
    ahead := s.1.ahead.tail }, s.2)

def read (s : Delivery × World) : Bytes × (Delivery × World) :=
  let n := size s.1.sizes
  (s.1.underway.take n, { s.1 with underway := s.1.underway.drop n, sizes := s.1.sizes.tail }, s.2)

theorem size_pos (sizes : List Nat) : 0 < size sizes := by
  have hr : readSize = 1024 := rfl
  unfold size
  omega

theorem length_read (s : Delivery × World) (h : (read s).1 ≠ []) :
    (read s).2.1.underway.length < s.1.underway.length := by
  have hn := size_pos s.1.sizes
  have hu : s.1.underway ≠ [] := by
    intro hu
    simp [read, hu] at h
  have hl := List.length_pos_iff.mpr hu
  simp only [read, List.length_drop]
  omega

instance : Peer Delivery := ⟨send, read, fun s => s.underway.length, length_read⟩

/-- The bytes that come behind the first `n` bytes, in the read that brings the last of them. -/
def beyond (n : Nat) (sizes : List Nat) : Nat :=
  if size sizes < n then beyond (n - size sizes) sizes.tail else size sizes - n
termination_by n
decreasing_by
  have := size_pos sizes
  omega

def replies (r₁ : ReconnectChallengeReply) (r₂ : ReconnectProofReply) (e : Expansion) (realms : List RealmEntry)
    (b : Bytes) : Bytes :=
  match b.head?.bind Command.ofCode? with
  | some .reconnectChallenge => r₁.encode
  | some .reconnectProof => r₂.encode
  | some .realmList => RealmList.encode e realms
  | _ => []

/-- The beginning of a delivery, with the sizes of the reads after each of three requests. -/
def start (r₁ : ReconnectChallengeReply) (r₂ : ReconnectProofReply) (e : Expansion) (realms : List RealmEntry)
    (c₁ c₂ c₃ : List Nat) : Delivery :=
  ⟨replies r₁ r₂ e realms, [], [], [c₁, c₂, c₃]⟩

/-- The result of a reconnect that gets these replies. A refusal of the challenge that says success does not end it, so
the client waits for a nonce. -/
def resumed : ReconnectChallengeReply → ReconnectProofReply → Except ProbeError Unit
  | .failure v, _ => .error (if v = .success then .closedAfter 2 else .rejected .reconnectChallenge v)
  | .nonce _ _, .success => .ok ()
  | .nonce _ _, .failure v => if v = .success then .ok () else .error (.rejected .reconnectProof v)

/-- Bytes of the replies to a reconnect that are still under way when it has ended. -/
def stranded : ReconnectChallengeReply → ReconnectProofReply → List Nat → Nat
  | .nonce _ _, .success, c₂ => 2 - beyond 2 c₂
  | _, _, _ => 0

theorem read_eq (p : Delivery) (w : World) : Peer.read (p, w) = (p.underway.take (size p.sizes),
    { p with underway := p.underway.drop (size p.sizes), sizes := p.sizes.tail }, w) := rfl

theorem read_ne_nil {p : Delivery} (h : p.underway ≠ []) : p.underway.take (size p.sizes) ≠ [] := by
  have hn := size_pos p.sizes
  have hl := List.length_pos_iff.mpr h
  intro he
  have hlen := congrArg List.length he
  rw [List.length_take, List.length_nil] at hlen
  omega

end Delivery

namespace Talk

open Delivery

variable {α : Type} {r : Reader α} {front back buffer : Bytes} {p : Delivery}

theorem receiveAfter_awaited (hx : back = [] ∨ Reader.Decides r front) {j : Nat} (hp : p.underway = back.drop j)
    (w : World) :
    ∃ sizes, receiveAfter (Reader.decode r) (front ++ back.take j) (p, w) =
      (outcome (Reader.decode r front) front.length, ({ p with sizes := sizes }, w)) := by
  rcases hx with rfl | hd
  · rw [List.take_nil, List.append_nil]
    by_cases hl : Lacks (Reader.decode r front)
    · refine ⟨p.sizes.tail, receiveAfter_of_end hl ?_⟩
      simp only [read_eq, hp, List.drop_nil, List.take_nil]
    · exact ⟨p.sizes, receiveAfter_of_not_lacks hl⟩
  · have he := hd.append (back.take j)
    have hl : ¬Lacks (Reader.decode r (front ++ back.take j)) := he ▸ hd.settles
    refine ⟨p.sizes, ?_⟩
    rw [receiveAfter_of_not_lacks hl, he]
    exact congrArg (·, _) (outcome_eq hd.settles _ _)

/-- Reads go on until all is there that the decoder awaits, whatever their sizes are; and what comes behind it in the
last of them is lost. -/
theorem receiveAfter_cut (ha : Reader.Awaits r front) (hx : back = [] ∨ Reader.Decides r front)
    (hb : buffer ++ p.underway = front ++ back) (hl : buffer.length < front.length) (w : World) :
    ∃ sizes, receiveAfter (Reader.decode r) buffer (p, w) = (outcome (Reader.decode r front) front.length,
      ({ p with underway := back.drop (beyond (front.length - buffer.length) p.sizes), sizes := sizes }, w)) := by
  induction hn : front.length - buffer.length using Nat.strongRecOn generalizing p buffer with
  | ind n ih =>
    have hlacks : Lacks (Reader.decode r buffer) := by
      have ht : buffer = front.take buffer.length := by
        rw [← List.take_append_of_le_length (Nat.le_of_lt hl), ← hb, List.take_left' rfl]
      rw [ht]
      exact ha.decode_take hl
    have hlen := congrArg List.length hb
    simp only [List.length_append] at hlen
    have hu : p.underway ≠ [] := by
      intro hu
      rw [hu, List.length_nil] at hlen
      omega
    have hpos := size_pos p.sizes
    rw [receiveAfter_of_read hlacks (read_eq p w) (read_ne_nil hu), beyond]
    -- The next read ends within what is awaited, or it brings the last of it.
    by_cases hlt : size p.sizes < n
    · have hshort : (buffer ++ p.underway.take (size p.sizes)).length = buffer.length + size p.sizes := by
        rw [List.length_append, List.length_take]
        omega
      rw [if_pos hlt]
      refine ih (n - size p.sizes) (by omega) ?_ (by omega) (by omega)
      rw [List.append_assoc, List.take_append_drop, hb]
    · have hcut : buffer.length + size p.sizes = front.length + (size p.sizes - n) := by omega
      have htake : buffer ++ p.underway.take (size p.sizes) = front ++ back.take (size p.sizes - n) := by
        rw [← List.take_length_add_append, hb, hcut, List.take_length_add_append]
      have hdrop : p.underway.drop (size p.sizes) = back.drop (size p.sizes - n) := by
        have h := congrArg (List.drop (buffer.length + size p.sizes)) hb
        rwa [List.drop_length_add_append, hcut, List.drop_length_add_append] at h
      rw [if_neg hlt, htake, ← hdrop]
      exact receiveAfter_awaited hx hdrop w

variable {sizes : List Nat} {w : World}

theorem run_receive_whole {reply : Bytes} (ha : Reader.Awaits r reply) (hne : reply ≠ []) (hp : p.underway = reply) :
    ∃ sizes, (receive (Reader.decode r)).run (p, w) =
      (outcome (Reader.decode r reply) reply.length, ({ p with underway := [], sizes := sizes }, w)) := by
  have hb : [] ++ p.underway = reply ++ [] := by rw [hp, List.nil_append, List.append_nil]
  obtain ⟨sizes, h⟩ := receiveAfter_cut ha (.inl rfl) hb (List.length_pos_iff.mpr hne) w
  rw [List.drop_nil] at h
  exact ⟨sizes, h⟩

/-- A success of a proof leaves under way what the reads did not bring with its first two bytes. -/
theorem run_receive_success (hp : p.underway = ReconnectProofReply.success.encode) :
    ∃ sizes, (receive ReconnectProofReply.decode).run (p, w) =
      (.ok .success,
        ({ p with underway := List.replicate (2 - beyond 2 p.sizes) 0, sizes := sizes }, w)) := by
  have hb : [] ++ p.underway = (ReconnectProofReply.failure .success).encode ++ List.replicate 2 0 := by
    rw [List.nil_append, hp, ReconnectProofReply.encode_success]
  obtain ⟨sizes, h⟩ := receiveAfter_cut (ReconnectProofReply.awaits_failure .success)
    (.inr (ReconnectProofReply.takes_failure .success).decides) hb (by decide) w
  rw [List.drop_replicate] at h
  exact ⟨sizes, h⟩

def resumeAndList {σ : Type} [Peer σ] (i : Identity) (key : Exchange.SessionKey) (s : σ × World) :
    Except ProbeError Unit × Except ProbeError (List RealmEntry) :=
  let resumed := (reconnect i key).run s
  (resumed.1, ((realmList i).run resumed.2).1)

variable {r₁ : ReconnectChallengeReply} {r₂ : ReconnectProofReply} {e : Expansion} {realms : List RealmEntry}

theorem run_receiveNonce_failure {v : Verdict} {s s' : Delivery × World}
    (h : (receive ReconnectChallengeReply.decode).run s =
      (outcome (ReconnectChallengeReply.decode (ReconnectChallengeReply.failure v).encode)
        (ReconnectChallengeReply.failure v).encode.length, s')) :
    receiveNonce.run s =
      (.error (if v = .success then .closedAfter 2 else .rejected .reconnectChallenge v), s') := by
  by_cases hv : v = .success
  · subst hv
    exact run_bind_error h
  · rw [ReconnectChallengeReply.decode_failure hv] at h
    rw [if_neg hv, receiveNonce, run_bind_ok h]
    rfl

/-- The result of a reconnect depends on the replies alone; the sizes of the reads determine what is still under way at
its end. -/
theorem run_reconnect_start (i : Identity) (key : Exchange.SessionKey) (r₁ : ReconnectChallengeReply)
    (r₂ : ReconnectProofReply) (e : Expansion) (realms : List RealmEntry) (c₁ c₂ c₃ : List Nat) (w : World) :
    ∃ p w', (reconnect i key).run (start r₁ r₂ e realms c₁ c₂ c₃, w) = (resumed r₁ r₂, (p, w')) ∧
      p.answer = replies r₁ r₂ e realms ∧ p.underway = List.replicate (stranded r₁ r₂ c₂) 0 := by
  let asked : Delivery := ⟨replies r₁ r₂ e realms, r₁.encode, c₁, [c₂, c₃]⟩
  have hne : r₁.encode ≠ [] := by cases r₁ <;> simp [ReconnectChallengeReply.encode, challengeFailure]
  have hsend : Peer.send (i.challenge .reconnectChallenge).encode (start r₁ r₂ e realms c₁ c₂ c₃, w) =
      some (asked, w) := rfl
  obtain ⟨sizes, hreceive⟩ := run_receive_whole (w := w) (p := asked) r₁.awaits_encode hne rfl
  cases r₁ with
  | failure v =>
    refine ⟨{ asked with underway := [], sizes := sizes }, w, ?_, rfl, rfl⟩
    rw [reconnect, run_bind_ok (run_send hsend), run_bind_error (run_receiveNonce_failure hreceive)]
    rfl
  | nonce n seed =>
    rw [← ReconnectChallengeReply.decode, ReconnectChallengeReply.decode_nonce] at hreceive
    rw [reconnect, run_bind_ok (run_send hsend), run_bind_ok (run_receiveNonce hreceive), run_bind_ok (run_draw ..),
      run_bind_ok (run_send rfl)]
    let proved : Delivery := ⟨replies (.nonce n seed) r₂ e realms, r₂.encode, c₂, [c₃]⟩
    let w' : World := { w with entropy := w.entropy.skip 16 }
    cases r₂ with
    | success =>
      obtain ⟨sizes, hreceive⟩ := run_receive_success (w := w') (p := proved) rfl
      exact ⟨_, _, run_bind_ok hreceive, rfl, rfl⟩
    | failure v =>
      obtain ⟨sizes, hreceive⟩ := run_receive_whole (w := w') (p := proved) (ReconnectProofReply.awaits_failure v)
        (List.cons_ne_nil _ _) rfl
      rw [(ReconnectProofReply.takes_failure v).decode] at hreceive
      refine ⟨{ proved with underway := [], sizes := sizes }, w', (run_bind_ok hreceive).trans ?_, rfl, rfl⟩
      by_cases hv : v = .success
      · simp only [if_pos hv, resumed]
        rfl
      · simp only [if_neg hv, resumed]
        rfl

theorem run_realmList_stranded {n : Nat} (hanswer : p.answer = replies r₁ r₂ e realms)
    (hp : p.underway = List.replicate n 0) (i : Identity) (w : World) :
    ((realmList i).run (p, w)).1 = if n = 0 then
      outcome (RealmList.decode (RealmList.encode e realms) i.expansion) (RealmList.encode e realms).length
    else .error (.malformed (.unexpectedOpcode Command.realmList.code 0)) := by
  let asked : Delivery := ⟨p.answer, List.replicate n 0 ++ RealmList.encode e realms, p.ahead.headD [], p.ahead.tail⟩
  have hsend : Peer.send realmListRequest (p, w) = some (asked, w) := by
    simp only [asked, ← hp, Peer.send, Delivery.send, hanswer]
    rfl
  rw [realmList, run_bind_ok (run_send hsend)]
  cases n with
  | zero =>
    obtain ⟨sizes, hreceive⟩ :=
      run_receive_whole (p := asked) (w := w) (RealmList.awaits_encode e i.expansion realms) (List.cons_ne_nil _ _) rfl
    exact congrArg Prod.fst hreceive
  | succ n =>
    -- The first byte decides the read, because it is not the command.
    have ha : Reader.Awaits (RealmList.read i.expansion) [0] := (Reader.awaits_ensure rfl _).first _
    have hd : Reader.Decides (RealmList.read i.expansion) [0] := by
      refine ⟨?_, fun _ => rfl⟩
      rintro ⟨needed, got, h⟩
      cases h
    have hb : [] ++ asked.underway = [0] ++ (List.replicate n 0 ++ RealmList.encode e realms) := rfl
    obtain ⟨sizes, hreceive⟩ := receiveAfter_cut ha (.inr hd) hb (by decide) w
    exact congrArg Prod.fst hreceive

theorem outcome_ne {x : Except WireError α} {expected actual : UInt8}
    (h : x ≠ .error (.unexpectedOpcode expected actual)) (n : Nat) :
    outcome x n ≠ .error (.malformed (.unexpectedOpcode expected actual)) := by
  intro ho
  cases x with
  | ok a => cases ho
  | error e =>
    cases e with
    | unexpectedOpcode x y =>
      cases ho
      exact h rfl
    | _ => cases ho

/-- However the replies of a server are cut into reads, a reconnect has the same result. The realm list after it has the
same result if and only if no bytes of the success of the proof are still under way when the client asks for the list:
otherwise it takes the first of them for the command of the list. -/
theorem resumeAndList_of_cut (i : Identity) (key : Exchange.SessionKey) (r₁ : ReconnectChallengeReply)
    (r₂ : ReconnectProofReply) (e : Expansion) (realms : List RealmEntry) (c₁ c₂ c₃ : List Nat) (w : World) :
    let cut := resumeAndList i key (start r₁ r₂ e realms c₁ c₂ c₃, w)
    let uncut := resumeAndList i key (start r₁ r₂ e realms [] [] [], w)
    let stray : Except ProbeError (List RealmEntry) := .error (.malformed (.unexpectedOpcode Command.realmList.code 0))
    cut.1 = uncut.1 ∧ cut.2 = (if stranded r₁ r₂ c₂ = 0 then uncut.2 else stray) ∧ uncut.2 ≠ stray := by
  obtain ⟨p, w', hrun, hanswer, hp⟩ := run_reconnect_start i key r₁ r₂ e realms c₁ c₂ c₃ w
  obtain ⟨p', w'', hrun', hanswer', hp'⟩ := run_reconnect_start i key r₁ r₂ e realms [] [] [] w
  have hnone : stranded r₁ r₂ [] = 0 := by
    cases r₁ <;> cases r₂ <;> simp only [stranded]
    rw [beyond]
    rfl
  have hcut := run_realmList_stranded hanswer hp i w'
  have huncut := run_realmList_stranded hanswer' hp' i w''
  rw [hnone, if_pos rfl] at huncut
  simp only [resumeAndList, hrun, hrun', hcut, huncut, true_and]
  exact outcome_ne (RealmList.decode_encode_ne e i.expansion realms _ _) _

end Talk

end RealmLogon
