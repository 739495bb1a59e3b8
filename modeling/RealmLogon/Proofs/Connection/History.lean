import RealmLogon.Proofs.Connection.Conversation
import RealmLogon.Proofs.Session.Stage

/-! What lies behind a connection, whatever it is at: its session has answered one frame after the other. Facts about
sessions are lifted from here to connections, without another look at the buffer, the writing and the deadline. -/

namespace RealmLogon

namespace Frame

variable {opcode : UInt8} {r : Rule} {b : Bytes} {n : Nat}

theorem byteAt_take {i : Nat} (h : i < n) (b : Bytes) : byteAt (b.take n) i = byteAt b i := by
  unfold byteAt
  rw [List.getElem?_take_of_lt h]

theorem challengeLength_take (h : challengeLength b = .ok (some n)) :
    4 ≤ n ∧ challengeLength (b.take n) = .ok (some n) := by
  have hn : 4 ≤ n := by
    unfold challengeLength at h
    cases hl : byteAt b 2 with
    | error e => simp [hl, bind, Except.bind] at h
    | ok low =>
      cases hh : byteAt b 3 with
      | error e => simp [hl, hh, bind, Except.bind] at h
      | ok high =>
        simp only [hl, hh, bind, Except.bind] at h
        split at h
        · cases h
        · cases h
          omega
  unfold challengeLength at h ⊢
  rw [byteAt_take (by omega), byteAt_take (by omega)]
  exact ⟨hn, h⟩

theorem proofLength_take (h : proofLength b = .ok (some n)) :
    LogonProof.size ≤ n ∧ proofLength (b.take n) = .ok (some n) := by
  have hat : LogonProof.flagsAt < LogonProof.size := by decide
  unfold proofLength at h
  cases hf : byteAt b LogonProof.flagsAt with
  | error e => simp [hf, bind, Except.bind] at h
  | ok flags =>
    simp only [hf, bind, Except.bind] at h
    split at h
    · rename_i h0
      cases h
      unfold proofLength
      rw [byteAt_take hat, hf]
      exact ⟨Nat.le_refl _, if_pos h0⟩
    · rename_i h0
      cases hx : b[LogonProof.size]? with
      | none => simp [hx] at h
      | some x =>
        simp only [hx, Option.map_some, Except.ok.injEq, Option.some.injEq] at h
        have hlt : LogonProof.size < n := by omega
        unfold proofLength
        rw [byteAt_take (by omega), hf, List.getElem?_take_of_lt hlt, hx]
        simp only [bind, Except.bind, if_neg h0, Option.map_some, h]
        exact ⟨by omega, trivial⟩

theorem length_take (hr : rule opcode = .ok r) (h : r.length b = .ok (some n)) (hn : n ≤ b.length) :
    r.length (b.take n) = .ok (some n) := by
  have hl : (b.take n).length = n := List.length_take_of_le hn
  rcases length_cases hr with hc | hc | ⟨m, -, -, hc⟩
  · rw [hc] at h ⊢
    split at h
    · cases h
    · obtain ⟨h4, ht⟩ := challengeLength_take h
      rw [hl, if_neg (by omega), ht]
  · rw [hc] at h ⊢
    split at h
    · cases h
    · obtain ⟨hs, ht⟩ := proofLength_take h
      rw [hl, if_neg (by omega), ht]
  · rw [hc] at h ⊢
    split at h
    · cases h
    · cases h
      rw [hl, if_neg (Nat.lt_irrefl _)]

end Frame

namespace Session

theorem nextFrame_take {s : Session} {b : Bytes} {c : Command} {n : Nat}
    (h : s.nextFrame b = .ok (some (c, n))) : s.nextFrame (b.take n) = .ok (some (c, (b.take n).length)) := by
  have hpos := (nextFrame_bounds h).1
  obtain ⟨opcode, rest, r, rfl, hr, hp, rfl, hl, hn⟩ := nextFrame_eq_some h
  have hlength : ((opcode :: rest).take n).length = n := List.length_take_of_le hn
  have ht := Frame.length_take hr hl hn
  obtain ⟨m, rfl⟩ : ∃ m, n = m + 1 := ⟨n - 1, by omega⟩
  rw [hlength]
  rw [List.take_succ_cons] at ht hlength ⊢
  simp only [nextFrame, hr, ht]
  rw [if_neg fun hne => hne hp, if_pos (Nat.le_of_eq hlength.symm)]

end Session

namespace Connection

open Session

/-- A session between two frames, with all that has happened before. -/
inductive Served (svc : Service) (peer : Endpoint) : List Event → Session → Prop
  | admitted {banned : Except DirectoryError Bool} (h : banned.toOption.getD false = false) :
      Served svc peer [.called (.isIpBanned peer.ip) banned] { peer := peer }
  | turnedAway {banned : Except DirectoryError Bool} (h : banned.toOption.getD false = true) :
      Served svc peer [.called (.isIpBanned peer.ip) banned, .replied bannedReply]
        { peer := peer, phase := .closed }
  | answered {t : List Event} {s s' : Session} (h : Served svc peer t s) {c : Command} {frame : Bytes}
      (hn : s.nextFrame frame = .ok (some (c, frame.length))) {es : List Event} {reply : Bytes}
      (hy : (s.dispatch svc c frame).Yields es (s', .ok reply)) :
      Served svc peer (t ++ .taken s.phase c frame :: es ++ [.replied reply]) s'

/-- A frame is being answered: the questions so far have led to what is left of the decision. -/
inductive Answering (svc : Service) (peer : Endpoint) : List Event → Session → Phase → Flow Outcome → Prop
  | taken {t : List Event} {s : Session} (h : Served svc peer t s) {c : Command} {frame : Bytes}
      (hn : s.nextFrame frame = .ok (some (c, frame.length))) {es : List Event} {f : Flow Outcome}
      (hl : (s.dispatch svc c frame).Leads es f) :
      Answering svc peer (t ++ .taken s.phase c frame :: es) s s.phase f

/-- An error that no handler gives. -/
inductive Outer : SessionError → Prop
  | wire (e : WireError) : Outer (.wire e)
  | unexpectedState (opcode : UInt8) (phase : Phase) : Outer (.unexpectedState opcode phase)
  | bufferOverflow : Outer .bufferOverflow
  | timeout (phase : Phase) : Outer (.timeout phase)

inductive Ended (svc : Service) (peer : Endpoint) :
    List Event → Session → Except SessionError Unit → Prop
  | unadmitted {t : List Event} {f : Flow Bool} (h : (admission peer.ip).Leads t f) (phase : Phase) :
      Ended svc peer t { peer := peer } (.error (.timeout phase))
  | rested {t : List Event} {s : Session} (h : Served svc peer t s) {r : Except SessionError Unit}
      (hr : ∀ e, r = .error e → Outer e) : Ended svc peer t s r
  | interrupted {t : List Event} {s : Session} {phase : Phase} {f : Flow Outcome}
      (h : Answering svc peer t s phase f) : Ended svc peer t s (.error (.timeout phase))
  | failed {t : List Event} {s s' : Session} {phase : Phase} {e : SessionError}
      (h : Answering svc peer t s phase (.done (s', .error e))) : Ended svc peer t s' (.error e)

/-- What lies behind a connection, whatever it is at. -/
def Held (svc : Service) (peer : Endpoint) (t : List Event) (c : Connection) : Prop :=
  match c.activity with
  | .admitting f => c.session = { peer := peer } ∧ c.buffer = [] ∧ (admission peer.ip).Leads t f
  | .deciding phase f => Answering svc peer t c.session phase f
  | .writing _ _ => Served svc peer t c.session
  | .waiting => Served svc peer t c.session
  | .finished r => Ended svc peer t c.session r

variable {svc : Service} {peer : Endpoint} {t : List Event} {s : Session} {out : Bytes} {c : Connection}
  {w : World}

theorem Answering.answered {phase : Phase} {q : Query} {k : q.Answer → Flow Outcome}
    (h : Answering svc peer t s phase (.ask q k)) (a : q.Answer) :
    Answering svc peer (t ++ [.asked q a]) s phase (k a) := by
  cases h with
  | taken hs hn hl =>
    rw [List.append_assoc]
    exact .taken hs hn (hl.answered a)

theorem outer_of_nextFrame {b : Bytes} {e : SessionError} (h : s.nextFrame b = .error e) : Outer e := by
  unfold nextFrame at h
  split at h
  · cases h
  · split at h
    · cases h
      exact .wire _
    · split at h
      · cases h
        exact .unexpectedState ..
      · split at h
        · cases h
          exact .wire _
        · cases h
        · split at h <;> cases h

theorem held_finish (h : Served svc peer t c.session) {r : Except SessionError Unit}
    (hr : ∀ e, r = .error e → Outer e) : Held svc peer t (c.finish r) := Ended.rested h hr

theorem held_accept (svc : Service) (peer : Endpoint) (time : Nat) : Held svc peer [] (accept svc peer time) :=
  ⟨rfl, rfl, .here _⟩

theorem held_next (h : Served svc peer t c.session) :
    Held svc peer (t ++ upcoming c.session c.buffer) (c.next svc) := by
  unfold next upcoming
  cases hn : c.session.nextFrame c.buffer with
  | error e =>
    rw [List.append_nil]
    refine held_finish h fun e' he => ?_
    cases he
    exact outer_of_nextFrame hn
  | ok r =>
    cases r with
    | none =>
      rw [List.append_nil]
      exact h
    | some r => exact .taken h (nextFrame_take hn) (.here _)

theorem held_admitted {banned : Except DirectoryError Bool} (hs : c.session = { peer := peer }) :
    Held svc peer
      (.called (.isIpBanned peer.ip) banned ::
        if banned.toOption.getD false then [.replied bannedReply] else upcoming c.session c.buffer)
      (c.admitted svc (banned.toOption.getD false)) := by
  cases hb : banned.toOption.getD false with
  | true =>
    have hc : { c.session with phase := .closed } = ({ peer := peer, phase := .closed } : Session) := by rw [hs]
    change Served svc peer _ { c.session with phase := .closed }
    rw [hc]
    exact .turnedAway hb
  | false =>
    have ho : Served svc peer [.called (.isIpBanned peer.ip) banned] c.session := by
      rw [hs]
      exact .admitted hb
    exact held_next ho

theorem held_decided {phase : Phase} {o : Outcome} (h : Answering svc peer t c.session phase (.done o)) :
    Held svc peer (t ++ o.2.toOption.toList.map .replied) (c.decided phase o) := by
  obtain ⟨s', r⟩ := o
  cases r with
  | error e =>
    change Held svc peer (t ++ []) _
    rw [List.append_nil]
    exact Ended.failed h
  | ok reply =>
    generalize hs : c.session = s at h
    cases h with
    | taken hs hn hl => exact Served.answered hs hn hl

theorem held_decide (h : Held svc peer t c) (w : World) :
    Held svc peer (t ++ c.decideTells w) (c.decide svc w).1 := by
  obtain ⟨s, b, d, a⟩ := c
  cases a with
  | admitting f =>
    obtain ⟨rfl, rfl, hl⟩ := h
    cases f with
    | done banned =>
      obtain ⟨r, ds, rfl, hk⟩ := Flow.yields_ask_iff.mp hl
      obtain ⟨rfl, rfl⟩ := Flow.yields_done_iff.mp hk
      exact held_admitted rfl
    | ask q k => exact ⟨rfl, rfl, hl.answered _⟩
  | deciding phase f =>
    cases f with
    | done o => exact held_decided h
    | ask q k => exact Answering.answered h _
  | writing phase rest => simpa [decideTells, decide] using h
  | waiting => simpa [decideTells, decide] using h
  | finished r => simpa [decideTells, decide] using h

theorem held_write (h : Held svc peer t c) (time : Nat) (room : Option Nat) :
    Held svc peer (t ++ c.writeTells room) (c.write svc time room).2 := by
  obtain ⟨s, b, d, a⟩ := c
  cases a with
  | writing phase rest =>
    have hst : Served svc peer t s := h
    cases hf : fits room rest with
    | true =>
      by_cases hs : s.phase = .closed
      · have hr : ∀ e, (.ok () : Except SessionError Unit) = .error e → Outer e := by
          intro e he
          cases he
        simp only [writeTells, write, written, hf, hs]
        simpa using held_finish (c := ⟨s, b, d, .writing phase rest⟩) hst hr
      · have hk : True ∧ s.phase ≠ .closed := ⟨trivial, hs⟩
        simp only [writeTells, write, written, hf, hs, if_true, if_pos hk, if_false]
        exact held_next (c := ⟨s, b, deadlineFrom svc s time, .writing phase rest⟩) hst
    | false =>
      simp only [writeTells, write, hf, Bool.false_eq_true, false_and, if_false, List.append_nil]
      exact hst
  | admitting f => simpa [writeTells, write] using h
  | deciding phase f => simpa [writeTells, write] using h
  | waiting => simpa [writeTells, write] using h
  | finished r => simpa [writeTells, write] using h

theorem held_receive (h : Held svc peer t c) (chunk : Bytes) :
    Held svc peer (t ++ c.receiveTells chunk) (c.receive svc chunk) := by
  obtain ⟨s, b, d, a⟩ := c
  cases a with
  | waiting =>
    have hst : Served svc peer t s := h
    by_cases hl : bufferLimit < (b ++ chunk).length
    · simp only [receiveTells, receive, hl, if_true, List.append_nil]
      refine held_finish (c := ⟨s, b ++ chunk, d, .waiting⟩) hst fun e he => ?_
      cases he
      exact .bufferOverflow
    · simp only [receiveTells, receive, hl, if_false]
      exact held_next (c := ⟨s, b ++ chunk, d, .waiting⟩) hst
  | admitting f => simpa [receiveTells, receive] using h
  | deciding phase f => simpa [receiveTells, receive] using h
  | writing phase rest => simpa [receiveTells, receive] using h
  | finished r => simpa [receiveTells, receive] using h

theorem held_endOfInput (h : Held svc peer t c) : Held svc peer t c.endOfInput := by
  obtain ⟨s, b, d, a⟩ := c
  cases a with
  | waiting =>
    refine held_finish (c := ⟨s, b, d, .waiting⟩) h fun e he => ?_
    cases he
  | admitting f => exact h
  | deciding phase f => exact h
  | writing phase rest => exact h
  | finished r => exact h

theorem held_expire (h : Held svc peer t c) : Held svc peer t c.expire := by
  have ht (phase : Phase) : ∀ e, (.error (.timeout phase) : Except SessionError Unit) = .error e → Outer e := by
    intro e he
    cases he
    exact .timeout phase
  obtain ⟨s, b, d, a⟩ := c
  cases a with
  | admitting f =>
    obtain ⟨rfl, rfl, hl⟩ := h
    exact Ended.unadmitted hl _
  | deciding phase f => exact Ended.interrupted h
  | writing phase rest => exact held_finish (c := ⟨s, b, d, .writing phase rest⟩) h (ht phase)
  | waiting => exact held_finish (c := ⟨s, b, d, .waiting⟩) h (ht s.phase)
  | finished r => exact h

theorem kept_held (svc : Service) (peer : Endpoint) : Kept svc fun t _ c _ => Held svc peer t c where
  decide h := held_decide h _
  write h time room := held_write h time room
  receive h chunk := held_receive h chunk
  endOfInput h := held_endOfInput h
  expire h := held_expire h

theorem held_of_conversation (h : Conversation svc peer t out c w) : Held svc peer t c := by
  induction h with
  | accept time w => exact held_accept svc peer time
  | decide h ih => exact held_decide ih _
  | write h time room ih => exact held_write ih time room
  | receive h chunk ih => exact held_receive ih chunk
  | endOfInput h ih => exact held_endOfInput ih
  | expire h ih => exact held_expire ih
  | elsewhere h w' ih => exact ih

end Connection

end RealmLogon
