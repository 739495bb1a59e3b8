import RealmLogon.Connection.Run
import RealmLogon.Proofs.Session.Transcript

/-! All that can happen to a connection, move by move: it decides and writes, and bytes, the end of the input
and timers come at any time, while others change the world. A run is one of these conversations. -/

namespace RealmLogon.Connection

def upcoming (s : Session) (buffer : Bytes) : List Event :=
  match s.nextFrame buffer with
  | .ok (some (command, n)) => [.taken s.phase command (buffer.take n)]
  | _ => []

/-- What one step of a decision adds to the history. -/
def decideTells (c : Connection) (w : World) : List Event :=
  match c.activity with
  | .admitting (.done banned) => if banned then [.replied bannedReply] else upcoming c.session c.buffer
  | .admitting (.ask q _) => [.asked q (w.answer q).1]
  | .deciding _ (.done o) => o.2.toOption.toList.map .replied
  | .deciding _ (.ask q _) => [.asked q (w.answer q).1]
  | _ => []

def writeTells (c : Connection) (room : Option Nat) : List Event :=
  match c.activity with
  | .writing _ rest => if fits room rest ∧ c.session.phase ≠ .closed then upcoming c.session c.buffer else []
  | _ => []

def receiveTells (c : Connection) (chunk : Bytes) : List Event :=
  match c.activity with
  | .waiting => if bufferLimit < (c.buffer ++ chunk).length then [] else upcoming c.session (c.buffer ++ chunk)
  | _ => []

def unwritten (c : Connection) : Bytes :=
  match c.activity with
  | .writing _ rest => rest
  | _ => []

/-- A connection from its acceptance on, with its history and the bytes that it has written. -/
inductive Conversation (svc : Service) (peer : Endpoint) : List Event → Bytes → Connection → World → Prop
  | accept (time : Nat) (w : World) : Conversation svc peer [] [] (accept svc peer time) w
  | decide {t : List Event} {out : Bytes} {c : Connection} {w : World} (h : Conversation svc peer t out c w) :
      Conversation svc peer (t ++ c.decideTells w) out (c.decide svc w).1 (c.decide svc w).2
  | write {t : List Event} {out : Bytes} {c : Connection} {w : World} (h : Conversation svc peer t out c w)
      (time : Nat) (room : Option Nat) :
      Conversation svc peer (t ++ c.writeTells room) (out ++ (c.write svc time room).1)
        (c.write svc time room).2 w
  | receive {t : List Event} {out : Bytes} {c : Connection} {w : World} (h : Conversation svc peer t out c w)
      (chunk : Bytes) : Conversation svc peer (t ++ c.receiveTells chunk) out (c.receive svc chunk) w
  | endOfInput {t : List Event} {out : Bytes} {c : Connection} {w : World}
      (h : Conversation svc peer t out c w) : Conversation svc peer t out c.endOfInput w
  | expire {t : List Event} {out : Bytes} {c : Connection} {w : World}
      (h : Conversation svc peer t out c w) : Conversation svc peer t out c.expire w
  | elsewhere {t : List Event} {out : Bytes} {c : Connection} {w : World}
      (h : Conversation svc peer t out c w) (w' : World) : Conversation svc peer t out c w'

@[simp] theorem sent_upcoming (s : Session) (b : Bytes) : (upcoming s b).flatMap Event.sent = [] := by
  unfold upcoming
  split <;> rfl

@[simp] theorem unwritten_next (svc : Service) (c : Connection) : (c.next svc).unwritten = [] := by
  unfold next
  split <;> rfl

/-- The replies so far are written or still to be written. A connection that ends while it writes drops what is
left of the reply. -/
structure Balanced (t : List Event) (out : Bytes) (c : Connection) : Prop where
  sent : c.result? = none → t.flatMap Event.sent = out ++ c.unwritten
  prefix_sent : out <+: t.flatMap Event.sent

section Balanced

variable {svc : Service} {t : List Event} {out : Bytes} {c c' : Connection}

theorem balanced_of_sent (h : t.flatMap Event.sent = out ++ c.unwritten) : Balanced t out c :=
  ⟨fun _ => h, h ▸ List.prefix_append ..⟩

theorem balanced_finish (h : out <+: t.flatMap Event.sent) (r : Except SessionError Unit) :
    Balanced t out (c.finish r) := ⟨(fun hr => by cases hr), h⟩

theorem sent_next (h : t.flatMap Event.sent = out) :
    (t ++ upcoming c.session c.buffer).flatMap Event.sent = out ++ (c.next svc).unwritten := by simp [h]

theorem sent_decide (h : t.flatMap Event.sent = out ++ c.unwritten) (w : World) :
    (t ++ c.decideTells w).flatMap Event.sent = out ++ (c.decide svc w).1.unwritten := by
  obtain ⟨s, b, d, a⟩ := c
  cases a with
  | admitting f =>
    have hs : t.flatMap Event.sent = out := by simpa [unwritten] using h
    cases f with
    | done banned =>
      cases banned with
      | true => simp [decideTells, decide, admitted, unwritten, hs]
      | false => exact sent_next (c := ⟨s, b, d, .admitting (.done false)⟩) hs
    | ask q k => simp [decideTells, decide, unwritten, hs]
  | deciding phase f =>
    have hs : t.flatMap Event.sent = out := by simpa [unwritten] using h
    cases f with
    | done o =>
      obtain ⟨s', r⟩ := o
      cases r <;> simp [decideTells, decide, decided, finish, unwritten, Except.toOption, hs]
    | ask q k => simp [decideTells, decide, unwritten, hs]
  | writing phase rest => simpa [decideTells, decide] using h
  | waiting => simpa [decideTells, decide] using h
  | finished r => simpa [decideTells, decide] using h

theorem sent_write (h : t.flatMap Event.sent = out ++ c.unwritten) (time : Nat) (room : Option Nat) :
    (t ++ c.writeTells room).flatMap Event.sent =
      out ++ (c.write svc time room).1 ++ (c.write svc time room).2.unwritten := by
  obtain ⟨s, b, d, a⟩ := c
  cases a with
  | writing phase rest =>
    have hs : t.flatMap Event.sent = out ++ rest := h
    cases hf : fits room rest with
    | true =>
      by_cases hp : s.phase = .closed
      · simp [writeTells, write, written, hf, hp, finish, unwritten, hs]
      · have hk : True ∧ s.phase ≠ .closed := ⟨trivial, hp⟩
        simp only [writeTells, write, written, hf, hp, if_true, if_pos hk, if_false]
        exact sent_next (c := ⟨s, b, deadlineFrom svc s time, .writing phase rest⟩) hs
    | false =>
      simp only [writeTells, write, hf, Bool.false_eq_true, false_and, if_false, List.append_nil]
      simp [unwritten, hs]
  | admitting f => simpa [writeTells, write] using h
  | deciding phase f => simpa [writeTells, write] using h
  | waiting => simpa [writeTells, write] using h
  | finished r => simpa [writeTells, write] using h

theorem sent_receive (h : t.flatMap Event.sent = out ++ c.unwritten) (chunk : Bytes) :
    (t ++ c.receiveTells chunk).flatMap Event.sent = out ++ (c.receive svc chunk).unwritten := by
  obtain ⟨s, b, d, a⟩ := c
  cases a with
  | waiting =>
    have hs : t.flatMap Event.sent = out := by simpa [unwritten] using h
    by_cases hl : bufferLimit < (b ++ chunk).length
    · simp only [receiveTells, receive, hl, if_true, List.append_nil]
      simp [finish, unwritten, hs]
    · simp only [receiveTells, receive, hl, if_false]
      exact sent_next (c := ⟨s, b ++ chunk, d, .waiting⟩) hs
  | admitting f => simpa [receiveTells, receive] using h
  | deciding phase f => simpa [receiveTells, receive] using h
  | writing phase rest => simpa [receiveTells, receive] using h
  | finished r => simpa [receiveTells, receive] using h

theorem unwritten_endOfInput (c : Connection) : c.endOfInput.unwritten = c.unwritten := by
  obtain ⟨s, b, d, a⟩ := c
  cases a <;> rfl

theorem finished_or_pending (c : Connection) : (∃ r, c.activity = .finished r) ∨ c.result? = none := by
  obtain ⟨s, b, d, a⟩ := c
  cases a with
  | finished r => exact .inl ⟨r, rfl⟩
  | _ => exact .inr rfl

theorem balanced_decide (h : Balanced t out c) (w : World) :
    Balanced (t ++ c.decideTells w) out (c.decide svc w).1 := by
  obtain ⟨r, hr⟩ | hr := c.finished_or_pending
  · simpa [decideTells, decide, hr] using h
  · exact balanced_of_sent (sent_decide (h.sent hr) w)

theorem balanced_write (h : Balanced t out c) (time : Nat) (room : Option Nat) :
    Balanced (t ++ c.writeTells room) (out ++ (c.write svc time room).1) (c.write svc time room).2 := by
  obtain ⟨r, hr⟩ | hr := c.finished_or_pending
  · simpa [writeTells, write, hr] using h
  · exact balanced_of_sent (sent_write (h.sent hr) time room)

theorem balanced_receive (h : Balanced t out c) (chunk : Bytes) :
    Balanced (t ++ c.receiveTells chunk) out (c.receive svc chunk) := by
  obtain ⟨r, hr⟩ | hr := c.finished_or_pending
  · simpa [receiveTells, receive, hr] using h
  · exact balanced_of_sent (sent_receive (h.sent hr) chunk)

theorem balanced_endOfInput (h : Balanced t out c) : Balanced t out c.endOfInput := by
  obtain ⟨r, hr⟩ | hr := c.finished_or_pending
  · simpa [endOfInput, hr] using h
  · exact balanced_of_sent (c.unwritten_endOfInput ▸ h.sent hr)

theorem balanced_expire (h : Balanced t out c) : Balanced t out c.expire := by
  unfold expire
  split
  · exact balanced_finish h.prefix_sent _
  · exact h

theorem balanced_of_conversation {peer : Endpoint} {w : World} (h : Conversation svc peer t out c w) :
    Balanced t out c := by
  induction h with
  | accept time w => exact balanced_of_sent rfl
  | decide h ih => exact balanced_decide ih _
  | write h time room ih => exact balanced_write ih time room
  | receive h chunk ih => exact balanced_receive ih chunk
  | endOfInput h ih => exact balanced_endOfInput ih
  | expire h ih => exact balanced_expire ih
  | elsewhere h w' ih => exact ih

/-- Only a deadline cuts a reply off: any other connection has written all its replies but what it still writes. -/
theorem sent_of_conversation {peer : Endpoint} {w : World} (h : Conversation svc peer t out c w)
    (hc : ∀ phase, c.activity ≠ .finished (.error (.timeout phase))) :
    t.flatMap Event.sent = out ++ c.unwritten := by
  induction h with
  | accept time w => rfl
  | decide h ih => exact sent_decide (ih fun phase hp => hc phase (by simp [decide, hp])) _
  | write h time room ih => exact sent_write (ih fun phase hp => hc phase (by simp [write, hp])) time room
  | receive h chunk ih => exact sent_receive (ih fun phase hp => hc phase (by simp [receive, hp])) chunk
  | endOfInput h ih =>
    rw [unwritten_endOfInput]
    exact ih fun phase hp => hc phase (by simp [endOfInput, hp])
  | expire h ih =>
    rename_i t out c w
    obtain ⟨s, b, d, a⟩ := c
    cases a with
    | finished r => exact ih hc
    | _ => exact absurd rfl (hc _)
  | elsewhere h w' ih => exact ih hc

end Balanced

/-- A connection may get to another one with these bytes written and this world. -/
def Reaches (svc : Service) (peer : Endpoint) (out : Bytes) (c : Connection) (w : World) : Prop :=
  ∃ t, Conversation svc peer t out c w

/-- What a connection does not break by itself: a property of its history, the bytes that it has written, the
connection and the world. -/
structure Driven (svc : Service) (P : List Event → Bytes → Connection → World → Prop) : Prop where
  decide : ∀ {t out c w}, P t out c w → P (t ++ c.decideTells w) out (c.decide svc w).1 (c.decide svc w).2
  write : ∀ {t out c w}, P t out c w → ∀ (time : Nat) (room : Option Nat),
    P (t ++ c.writeTells room) (out ++ (c.write svc time room).1) (c.write svc time room).2 w
  expire : ∀ {t out c w}, P t out c w → P t out c.expire w

/-- What a connection does not break by itself at one time. -/
structure DrivenAt (svc : Service) (time : Nat) (P : List Event → Bytes → Connection → World → Prop) : Prop where
  decide : ∀ {t out c w}, P t out c w → P (t ++ c.decideTells w) out (c.decide svc w).1 (c.decide svc w).2
  write : ∀ {t out c w}, P t out c w → ∀ room : Option Nat,
    P (t ++ c.writeTells room) (out ++ (c.write svc time room).1) (c.write svc time room).2 w
  expire : ∀ {t out c w}, P t out c w → c.isLate time = true → P t out c.expire w

theorem Driven.drivenAt {svc : Service} {P : List Event → Bytes → Connection → World → Prop} (hP : Driven svc P)
    (time : Nat) : DrivenAt svc time P where
  decide h := hP.decide h
  write h room := hP.write h time room
  expire h _ := hP.expire h

/-- What no move breaks, whatever the client does. -/
structure Kept (svc : Service) (P : List Event → Bytes → Connection → World → Prop) : Prop extends Driven svc P where
  receive : ∀ {t out c w}, P t out c w → ∀ chunk : Bytes, P (t ++ c.receiveTells chunk) out (c.receive svc chunk) w
  endOfInput : ∀ {t out c w}, P t out c w → P t out c.endOfInput w

def Told (P : List Event → Bytes → Connection → World → Prop) (out : Bytes) (c : Connection) (w : World) : Prop :=
  ∃ t, P t out c w

theorem kept_conversation (svc : Service) (peer : Endpoint) : Kept svc (Conversation svc peer) where
  decide h := h.decide
  write h time room := h.write time room
  receive h chunk := h.receive chunk
  endOfInput h := h.endOfInput
  expire h := h.expire

inductive Move where
  | decide
  | write (time : Nat) (room : Option Nat)
  | receive (chunk : Bytes)
  | endOfInput
  | expire

def move (svc : Service) (c : Connection) (w : World) : Move → Connection × World
  | .decide => c.decide svc w
  | .write time room => ((c.write svc time room).2, w)
  | .receive chunk => (c.receive svc chunk, w)
  | .endOfInput => (c.endOfInput, w)
  | .expire => (c.expire, w)

def moveTells (c : Connection) (w : World) : Move → List Event
  | .decide => c.decideTells w
  | .write _ room => c.writeTells room
  | .receive chunk => c.receiveTells chunk
  | .endOfInput => []
  | .expire => []

theorem Kept.move {svc : Service} {P : List Event → Bytes → Connection → World → Prop} (hP : Kept svc P)
    {t : List Event} {out : Bytes} {c : Connection} {w : World} (h : P t out c w) (m : Move) :
    ∃ out', P (t ++ c.moveTells w m) out' (c.move svc w m).1 (c.move svc w m).2 := by
  cases m with
  | decide => exact ⟨out, hP.decide h⟩
  | write time room => exact ⟨_, hP.write h time room⟩
  | receive chunk => exact ⟨out, hP.receive h chunk⟩
  | endOfInput =>
    rw [moveTells, List.append_nil]
    exact ⟨out, hP.endOfInput h⟩
  | expire =>
    rw [moveTells, List.append_nil]
    exact ⟨out, hP.expire h⟩

/-! What follows a decision does not depend on what was decided about. -/

theorem next_activity (svc : Service) (c : Connection) (a : Activity) :
    ({ c with activity := a } : Connection).next svc = c.next svc := by
  unfold next
  dsimp only
  split <;> rfl

theorem admitted_activity (svc : Service) (c : Connection) (a : Activity) (banned : Bool) :
    ({ c with activity := a } : Connection).admitted svc banned = c.admitted svc banned := by
  cases banned with
  | false => exact next_activity svc c a
  | true => rfl

theorem decided_activity (c : Connection) (a : Activity) (phase : Phase) (o : Session.Outcome) :
    ({ c with activity := a } : Connection).decided phase o = c.decided phase o := by
  unfold decided
  split <;> rfl

section Told

variable {svc : Service} {P : List Event → Bytes → Connection → World → Prop} {time : Nat}
  {out : Bytes} {c : Connection} {w : World}

theorem Told.decide (hP : DrivenAt svc time P) (h : Told P out c w) :
    Told P out (c.decide svc w).1 (c.decide svc w).2 := by
  obtain ⟨t, h⟩ := h
  exact ⟨_, hP.decide h⟩

theorem Told.write (hP : DrivenAt svc time P) (h : Told P out c w) (room : Option Nat) :
    Told P (out ++ (c.write svc time room).1) (c.write svc time room).2 w := by
  obtain ⟨t, h⟩ := h
  exact ⟨_, hP.write h room⟩

theorem Told.receive (hP : Kept svc P) (h : Told P out c w) (chunk : Bytes) :
    Told P out (c.receive svc chunk) w := by
  obtain ⟨t, h⟩ := h
  exact ⟨_, hP.receive h chunk⟩

theorem Told.endOfInput (hP : Kept svc P) (h : Told P out c w) : Told P out c.endOfInput w := by
  obtain ⟨t, h⟩ := h
  exact ⟨_, hP.endOfInput h⟩

theorem Told.expire (hP : DrivenAt svc time P) (h : Told P out c w) (hl : c.isLate time = true) :
    Told P out c.expire w := by
  obtain ⟨t, h⟩ := h
  exact ⟨_, hP.expire h hl⟩

theorem Told.admitted (hP : DrivenAt svc time P) {f : Flow Bool}
    (h : Told P out { c with activity := .admitting f } w) :
    Told P out (c.admitted svc (w.run f).1) (w.run f).2 := by
  induction f generalizing w with
  | done banned =>
    have hd := h.decide hP
    simp only [Connection.decide, admitted_activity] at hd
    exact hd
  | ask q k ih => exact ih _ (h.decide hP)

theorem Told.decided (hP : DrivenAt svc time P) {phase : Phase} {f : Flow Session.Outcome}
    (h : Told P out { c with activity := .deciding phase f } w) :
    Told P out (c.decided phase (w.run f).1) (w.run f).2 := by
  induction f generalizing w with
  | done o =>
    have hd := h.decide hP
    simp only [Connection.decide, decided_activity] at hd
    exact hd
  | ask q k ih => exact ih _ (h.decide hP)

theorem Told.resolve (hP : DrivenAt svc time P) (h : Told P out c w) :
    Told P out (c.resolve svc w).1 (c.resolve svc w).2 := by
  obtain ⟨s, b, d, a⟩ := c
  cases a with
  | admitting f => exact Told.admitted hP (c := ⟨s, b, d, .admitting f⟩) h
  | deciding phase f => exact Told.decided hP (c := ⟨s, b, d, .deciding phase f⟩) h
  | writing phase rest => exact h
  | waiting => exact h
  | finished r => exact h

theorem Told.admittedAtOnce (hP : DrivenAt svc time P) {f : Flow Bool}
    (h : Told P out { c with activity := .admitting f } w) (hl : c.isLate time = true) :
    Told P out
      ((w.runAtOnce f).1.elim ({ c with activity := .admitting f } : Connection).expire (c.admitted svc))
      (w.runAtOnce f).2 := by
  induction f generalizing w with
  | done banned => exact h.admitted hP
  | ask q k ih =>
    have hd := h.decide hP
    rw [World.runAtOnce]
    by_cases hq : w.waits q = true
    · rw [if_pos hq]
      exact hd.expire hP hl
    · rw [if_neg hq]
      exact ih _ hd

theorem Told.decidedAtOnce (hP : DrivenAt svc time P) {phase : Phase} {f : Flow Session.Outcome}
    (h : Told P out { c with activity := .deciding phase f } w) (hl : c.isLate time = true) :
    Told P out
      ((w.runAtOnce f).1.elim ({ c with activity := .deciding phase f } : Connection).expire (c.decided phase))
      (w.runAtOnce f).2 := by
  induction f generalizing w with
  | done o => exact h.decided hP
  | ask q k ih =>
    have hd := h.decide hP
    rw [World.runAtOnce]
    by_cases hq : w.waits q = true
    · rw [if_pos hq]
      exact hd.expire hP hl
    · rw [if_neg hq]
      exact ih _ hd

theorem Told.resolveAtOnce (hP : DrivenAt svc time P) (h : Told P out c w) (hl : c.isLate time = true) :
    Told P out (c.resolveAtOnce svc w).1 (c.resolveAtOnce svc w).2 := by
  obtain ⟨s, b, d, a⟩ := c
  cases a with
  | admitting f => exact Told.admittedAtOnce hP (c := ⟨s, b, d, .admitting f⟩) h hl
  | deciding phase f => exact Told.decidedAtOnce hP (c := ⟨s, b, d, .deciding phase f⟩) h hl
  | writing phase rest => exact h
  | waiting => exact h
  | finished r => exact h

theorem Told.resolveAt (hP : DrivenAt svc time P) (h : Told P out c w) :
    Told P out (c.resolveAt svc time w).1 (c.resolveAt svc time w).2 := by
  unfold Connection.resolveAt
  split
  · exact h.resolveAtOnce hP ‹_›
  · exact h.resolve hP

theorem Told.settle (hP : DrivenAt svc time P) (h : Told P out c w) (room : Option Nat) :
    Told P (out ++ (c.settle svc time room w).1) (c.settle svc time room w).2.1
      (c.settle svc time room w).2.2 := by
  fun_induction Connection.settle svc time room c w generalizing out
  case case1 room c w decided written hlt more ih =>
    have hw := (h.resolveAt hP).write hP room
    simpa only [List.append_assoc] using ih hw
  case case2 room c w decided written hge => exact (h.resolveAt hP).write hP room

theorem Told.feedAll (hP : Kept svc P) (h : Told P out c w) (chunks : List Bytes) :
    Told P (out ++ (c.feedAll svc w chunks).1) (c.feedAll svc w chunks).2.1
      (c.feedAll svc w chunks).2.2 := by
  induction chunks generalizing out c w with
  | nil =>
    rw [Connection.feedAll, List.append_nil]
    exact h.endOfInput hP
  | cons chunk chunks ih =>
    rw [Connection.feedAll, ← List.append_assoc]
    exact ih ((h.receive hP chunk).settle (hP.drivenAt 0) none)

theorem Told.settle_of_resolved (hP : DrivenAt svc time P)
    (h : Told P out (c.resolveAt svc time w).1 (c.resolveAt svc time w).2) (room : Option Nat) :
    Told P (out ++ (c.settle svc time room w).1) (c.settle svc time room w).2.1
      (c.settle svc time room w).2.2 := by
  have hw := h.write hP room
  rw [Connection.settle]
  split
  · simpa only [List.append_assoc] using hw.settle hP _
  · exact hw

/-- What holds once the address of a client is known to be banned or not, and is kept by the moves, holds of a
run. -/
theorem Told.run_of_resolved (hP : Kept svc P) {peer : Endpoint}
    (h : Told P [] ((accept svc peer 0).resolveAt svc 0 w).1 ((accept svc peer 0).resolveAt svc 0 w).2)
    (chunks : List Bytes) :
    Told P (run svc peer chunks w).1 (run svc peer chunks w).2.1 (run svc peer chunks w).2.2 :=
  (h.settle_of_resolved (hP.drivenAt 0) none).feedAll hP chunks

/-- What holds at the beginning and is kept by the moves holds of a run. -/
theorem Told.run (hP : Kept svc P) {peer : Endpoint} (h : P [] [] (accept svc peer 0) w) (chunks : List Bytes) :
    Told P (run svc peer chunks w).1 (run svc peer chunks w).2.1 (run svc peer chunks w).2.2 := by
  have ha : Told P [] (accept svc peer 0) w := ⟨[], h⟩
  exact (ha.resolveAt (hP.drivenAt 0)).run_of_resolved hP chunks

end Told

theorem reaches_run (svc : Service) (peer : Endpoint) (chunks : List Bytes) (w : World) :
    Reaches svc peer (run svc peer chunks w).1 (run svc peer chunks w).2.1 (run svc peer chunks w).2.2 :=
  Told.run (kept_conversation svc peer) (.accept 0 w) chunks

end RealmLogon.Connection
