import RealmLogon.Proofs.Connection.History

/-! What a connection has read of its client's bytes, and why it has ended. A byte that was read is part of a frame
that was taken up, or it is still in the buffer. -/

namespace RealmLogon

def Event.frame : Event → Bytes
  | .taken _ _ b => b
  | _ => []

@[simp] theorem Event.frame_asked (q : Query) (a : q.Answer) : (asked q a).frame = [] := rfl
@[simp] theorem Event.frame_taken (phase : Phase) (c : Command) (b : Bytes) : (taken phase c b).frame = b := rfl
@[simp] theorem Event.frame_replied (b : Bytes) : (replied b).frame = [] := rfl

namespace Connection

open Session

def input (t : List Event) (c : Connection) : Bytes := t.flatMap Event.frame ++ c.buffer

/-- The bytes that a move brings; only a connection that waits reads any. -/
def brings (c : Connection) : Move → Bytes
  | .receive chunk =>
    match c.activity with
    | .waiting => chunk
    | _ => []
  | .decide | .write .. | .endOfInput | .expire => []

variable {svc : Service} {peer : Endpoint} {t : List Event} {s : Session} {out : Bytes} {c : Connection} {w : World}

theorem input_next (svc : Service) (t : List Event) (c : Connection) :
    input (t ++ upcoming c.session c.buffer) (c.next svc) = input t c := by
  unfold input upcoming next
  cases c.session.nextFrame c.buffer with
  | error e => simp [finish]
  | ok f =>
    cases f with
    | none => simp
    | some f => simp

theorem input_move (svc : Service) (t : List Event) (c : Connection) (w : World) (m : Move) :
    input (t ++ c.moveTells w m) (c.move svc w m).1 = input t c ++ c.brings m := by
  obtain ⟨s, b, d, a⟩ := c
  cases m with
  | decide =>
    cases a with
    | admitting f =>
      cases f with
      | done banned =>
        cases banned with
        | true => simp [input, moveTells, decideTells, move, decide, admitted, brings]
        | false =>
          exact (input_next svc t ⟨s, b, d, .admitting (.done false)⟩).trans (List.append_nil _).symm
      | ask q k => simp [input, moveTells, decideTells, move, decide, brings]
    | deciding phase f =>
      cases f with
      | done o =>
        obtain ⟨s', r⟩ := o
        cases r <;> simp [input, moveTells, decideTells, move, decide, decided, finish, brings, Except.toOption]
      | ask q k => simp [input, moveTells, decideTells, move, decide, brings]
    | writing phase rest => simp [input, moveTells, decideTells, move, decide, brings]
    | waiting => simp [input, moveTells, decideTells, move, decide, brings]
    | finished r => simp [input, moveTells, decideTells, move, decide, brings]
  | write time room =>
    refine Eq.trans ?_ (List.append_nil _).symm
    cases a with
    | writing phase rest =>
      cases hf : fits room rest with
      | true =>
        by_cases hp : s.phase = .closed
        · simp [input, moveTells, writeTells, move, write, written, hf, hp, finish]
        · have hk : True ∧ s.phase ≠ .closed := ⟨trivial, hp⟩
          simp only [moveTells, writeTells, move, write, written, hf, hp, if_true, if_pos hk, if_false]
          exact input_next svc t ⟨s, b, deadlineFrom svc s time, .writing phase rest⟩
      | false => simp [input, moveTells, writeTells, move, write, hf]
    | _ => simp [input, moveTells, writeTells, move, write]
  | receive chunk =>
    cases a with
    | waiting =>
      by_cases hl : bufferLimit < (b ++ chunk).length
      · simp only [moveTells, receiveTells, move, receive, hl, if_true, brings]
        simp [input, finish]
      · simp only [moveTells, receiveTells, move, receive, hl, if_false, brings]
        refine (input_next svc t ⟨s, b ++ chunk, d, .waiting⟩).trans ?_
        simp [input]
    | _ => simp [input, moveTells, receiveTells, move, receive, brings]
  | endOfInput => cases a <;> simp [input, moveTells, move, endOfInput, finish, brings]
  | expire => cases a <;> simp [input, moveTells, move, expire, pendingPhase?, finish, brings]

def Unheard (t : List Event) : Prop := ∀ phase command frame, .taken phase command frame ∉ t

/-- Why a connection has ended, with its session and its buffer. -/
inductive Over (svc : Service) (peer : Endpoint) (t : List Event) (s : Session) (b : Bytes) :
    Except SessionError Unit → Prop
  /-- The last reply has been written. -/
  | closed (hp : s.phase = .closed) (hb : Unheard t → b = []) : Over svc peer t s b (.ok ())
  /-- The client has closed its side, and there is no whole frame left. -/
  | deserted (hp : s.phase ≠ .closed) (hn : s.nextFrame b = .ok none) : Over svc peer t s b (.ok ())
  | undue (hp : s.phase ≠ .closed) {e : SessionError} (hn : s.nextFrame b = .error e) : Over svc peer t s b (.error e)
  | overfull (hp : s.phase ≠ .closed) (hl : bufferLimit < b.length) : Over svc peer t s b (.error .bufferOverflow)
  | failed {s' : Session} {phase : Phase} {e : SessionError} (h : Answering svc peer t s' phase (.done (s, .error e))) :
      Over svc peer t s b (.error e)
  | late (phase : Phase) : Over svc peer t s b (.error (.timeout phase))

/-- What stops a connection from going on by itself. -/
def Stopped (svc : Service) (peer : Endpoint) (t : List Event) (c : Connection) : Prop :=
  match c.activity with
  | .writing _ _ => c.session.phase = .closed → Unheard t → c.buffer = []
  | .waiting => c.session.phase ≠ .closed ∧ c.session.nextFrame c.buffer = .ok none
  | .finished r => Over svc peer t c.session c.buffer r
  | _ => True

theorem not_unheard_of_answering {phase : Phase} {f : Flow Outcome} (h : Answering svc peer t s phase f) :
    ¬Unheard t := by
  cases h with
  | taken h hn hl => exact fun hu => hu _ _ _ (List.mem_append_right _ List.mem_cons_self)

theorem stopped_next (hp : c.session.phase ≠ .closed) (t : List Event) : Stopped svc peer t (c.next svc) := by
  unfold next
  cases hn : c.session.nextFrame c.buffer with
  | error e => exact .undue hp hn
  | ok f =>
    cases f with
    | none => exact ⟨hp, hn⟩
    | some f => trivial

theorem stopped_decide (h : Held svc peer t c) (hs : Stopped svc peer t c) (w : World) :
    Stopped svc peer (t ++ c.decideTells w) (c.decide svc w).1 := by
  obtain ⟨s, b, d, a⟩ := c
  cases a with
  | admitting f =>
    obtain ⟨rfl, rfl, hl⟩ := h
    cases f with
    | done banned =>
      cases banned with
      | true => exact fun _ _ => rfl
      | false => exact stopped_next (c := ⟨{ peer := peer }, [], d, .admitting (.done false)⟩) nofun _
    | ask q k => trivial
  | deciding phase f =>
    cases f with
    | done o =>
      obtain ⟨s', r⟩ := o
      cases r with
      | error e =>
        simp only [decideTells, Except.toOption, Option.toList_none, List.map_nil, List.append_nil]
        exact Over.failed h
      | ok reply =>
        exact fun _ hu => absurd (fun _ _ _ hm => hu _ _ _ (List.mem_append_left _ hm)) (not_unheard_of_answering h)
    | ask q k => trivial
  | writing phase rest => simpa [decideTells, decide] using hs
  | waiting => simpa [decideTells, decide] using hs
  | finished r => simpa [decideTells, decide] using hs

theorem stopped_write (hs : Stopped svc peer t c) (time : Nat) (room : Option Nat) :
    Stopped svc peer (t ++ c.writeTells room) (c.write svc time room).2 := by
  obtain ⟨s, b, d, a⟩ := c
  cases a with
  | writing phase rest =>
    cases hf : fits room rest with
    | true =>
      by_cases hp : s.phase = .closed
      · simp only [writeTells, write, written, hf, hp, ne_eq, not_true_eq_false, and_false, if_true, if_false,
          List.append_nil]
        exact Over.closed hp (hs hp)
      · simp only [write, written, hf, hp, if_true, if_false]
        exact stopped_next (c := ⟨s, b, deadlineFrom svc s time, _⟩) hp _
    | false =>
      simp only [writeTells, write, hf, Bool.false_eq_true, false_and, if_false, List.append_nil]
      exact hs
  | admitting f => trivial
  | deciding phase f => trivial
  | waiting => simpa [writeTells, write] using hs
  | finished r => simpa [writeTells, write] using hs

theorem stopped_receive (hs : Stopped svc peer t c) (chunk : Bytes) :
    Stopped svc peer (t ++ c.receiveTells chunk) (c.receive svc chunk) := by
  obtain ⟨s, b, d, a⟩ := c
  cases a with
  | waiting =>
    obtain ⟨hp, -⟩ := hs
    by_cases hl : bufferLimit < (b ++ chunk).length
    · simp only [receive, hl, if_true]
      exact Over.overfull hp hl
    · simp only [receive, hl, if_false]
      exact stopped_next (c := ⟨s, b ++ chunk, d, .waiting⟩) hp _
  | admitting f => trivial
  | deciding phase f => trivial
  | writing phase rest => simpa [receiveTells, receive] using hs
  | finished r => simpa [receiveTells, receive] using hs

theorem stopped_endOfInput (hs : Stopped svc peer t c) : Stopped svc peer t c.endOfInput := by
  obtain ⟨s, b, d, a⟩ := c
  cases a with
  | waiting => exact Over.deserted hs.1 hs.2
  | _ => exact hs

theorem stopped_expire (hs : Stopped svc peer t c) : Stopped svc peer t c.expire := by
  obtain ⟨s, b, d, a⟩ := c
  cases a with
  | finished r => exact hs
  | _ => exact Over.late _

theorem stopped_of_conversation (h : Conversation svc peer t out c w) : Stopped svc peer t c := by
  induction h with
  | accept time w => trivial
  | decide h ih => exact stopped_decide (held_of_conversation h) ih _
  | write h time room ih => exact stopped_write ih time room
  | receive h chunk ih => exact stopped_receive ih chunk
  | endOfInput h ih => exact stopped_endOfInput ih
  | expire h ih => exact stopped_expire ih
  | elsewhere h w' ih => exact ih

theorem over_of_conversation (h : Conversation svc peer t out c w) {r : Except SessionError Unit}
    (hr : c.activity = .finished r) : Over svc peer t c.session c.buffer r := by
  have hs := stopped_of_conversation h
  rw [Stopped, hr] at hs
  exact hs

end Connection

end RealmLogon
