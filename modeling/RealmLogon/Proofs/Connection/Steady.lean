import Mathlib.Logic.Relation
import RealmLogon.Proofs.Connection.History
import RealmLogon.Proofs.Session.Coherence

/-! Whatever comes to a connection, its session stays coherent, what it has learned stays as it is, and it never ends
for want of something that a handler looks for. -/

namespace RealmLogon.Connection

open Session

/-- A connection becomes another one by a move; the world may have become another one in the meantime. -/
def Moves (svc : Service) (c d : Connection) : Prop := ∃ m w, d = (c.move svc w m).1

abbrev Later (svc : Service) : Connection → Connection → Prop := Relation.ReflTransGen (Moves svc)

/-- An error that tells of a frame that no session would have let through. -/
inductive Unreachable : SessionError → Prop
  | missingState (what : Missing) : Unreachable (.missingState what)
  | noValidExpansion (build : UInt16) : Unreachable (.noValidExpansion build)
  | xferRejected (opcode : UInt8) : Unreachable (.xferRejected opcode)

variable {svc : Service} {peer : Endpoint} {t : List Event} {s s' : Session} {phase : Phase} {out : Bytes}
  {c d : Connection} {w : World}

theorem coherent_of_served (h : Served svc peer t s) : s.Coherent := by
  induction h with
  | admitted hb => exact coherent_new peer
  | turnedAway hb => exact coherent_closed rfl rfl rfl rfl
  | answered h hn hy ih => exact (answered_of_yields ih (due_of_nextFrame hn) hy).coherent ih

theorem coherent_of_answering {f : Flow Outcome} (h : Answering svc peer t s phase f) : s.Coherent := by
  cases h with
  | taken h hn hl => exact coherent_of_served h

theorem answered_of_answering {o : Outcome} (h : Answering svc peer t s phase (.done o)) :
    ∃ command frame es, Answered svc s frame command es o := by
  cases h with
  | taken h hn hl => exact ⟨_, _, _, answered_of_yields (coherent_of_served h) (due_of_nextFrame hn) hl⟩

theorem coherent_of_held (h : Held svc peer t c) : c.session.Coherent := by
  unfold Held at h
  split at h
  · obtain ⟨hs, -, -⟩ := h
    rw [hs]
    exact coherent_new peer
  · exact coherent_of_answering h
  · exact coherent_of_served h
  · exact coherent_of_served h
  · generalize c.session = s at h
    cases h with
    | unadmitted h phase => exact coherent_new peer
    | rested h hr => exact coherent_of_served h
    | interrupted h => exact coherent_of_answering h
    | failed h =>
      obtain ⟨command, frame, es, ha⟩ := answered_of_answering h
      exact ha.coherent (coherent_of_answering h)

theorem reachable_of_outer {e : SessionError} (h : Outer e) : ¬Unreachable e := by
  cases h <;> rintro ⟨⟩

theorem reachable_of_ended {e : SessionError} (h : Ended svc peer t s (.error e)) : ¬Unreachable e := by
  generalize hr : (Except.error e : Except SessionError Unit) = r at h
  cases h with
  | unadmitted h phase =>
    cases hr
    rintro ⟨⟩
  | rested h ho =>
    cases hr
    exact reachable_of_outer (ho e rfl)
  | interrupted h =>
    cases hr
    rintro ⟨⟩
  | failed h =>
    cases hr
    obtain ⟨command, frame, es, ha⟩ := answered_of_answering h
    obtain ⟨-, ⟨w, rfl⟩ | ⟨login, rfl⟩⟩ | ⟨rfl, -⟩ := ha.fault
    · rintro ⟨⟩
    · rintro ⟨⟩
    · rintro ⟨⟩

@[simp] theorem next_session (svc : Service) (c : Connection) : (c.next svc).session = c.session := by
  unfold next
  split <;> rfl

theorem keeps_admitted (banned : Bool) : c.session.Keeps (c.admitted svc banned).session := by
  cases banned with
  | true => exact ⟨fun _ h => h, fun _ h => h⟩
  | false =>
    change c.session.Keeps (c.next svc).session
    rw [next_session]
    exact .refl _

theorem keeps_decided {o : Outcome} (h : Answering svc peer t c.session phase (.done o)) :
    c.session.Keeps (c.decided phase o).session := by
  have hs : (c.decided phase o).session = o.1 := by
    unfold decided
    split <;> rfl
  obtain ⟨command, frame, es, ha⟩ := answered_of_answering h
  rw [hs]
  exact ha.keeps (coherent_of_answering h)

theorem keeps_move (h : Held svc peer t c) (w : World) (m : Move) : c.session.Keeps (c.move svc w m).1.session := by
  obtain ⟨s, b, deadline, a⟩ := c
  cases m with
  | decide =>
    cases a with
    | admitting f =>
      cases f with
      | done banned => exact keeps_admitted banned
      | ask q k => exact .refl s
    | deciding phase f =>
      cases f with
      | done o => exact keeps_decided h
      | ask q k => exact .refl s
    | writing phase rest => exact .refl s
    | waiting => exact .refl s
    | finished r => exact .refl s
  | write time room =>
    have hs : (write svc ⟨s, b, deadline, a⟩ time room).2.session = s := by
      cases a with
      | writing phase rest =>
        cases hf : fits room rest with
        | true =>
          simp only [write, written, hf, if_true]
          split
          · rfl
          · exact next_session ..
        | false => simp [write, hf]
      | _ => rfl
    simp only [move, hs]
    exact .refl s
  | receive chunk =>
    have hs : (receive svc ⟨s, b, deadline, a⟩ chunk).session = s := by
      cases a with
      | waiting =>
        simp only [receive]
        split
        · rfl
        · exact next_session ..
      | _ => rfl
    simp only [move, hs]
    exact .refl s
  | endOfInput => cases a <;> exact .refl s
  | expire => cases a <;> exact .refl s

theorem keeps_of_later (h : Held svc peer t c) (hl : Later svc c d) : c.session.Keeps d.session := by
  have hd : ∃ u, Held svc peer u d ∧ c.session.Keeps d.session := by
    induction hl with
    | refl => exact ⟨t, h, .refl _⟩
    | tail hl hm ih =>
      obtain ⟨u, hu, hk⟩ := ih
      obtain ⟨m, w, rfl⟩ := hm
      obtain ⟨-, hv⟩ := @Kept.move _ _ (kept_held svc peer) _ [] _ w hu m
      exact ⟨_, hv, hk.trans (keeps_move hu w m)⟩
  obtain ⟨u, -, hk⟩ := hd
  exact hk

/-- A run goes through conversations only, and in all of them the session is coherent, what it has learned stays,
and a connection that ends does not end for want of state, of an accepted generation, or with a file transfer. -/
theorem session_coherent (svc : Service) (peer : Endpoint) :
    (∀ chunks w, ∃ t, Conversation svc peer t (run svc peer chunks w).1 (run svc peer chunks w).2.1
      (run svc peer chunks w).2.2) ∧
    ∀ t out c w, Conversation svc peer t out c w →
      c.session.Coherent ∧
      (∀ d, Later svc c d → c.session.Keeps d.session) ∧
      ∀ e, c.result? = some (.error e) →
        (∀ what, e ≠ .missingState what) ∧ (∀ build, e ≠ .noValidExpansion build) ∧
          ∀ opcode, e ≠ .xferRejected opcode := by
  refine ⟨fun chunks w => reaches_run svc peer chunks w, ?_⟩
  intro t out c w h
  have hh := held_of_conversation h
  refine ⟨coherent_of_held hh, fun d hd => keeps_of_later hh hd, ?_⟩
  intro e he
  obtain ⟨s, b, deadline, a⟩ := c
  cases a with
  | finished r =>
    obtain rfl : r = .error e := Option.some.inj he
    have hu := reachable_of_ended hh
    refine ⟨?_, ?_, ?_⟩
    · rintro what rfl
      exact hu (.missingState what)
    · rintro build rfl
      exact hu (.noValidExpansion build)
    · rintro opcode rfl
      exact hu (.xferRejected opcode)
  | admitting f => cases he
  | deciding phase f => cases he
  | writing phase rest => cases he
  | waiting => cases he

end RealmLogon.Connection
