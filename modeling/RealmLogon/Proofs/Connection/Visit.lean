import RealmLogon.Proofs.Connection.Chunking
import RealmLogon.Proofs.Connection.Alone
import RealmLogon.Proofs.Connection.Reading

/-! A whole visit of one client that has the directory for itself, while time passes. The bytes may come in any pieces,
and each question may be answered later than the one before. -/

namespace RealmLogon

open Directory

namespace World

/-- Time passes, and the directory stays as it is. -/
structure Passes (w w' : World) : Prop where
  clock : w.clock ≤ w'.clock
  store : w'.store = w.store
  fails : w'.fails = w.fails

/-- A world has answered all questions of a history, each some time after the one before. -/
inductive Consulted : World → List Event → World → Prop
  | nothing (w : World) : Consulted w [] w
  | asked {w w₁ w' : World} {t : List Event} (hp : w.Passes w₁) (q : Query)
      (h : Consulted (w₁.answer q).2 t w') : Consulted w (.asked q (w₁.answer q).1 :: t) w'
  | taken {w w' : World} {t : List Event} (phase : Phase) (c : Command) (frame : Bytes) (h : Consulted w t w') :
      Consulted w (.taken phase c frame :: t) w'
  | replied {w w' : World} {t : List Event} (b : Bytes) (h : Consulted w t w') : Consulted w (.replied b :: t) w'

variable {w w₁ w' : World} {t u : List Event}

theorem Passes.refl (w : World) : w.Passes w := ⟨Int.le_refl _, rfl, rfl⟩

theorem Passes.trans (h : w.Passes w₁) (h' : w₁.Passes w') : w.Passes w' :=
  ⟨Int.le_trans h.clock h'.clock, h'.store.trans h.store, h'.fails.trans h.fails⟩

theorem Passes.isHealthy (h : w.Passes w') (hw : w.IsHealthy) : w'.IsHealthy := by
  intro n c
  rw [h.fails]
  exact hw n c

theorem Consulted.append (h : Consulted w t w₁) (hu : Consulted w₁ u w') : Consulted w (t ++ u) w' := by
  induction h with
  | nothing w => exact hu
  | asked hp q h ih => exact .asked hp q (ih hu)
  | taken phase c frame h ih => exact .taken phase c frame (ih hu)
  | replied b h ih => exact .replied b (ih hu)

theorem Consulted.clock_le (h : Consulted w t w') : w.clock ≤ w'.clock := by
  induction h with
  | nothing w => exact Int.le_refl _
  | asked hp q h ih =>
    rw [clock_answer] at ih
    exact Int.le_trans hp.clock ih
  | taken phase c frame h ih => exact ih
  | replied b h ih => exact ih

theorem Consulted.isHealthy (h : Consulted w t w') (hw : w.IsHealthy) : w'.IsHealthy := by
  induction h with
  | nothing w => exact hw
  | asked hp q h ih =>
    refine ih fun n c => ?_
    rw [fails_answer]
    exact hp.isHealthy hw n c
  | taken phase c frame h ih => exact ih hw
  | replied b h ih => exact ih hw

theorem Consulted.performed {c : Call} {r : Except DirectoryError c.Answer} (h : Consulted w (.called c r :: t) w')
    (hw : w.IsHealthy) : ∃ w₁, w.Passes w₁ ∧ r = (c.perform w.store w₁.clock).1 ∧ Consulted (w₁.called c) t w' := by
  cases h with
  | asked hp q h =>
    rename_i w₁
    have ha : w₁.answer (.call c) = ((c.perform w.store w₁.clock).1, w₁.called c) := by
      rw [answer, call_eq (hp.isHealthy hw), hp.store]
    rw [ha] at h ⊢
    exact ⟨w₁, hp, rfl, h⟩

theorem Consulted.read {c : Call} {r : Except DirectoryError c.Answer} (h : Consulted w (.called c r :: t) w')
    (hw : w.IsHealthy) (hc : ∀ s now, (c.perform s now).2 = s) :
    ∃ w₁, w.Passes w₁ ∧ r = (c.perform w.store w₁.clock).1 ∧ Consulted w₁ t w' := by
  obtain ⟨w₁, hp, hr, h⟩ := h.performed hw
  exact ⟨w₁.called c, ⟨hp.clock, (hc _ _).trans hp.store, hp.fails⟩, hr, h⟩

theorem Consulted.drawn {n : Nat} {b : Octets n} (h : Consulted w (.asked (.draw n) b :: t) w') :
    ∃ w₁, w.Passes w₁ ∧ Consulted w₁ t w' := by
  cases h with
  | asked hp q h =>
    rename_i w₁
    exact ⟨(w₁.answer (.draw n)).2, ⟨hp.clock, hp.store, hp.fails⟩, h⟩

@[simp] theorem consulted_nil_iff : Consulted w [] w' ↔ w' = w := by
  constructor
  · rintro ⟨⟩
    rfl
  · rintro rfl
    exact .nothing _

@[simp] theorem consulted_taken_iff {phase : Phase} {c : Command} {frame : Bytes} :
    Consulted w (.taken phase c frame :: t) w' ↔ Consulted w t w' := by
  constructor
  · rintro ⟨⟩
    assumption
  · exact .taken phase c frame

@[simp] theorem consulted_replied_iff {b : Bytes} : Consulted w (.replied b :: t) w' ↔ Consulted w t w' := by
  constructor
  · rintro ⟨⟩
    assumption
  · exact .replied b

end World

namespace Connection

/-- A visit of a client: what happened, what was written to it, the connection at its end, and the world after it. -/
structure Visit where
  peer : Endpoint
  history : List Event
  out : Bytes
  connection : Connection
  world : World

/-- A client had the directory for itself, and the connection has done what there was to do before a deadline passed.
Of the bytes that the client sent, all have been read unless the connection ended first. -/
structure Visit.Paid (svc : Service) (stream : Bytes) (w : World) (v : Visit) : Prop where
  conversation : Conversation svc v.peer v.history v.out v.connection v.world
  consulted : w.Consulted v.history v.world
  rests : v.connection.activity = .waiting ∨
    ∃ r, v.connection.activity = .finished r ∧ ∀ phase, r ≠ .error (.timeout phase)
  sent : input v.history v.connection <+: stream
  all : (∀ e, v.connection.activity ≠ .finished (.error e)) → v.connection.session.phase ≠ .closed →
    input v.history v.connection = stream

variable {svc : Service} {peer : Endpoint} {t : List Event} {out b : Bytes} {c : Connection} {w₀ w : World}

theorem consulted_upcoming (s : Session) (b : Bytes) (w : World) : w.Consulted (upcoming s b) w := by
  unfold upcoming
  split
  · exact .taken _ _ _ (.nothing w)
  · exact .nothing w

theorem consulted_move (svc : Service) (c : Connection) (w : World) (m : Move) :
    w.Consulted (c.moveTells w m) (c.move svc w m).2 := by
  obtain ⟨s, b, d, a⟩ := c
  cases m with
  | decide =>
    cases a with
    | admitting f =>
      cases f with
      | done banned =>
        cases banned with
        | true => exact .replied _ (.nothing w)
        | false => exact consulted_upcoming s b w
      | ask q k => exact .asked (.refl w) q (.nothing _)
    | deciding phase f =>
      cases f with
      | done o =>
        obtain ⟨s', r⟩ := o
        cases r with
        | error e => exact .nothing w
        | ok reply => exact .replied reply (.nothing w)
      | ask q k => exact .asked (.refl w) q (.nothing _)
    | _ => exact .nothing w
  | write time room =>
    simp only [moveTells, writeTells]
    split
    · split
      · exact consulted_upcoming ..
      · exact .nothing w
    · exact .nothing w
  | receive chunk =>
    simp only [moveTells, receiveTells]
    split
    · split
      · exact .nothing w
      · exact consulted_upcoming ..
    · exact .nothing w
  | endOfInput => exact .nothing w
  | expire => exact .nothing w

def EndsClosed (c : Connection) : Prop := c.activity = .finished (.ok ()) → c.session.phase = .closed

/-- A connection that has the directory for itself has read some bytes, and the client has not closed its side. -/
structure HasRead (svc : Service) (peer : Endpoint) (w₀ : World) (b : Bytes) (t : List Event) (out : Bytes)
    (c : Connection) (w : World) : Prop where
  conversation : Conversation svc peer t out c w
  consulted : w₀.Consulted t w
  input_eq : input t c = b
  closed : c.EndsClosed

theorem endsClosed_next (svc : Service) (c : Connection) : (c.next svc).EndsClosed := by
  have hn : (c.next svc).activity ≠ .finished (.ok ()) := by
    unfold next
    split <;> simp [finish]
  exact fun hf => absurd hf hn

theorem endsClosed_decide (h : c.EndsClosed) (w : World) : (c.decide svc w).1.EndsClosed := by
  obtain ⟨s, buffer, d, a⟩ := c
  cases a with
  | admitting f =>
    cases f with
    | done banned =>
      cases banned with
      | true => rintro ⟨⟩
      | false => exact endsClosed_next svc _
    | ask q k => rintro ⟨⟩
  | deciding phase f =>
    cases f with
    | done o =>
      obtain ⟨s', r⟩ := o
      cases r <;> rintro ⟨⟩
    | ask q k => rintro ⟨⟩
  | _ => exact h

theorem endsClosed_write (h : c.EndsClosed) (time : Nat) (room : Option Nat) :
    (c.write svc time room).2.EndsClosed := by
  obtain ⟨s, buffer, d, a⟩ := c
  cases a with
  | writing phase rest =>
    simp only [write]
    split
    · unfold written
      split
      · exact fun _ => ‹_›
      · exact endsClosed_next svc _
    · rintro ⟨⟩
  | _ => exact h

theorem endsClosed_expire (h : c.EndsClosed) : c.expire.EndsClosed := by
  obtain ⟨s, buffer, d, a⟩ := c
  cases a with
  | finished r => exact h
  | _ => rintro ⟨⟩

theorem driven_hasRead (svc : Service) (peer : Endpoint) (w₀ : World) (b : Bytes) :
    Driven svc (HasRead svc peer w₀ b) where
  decide {t out c w} h := by
    have hi : input (t ++ c.moveTells w .decide) (c.move svc w .decide).1 = input t c :=
      (input_move svc t c w .decide).trans (List.append_nil _)
    exact ⟨h.conversation.decide, h.consulted.append (consulted_move svc c w .decide), hi.trans h.input_eq,
      endsClosed_decide h.closed w⟩
  write {t out c w} h time room := by
    have hi : input (t ++ c.moveTells w (.write time room)) (c.move svc w (.write time room)).1 = input t c :=
      (input_move svc t c w (.write time room)).trans (List.append_nil _)
    exact ⟨h.conversation.write time room, h.consulted.append (consulted_move svc c w (.write time room)),
      hi.trans h.input_eq, endsClosed_write h.closed time room⟩
  expire {t out c w} h := by
    have hi := (input_move svc t c w .expire).trans (List.append_nil _)
    rw [moveTells, List.append_nil, h.input_eq] at hi
    exact ⟨h.conversation.expire, h.consulted, hi, endsClosed_expire h.closed⟩

theorem HasRead.receive (h : HasRead svc peer w₀ b t out c w) (ha : c.activity = .waiting) (chunk : Bytes) :
    HasRead svc peer w₀ (b ++ chunk) (t ++ c.receiveTells chunk) out (c.receive svc chunk) w := by
  refine ⟨h.conversation.receive chunk, h.consulted.append (consulted_move svc c w (.receive chunk)), ?_, ?_⟩
  · rw [← h.input_eq]
    refine (input_move svc t c w (.receive chunk)).trans ?_
    simp only [brings, ha]
  · simp only [Connection.receive, ha]
    split
    · rintro ⟨⟩
    · exact endsClosed_next svc _

/-! A run is such a visit. -/

theorem nextFrame_ne_timeout {s : Session} (b : Bytes) (phase : Phase) :
    s.nextFrame b ≠ .error (.timeout phase) := by
  unfold Session.nextFrame
  repeat' split
  all_goals simp

theorem serve_ne_timeout {s : Session} (h : Served svc peer t s) (b : Bytes) (w : World) (phase : Phase) :
    (serve svc s b w).2.1 ≠ .ended (.error (.timeout phase)) := by
  induction hl : b.length using Nat.strongRecOn generalizing t s b w with
  | ind l ih =>
    cases hn : s.nextFrame b with
    | error e =>
      rw [serve_of_error hn]
      intro he
      cases he
      exact nextFrame_ne_timeout b phase hn
    | ok f =>
      cases f with
      | none =>
        rw [serve_of_none hn]
        rintro ⟨⟩
      | some f =>
        obtain ⟨command, n⟩ := f
        have hb := Session.nextFrame_bounds hn
        have hd : (b.drop n).length < l := by
          rw [List.length_drop]
          omega
        have ht := Session.nextFrame_take hn
        obtain ⟨es, hy, -⟩ := World.yields_run (s.dispatch svc command (b.take n)) w
        rcases ho : w.run (s.dispatch svc command (b.take n)) with ⟨⟨s', r⟩, w'⟩
        rw [ho] at hy
        cases r with
        | error e =>
          have hf : serveFrame svc s command (b.take n) w = ([], .ends (.error e), w') := by
            simp only [serveFrame, ho]
          have ha := Session.answered_of_yields (coherent_of_served h) (Session.due_of_nextFrame hn) hy
          rw [serve_of_ends hn hf]
          intro he
          cases he
          -- No handler fails for want of time.
          obtain ⟨-, ⟨e, he⟩ | ⟨login, he⟩⟩ | ⟨he, -⟩ := ha.fault
          · cases he
          · cases he
          · cases he
        | ok reply =>
          by_cases hp : s'.phase = .closed
          · have hf : serveFrame svc s command (b.take n) w = (reply, .ends (.ok ()), w') := by
              simp only [serveFrame, ho, if_pos hp]
            rw [serve_of_ends hn hf]
            rintro ⟨⟩
          · have hf : serveFrame svc s command (b.take n) w = (reply, .goesOn s', w') := by
              simp only [serveFrame, ho, if_neg hp]
            rw [serve_of_goesOn hn hf]
            exact ih _ hd (.answered h ht hy) _ w' rfl

/-- A connection waits in good time, or it has ended in good time. -/
def InTime (svc : Service) (c : Connection) : Prop :=
  (c.activity = .waiting ∧ Punctual svc 0 c) ∨ ∃ r, c.activity = .finished r ∧ ∀ phase, r ≠ .error (.timeout phase)

theorem inTime_of_rest {i : Rest} (h : c.rest? = some i) (hp : Punctual svc 0 c)
    (hi : ∀ phase, i ≠ .ended (.error (.timeout phase))) : InTime svc c := by
  obtain ⟨s, buffer, d, a⟩ := c
  cases a with
  | waiting => exact .inl ⟨rfl, hp⟩
  | finished r =>
    cases h
    exact .inr ⟨r, rfl, fun phase hr => hi phase (hr ▸ rfl)⟩
  | _ => cases h

theorem inTime_feed (h : Served svc peer t c.session) (ha : c.activity = .waiting) (hp : Punctual svc 0 c)
    (chunk : Bytes) (w : World) : InTime svc (c.feed svc w chunk).2.1 := by
  have hc : c.rest? = some (.waiting c.session c.buffer) := by
    simp only [rest?, ha]
  rcases meets_receive hc svc 0 chunk w with ⟨-, ho⟩ | ⟨hn, -⟩ | ⟨-, hr, -, hp'⟩
  · exact .inr ⟨_, ho, fun phase he => by cases he⟩
  · exact absurd hp hn
  · exact inTime_of_rest hr (hp' hp) fun phase => serve_ne_timeout h _ w phase

theorem feedAll_of_finished {r : Except SessionError Unit} (h : c.activity = .finished r) (w : World)
    (chunks : List Bytes) : c.feedAll svc w chunks = ([], c, w) := by
  rw [← feedTimed_zero]
  exact feedTimed_of_finished h w 0 0 _

/-- A connection that has ended by itself in good time need not have read everything. -/
theorem HasRead.paid (h : HasRead svc peer w₀ b t out c w) {r : Except SessionError Unit} (hr : c.activity = .finished r)
    (ht : ∀ phase, r ≠ .error (.timeout phase)) {stream : Bytes} (hs : b <+: stream) :
    Visit.Paid svc stream w₀ ⟨peer, t, out, c, w⟩ where
  conversation := h.conversation
  consulted := h.consulted
  rests := .inr ⟨r, hr, ht⟩
  sent := h.input_eq ▸ hs
  all ho hp := by
    cases r with
    | error e => exact absurd hr (ho e)
    | ok u => exact absurd (h.closed hr) hp

theorem HasRead.paid_endOfInput (h : HasRead svc peer w₀ b t out c w) (ha : c.activity = .waiting) :
    Visit.Paid svc b w₀ ⟨peer, t, out, c.endOfInput, w⟩ := by
  have hi := (input_move svc t c w .endOfInput).trans (List.append_nil _)
  rw [moveTells, List.append_nil, h.input_eq] at hi
  have hf : c.endOfInput.activity = .finished (.ok ()) := by
    simp only [endOfInput, ha, finish]
  exact ⟨h.conversation.endOfInput, h.consulted, .inr ⟨_, hf, fun phase he => by cases he⟩, hi ▸ List.prefix_rfl, fun _ _ => hi⟩

theorem paid_of_feedAll (h : Told (HasRead svc peer w₀ b) out c w) (hc : InTime svc c) (chunks : List Bytes) :
    ∃ t, Visit.Paid svc (b ++ chunks.flatten) w₀
      ⟨peer, t, out ++ (c.feedAll svc w chunks).1, (c.feedAll svc w chunks).2.1, (c.feedAll svc w chunks).2.2⟩ := by
  induction chunks generalizing out b c w with
  | nil =>
    obtain ⟨t, h⟩ := h
    simp only [feedAll, List.flatten_nil, List.append_nil]
    obtain ⟨ha, -⟩ | ⟨r, hr, ht⟩ := hc
    · exact ⟨t, h.paid_endOfInput ha⟩
    · have he : c.endOfInput = c := by
        simp only [endOfInput, hr]
      rw [he]
      exact ⟨t, h.paid hr ht List.prefix_rfl⟩
  | cons chunk chunks ih =>
    obtain ⟨t, h⟩ := h
    obtain ⟨ha, hp⟩ | ⟨r, hr, ht⟩ := hc
    · have hserved : Served svc peer t c.session := by
        have hh := held_of_conversation h.conversation
        rw [Held, ha] at hh
        exact hh
      have hfed : Told (HasRead svc peer w₀ (b ++ chunk)) (out ++ (c.feed svc w chunk).1) (c.feed svc w chunk).2.1
          (c.feed svc w chunk).2.2 :=
        Told.settle ((driven_hasRead svc peer w₀ (b ++ chunk)).drivenAt 0) ⟨_, h.receive ha chunk⟩ none
      have hmore := ih hfed (inTime_feed hserved ha hp chunk w)
      rw [List.flatten_cons, ← List.append_assoc]
      simpa only [feedAll, List.append_assoc] using hmore
    · rw [feedAll_of_finished hr, List.append_nil]
      exact ⟨t, h.paid hr ht (List.prefix_append _ _)⟩

/-- A client whose bytes come in some pieces and are answered at once pays a visit. -/
theorem paid_of_run (hs : 0 < svc.policy.shortTimeout) (hl : 0 < svc.policy.longTimeout) (peer : Endpoint)
    (chunks : List Bytes) (w : World) : ∃ t, Visit.Paid svc chunks.flatten w
      ⟨peer, t, (run svc peer chunks w).1, (run svc peer chunks w).2.1, (run svc peer chunks w).2.2⟩ := by
  have hstart : Told (HasRead svc peer w []) [] (accept svc peer 0) w :=
    ⟨[], .accept 0 w, .nothing w, rfl, fun hf => by cases hf⟩
  have hopened := Told.settle ((driven_hasRead svc peer w []).drivenAt 0) hstart none
  refine paid_of_feedAll hopened ?_ chunks
  have hp := punctual_accept hs hl peer 0
  rcases meets_accept svc peer 0 w with ⟨hn, -⟩ | ⟨-, hr, -, hp'⟩
  · exact absurd hp hn
  · refine inTime_of_rest hr (hp' hp) fun phase => ?_
    rcases ho : w.run (admission peer.ip) with ⟨banned, w'⟩
    cases banned <;> simp [welcome, ho]

theorem kept_clock (svc : Service) (now : Int) : Kept svc fun _ _ _ w => w.clock = now where
  decide {t out c w} h := by
    obtain ⟨q, -, hw⟩ | ⟨-, hw⟩ := move_cases svc c w .decide
    · exact (congrArg World.clock hw).trans ((World.clock_answer w q).trans h)
    · exact (congrArg World.clock hw).trans h
  write h _ _ := h
  receive h _ := h
  endOfInput h := h
  expire h := h

theorem clock_run (svc : Service) (peer : Endpoint) (chunks : List Bytes) (w : World) :
    (run svc peer chunks w).2.2.clock = w.clock := by
  have h : Told (fun _ _ _ w' => w'.clock = w.clock) (run svc peer chunks w).1 _ _ :=
    Told.run (kept_clock svc w.clock) rfl chunks
  obtain ⟨t, h⟩ := h
  exact h

end Connection

end RealmLogon
