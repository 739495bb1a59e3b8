import RealmLogon.Connection.Run
import RealmLogon.Proofs.Session.Framing

/-! What a connection comes to when it is left to itself, in one function of the session, the bytes and the
world, without deadlines and without the machine that moves from one activity to the next. -/

namespace RealmLogon.Connection

inductive Rest where
  | waiting (s : Session) (buffer : Bytes)
  | ended (result : Except SessionError Unit)

/-- How a connection goes on after a frame: with a session, or not at all. -/
inductive Course where
  | goesOn (s : Session)
  | ends (result : Except SessionError Unit)

def serveFrame (svc : Service) (s : Session) (c : Command) (frame : Bytes) (w : World) :
    Bytes × Course × World :=
  let o := w.run (s.dispatch svc c frame)
  match o.1.2 with
  | .error e => ([], .ends (.error e), o.2)
  | .ok reply => (reply, if o.1.1.phase = .closed then .ends (.ok ()) else .goesOn o.1.1, o.2)

def serve (svc : Service) (s : Session) (b : Bytes) (w : World) : Bytes × Rest × World :=
  match _hn : s.nextFrame b with
  | .error e => ([], .ended (.error e), w)
  | .ok none => ([], .waiting s b, w)
  | .ok (some (c, n)) =>
    let r := serveFrame svc s c (b.take n) w
    match r.2.1 with
    | .ends result => (r.1, .ended result, r.2.2)
    | .goesOn s' =>
      let more := serve svc s' (b.drop n) r.2.2
      (r.1 ++ more.1, more.2)
termination_by b.length
decreasing_by
  have hb := Session.nextFrame_bounds _hn
  rw [List.length_drop]
  omega

section Serve

variable {svc : Service} {s s' : Session} {b reply : Bytes} {w w' : World} {c : Command} {n : Nat}

theorem serve_of_error {e : SessionError} (hn : s.nextFrame b = .error e) (w : World) :
    serve svc s b w = ([], .ended (.error e), w) := by
  rw [serve]
  split <;> simp_all

theorem serve_of_none (hn : s.nextFrame b = .ok none) (w : World) :
    serve svc s b w = ([], .waiting s b, w) := by
  rw [serve]
  split <;> simp_all

theorem serve_of_ends {result : Except SessionError Unit} (hn : s.nextFrame b = .ok (some (c, n)))
    (hf : serveFrame svc s c (b.take n) w = (reply, .ends result, w')) :
    serve svc s b w = (reply, .ended result, w') := by
  rw [serve]
  split
  · simp_all
  · simp_all
  · rename_i c' n' hn'
    obtain ⟨rfl, rfl⟩ : c' = c ∧ n' = n := by simpa [hn, eq_comm] using hn'
    simp only [hf]

theorem serve_of_goesOn (hn : s.nextFrame b = .ok (some (c, n)))
    (hf : serveFrame svc s c (b.take n) w = (reply, .goesOn s', w')) :
    serve svc s b w =
      (reply ++ (serve svc s' (b.drop n) w').1, (serve svc s' (b.drop n) w').2) := by
  rw [serve]
  split
  · simp_all
  · simp_all
  · rename_i c' n' hn'
    obtain ⟨rfl, rfl⟩ : c' = c ∧ n' = n := by simpa [hn, eq_comm] using hn'
    simp only [hf]

/-- Go on with more bytes, unless the connection has ended. -/
def Rest.extend (svc : Service) (more : Bytes) (w : World) : Rest → Bytes × Rest × World
  | .waiting s b => serve svc s (b ++ more) w
  | .ended r => ([], .ended r, w)

/-- How many bytes wait for the rest of their frame. -/
def Rest.size : Rest → Nat
  | .waiting _ b => b.length
  | .ended _ => 0

theorem nextFrame_append_some (hn : s.nextFrame b = .ok (some (c, n))) (more : Bytes) :
    s.nextFrame (b ++ more) = .ok (some (c, n)) := by
  rw [Session.nextFrame_append _ more, hn]
  rw [hn]
  simp

theorem serve_append (svc : Service) (s : Session) (b more : Bytes) (w : World) :
    serve svc s (b ++ more) w =
      ((serve svc s b w).1 ++ ((serve svc s b w).2.1.extend svc more (serve svc s b w).2.2).1,
        ((serve svc s b w).2.1.extend svc more (serve svc s b w).2.2).2) := by
  -- The frame at the front is the same with the further bytes, so both sides go through the same frames.
  induction hl : b.length using Nat.strongRecOn generalizing s b w with
  | ind l ih =>
    cases hn : s.nextFrame b with
    | error e =>
      have ha : s.nextFrame (b ++ more) = .error e := by
        rw [Session.nextFrame_append _ more, hn]
        rw [hn]
        simp
      rw [serve_of_error hn, serve_of_error ha]
      rfl
    | ok f =>
      cases f with
      | none =>
        rw [serve_of_none hn]
        rfl
      | some f =>
        obtain ⟨c, n⟩ := f
        have hb := Session.nextFrame_bounds hn
        have ha := nextFrame_append_some hn more
        have ht : (b ++ more).take n = b.take n := List.take_append_of_le_length hb.2
        have hd : (b ++ more).drop n = b.drop n ++ more := List.drop_append_of_le_length hb.2
        rcases hf : serveFrame svc s c (b.take n) w with ⟨reply, course, w'⟩
        cases course with
        | ends result =>
          rw [serve_of_ends hn hf, serve_of_ends ha (ht ▸ hf)]
          simp [Rest.extend]
        | goesOn s' =>
          have hlt : (b.drop n).length < l := by
            rw [List.length_drop]
            omega
          rw [serve_of_goesOn hn hf, serve_of_goesOn ha (ht ▸ hf), hd, ih _ hlt s' _ w' rfl]
          simp only [List.append_assoc]

end Serve

/-- What a connection has come to, unless there is something to decide or to write. -/
def rest? (c : Connection) : Option Rest :=
  match c.activity with
  | .waiting => some (.waiting c.session c.buffer)
  | .finished r => some (.ended r)
  | _ => none

def TimedOut (c : Connection) : Prop := ∃ phase, c.activity = .finished (.error (.timeout phase))

structure Punctual (svc : Service) (time : Nat) (c : Connection) : Prop where
  short : 0 < svc.policy.shortTimeout
  long : 0 < svc.policy.longTimeout
  early : c.isLate time = false

/-- A connection has come to what it is to come to, unless a deadline has passed. -/
def Meets (svc : Service) (time : Nat) (c : Connection) (r : Bytes × Connection × World)
    (i : Bytes × Rest × World) : Prop :=
  (¬Punctual svc time c ∧ r.2.1.TimedOut) ∨
  (r.1 = i.1 ∧ r.2.1.rest? = some i.2.1 ∧ r.2.2 = i.2.2 ∧
    (Punctual svc time c → Punctual svc time r.2.1))

section Settle

variable {svc : Service} {time : Nat} {c : Connection} {w w' : World}

theorem runAtOnce_eq_some {α : Type} {f : Flow α} {a : α} (h : w.runAtOnce f = (some a, w')) :
    w.run f = (a, w') := by
  induction f generalizing w with
  | done b =>
    cases h
    rfl
  | ask q k ih =>
    rw [World.runAtOnce] at h
    split at h
    · cases h
    · exact ih _ h

theorem resolveAt_cases (svc : Service) (time : Nat) (c : Connection) (w : World) :
    c.resolveAt svc time w = c.resolve svc w ∨
      (c.isLate time = true ∧ ∃ w', c.resolveAt svc time w = (c.expire, w')) := by
  unfold resolveAt
  cases hl : c.isLate time with
  | false => exact .inl rfl
  | true =>
    rw [if_pos rfl]
    unfold resolveAtOnce resolve
    cases ha : c.activity with
    | admitting f =>
      rcases hr : w.runAtOnce f with ⟨r, w'⟩
      cases r with
      | none => exact .inr ⟨rfl, w', by simp only [hr]; rfl⟩
      | some banned => exact .inl (by simp only [hr, runAtOnce_eq_some hr]; rfl)
    | deciding phase f =>
      rcases hr : w.runAtOnce f with ⟨r, w'⟩
      cases r with
      | none => exact .inr ⟨rfl, w', by simp only [hr]; rfl⟩
      | some o => exact .inl (by simp only [hr, runAtOnce_eq_some hr]; rfl)
    | writing phase rest => exact .inl rfl
    | waiting => exact .inl rfl
    | finished r => exact .inl rfl

theorem settle_of_rest {r : Rest} (h : c.rest? = some r) (time : Nat) (room : Option Nat) (w : World) :
    c.settle svc time room w = ([], c, w) := by
  obtain ⟨s, b, d, a⟩ := c
  have hd : resolveAt svc time ⟨s, b, d, a⟩ w = (⟨s, b, d, a⟩, w) := by
    unfold resolveAt resolveAtOnce resolve
    cases a with
    | admitting f => cases h
    | deciding phase f => cases h
    | writing phase rest => cases h
    | waiting => exact ite_self _
    | finished r => exact ite_self _
  have hw : write svc ⟨s, b, d, a⟩ time room = ([], ⟨s, b, d, a⟩) := by
    cases a with
    | writing phase rest => cases h
    | _ => rfl
  rw [settle]
  simp only [hd, hw, Nat.lt_irrefl, dite_false]

/-- One decision and one reply, and what comes after them. -/
theorem settle_eq {d : Connection × World} {r : Bytes × Connection} (hd : c.resolveAt svc time w = d)
    (hr : d.1.write svc time none = r)
    (hi : r.2.buffer.length < c.buffer.length ∨ ∃ i, r.2.rest? = some i) :
    c.settle svc time none w =
      (r.1 ++ (r.2.settle svc time none d.2).1, (r.2.settle svc time none d.2).2) := by
  rw [settle]
  simp only [hd, hr]
  split
  · rfl
  · rename_i hlt
    obtain ⟨i, hi⟩ := hi.resolve_left hlt
    rw [settle_of_rest hi]
    simp

theorem meets_expire {phase : Phase} (hp : c.pendingPhase? = some phase) (hl : c.isLate time = true)
    (hd : c.resolveAt svc time w = (c.expire, w')) (i : Bytes × Rest × World) :
    Meets svc time c (c.settle svc time none w) i := by
  have he : c.expire = c.finish (.error (.timeout phase)) := by
    simp only [expire, hp]
  have hr : c.expire.rest? = some (.ended (.error (.timeout phase))) := by
    rw [he]
    rfl
  have hw : c.expire.write svc time none = ([], c.expire) := by
    rw [he]
    rfl
  rw [settle_eq hd hw (.inr ⟨_, hr⟩), settle_of_rest hr]
  refine .inl ⟨fun h => ?_, phase, by rw [he]; rfl⟩
  have hf := h.early
  rw [hl] at hf
  cases hf

theorem punctual_deadlineFrom (h : Punctual svc time c) (s : Session) (b : Bytes) (a : Activity) :
    Punctual svc time ⟨s, b, deadlineFrom svc s time, a⟩ := by
  refine ⟨h.short, h.long, ?_⟩
  have hs := h.short
  have hl := h.long
  unfold isLate deadlineFrom Session.idleTimeout
  cases s.phase <;> simp <;> omega

theorem next_of_some {command : Command} {n : Nat} (hn : c.session.nextFrame c.buffer = .ok (some (command, n))) :
    c.next svc = ⟨c.session, c.buffer.drop n, c.deadline,
      .deciding c.session.phase (c.session.dispatch svc command (c.buffer.take n))⟩ := by
  unfold next
  rw [hn]

theorem next_cases (svc : Service) (c : Connection) :
    (c.next svc).buffer.length < c.buffer.length ∨ ∃ i, (c.next svc).rest? = some i := by
  unfold next
  cases hn : c.session.nextFrame c.buffer with
  | error e => exact .inr ⟨_, rfl⟩
  | ok f =>
    cases f with
    | none => exact .inr ⟨_, rfl⟩
    | some f =>
      have hb := Session.nextFrame_bounds (c := f.1) (n := f.2) hn
      refine .inl ?_
      simp only [List.length_drop]
      omega

theorem Punctual.congr {c' : Connection} (h : Punctual svc time c) (hd : c'.deadline = c.deadline) :
    Punctual svc time c' := by
  have he := h.early
  unfold isLate at he
  refine ⟨h.short, h.long, ?_⟩
  unfold isLate
  rw [hd, he]

theorem Meets.mono {c' : Connection} {r : Bytes × Connection × World} {i : Bytes × Rest × World}
    (h : Meets svc time c' r i) (hp : Punctual svc time c → Punctual svc time c') : Meets svc time c r i := by
  rcases h with ⟨hn, ht⟩ | ⟨h₁, h₂, h₃, h₄⟩
  · exact .inl ⟨fun h => hn (hp h), ht⟩
  · exact .inr ⟨h₁, h₂, h₃, fun h => h₄ (hp h)⟩

theorem Meets.prepend {r : Bytes × Connection × World} {i : Bytes × Rest × World} (h : Meets svc time c r i)
    (reply : Bytes) : Meets svc time c (reply ++ r.1, r.2) (reply ++ i.1, i.2) := by
  rcases h with h | ⟨h₁, h₂, h₃, h₄⟩
  · exact .inl h
  · exact .inr ⟨by rw [h₁], h₂, h₃, h₄⟩

theorem settle_of_error {phase : Phase} {s' : Session} {e : SessionError}
    (hd : c.resolveAt svc time w = (c.decided phase (s', .error e), w')) :
    c.settle svc time none w = ([], { c with session := s' }.finish (.error e), w') := by
  rw [settle_eq (r := ([], { c with session := s' }.finish (.error e))) hd rfl (.inr ⟨_, rfl⟩),
    settle_of_rest (r := .ended (.error e)) rfl]
  rfl

theorem settle_of_closed {phase : Phase} {s' : Session} {reply : Bytes}
    (hd : c.resolveAt svc time w = ({ c with session := s', activity := .writing phase reply }, w'))
    (hs : s'.phase = .closed) :
    c.settle svc time none w = (reply, { c with session := s' }.finish (.ok ()), w') := by
  have hw : write svc { c with session := s', activity := .writing phase reply } time none =
      (reply, { c with session := s' }.finish (.ok ())) := by
    simp only [write, fits, written, hs, if_true]
    rfl
  rw [settle_eq hd hw (.inr ⟨_, rfl⟩), settle_of_rest (r := .ended (.ok ())) rfl]
  simp

theorem settle_of_reply {phase : Phase} {s' : Session} {reply : Bytes}
    (hd : c.resolveAt svc time w = ({ c with session := s', activity := .writing phase reply }, w'))
    (hs : s'.phase ≠ .closed) :
    c.settle svc time none w =
      (reply ++ ((next svc ⟨s', c.buffer, deadlineFrom svc s' time, .writing phase reply⟩).settle svc time none
          w').1,
        ((next svc ⟨s', c.buffer, deadlineFrom svc s' time, .writing phase reply⟩).settle svc time none w').2) := by
  have hw : write svc { c with session := s', activity := .writing phase reply } time none =
      (reply, next svc ⟨s', c.buffer, deadlineFrom svc s' time, .writing phase reply⟩) := by
    simp only [write, fits, written, if_neg hs, if_true]
  exact settle_eq hd hw (next_cases svc _)

/-- Left to itself, a connection comes to what `serve` says. -/
theorem meets_settle (svc : Service) (time : Nat) (c : Connection) (w : World) :
    Meets svc time c ((c.next svc).settle svc time none w) (serve svc c.session c.buffer w) := by
  -- Each frame that is answered makes the buffer shorter.
  induction hl : c.buffer.length using Nat.strongRecOn generalizing c w with
  | ind l ih =>
    cases hn : c.session.nextFrame c.buffer with
    | error e =>
      have he : c.next svc = c.finish (.error e) := by
        simp only [next, hn]
      rw [he, settle_of_rest (r := .ended (.error e)) rfl, serve_of_error hn]
      exact .inr ⟨rfl, rfl, rfl, fun h => ⟨h.short, h.long, h.early⟩⟩
    | ok f =>
      cases f with
      | none =>
        have he : c.next svc = { c with activity := .waiting } := by
          simp only [next, hn]
        rw [he, settle_of_rest (r := .waiting c.session c.buffer) rfl, serve_of_none hn]
        exact .inr ⟨rfl, rfl, rfl, fun h => ⟨h.short, h.long, h.early⟩⟩
      | some f =>
        obtain ⟨command, n⟩ := f
        have hlt : (c.buffer.drop n).length < l := by
          have hb := Session.nextFrame_bounds hn
          rw [List.length_drop]
          omega
        rw [next_of_some hn]
        generalize hf : c.session.dispatch svc command (c.buffer.take n) = f
        rcases resolveAt_cases svc time ⟨c.session, c.buffer.drop n, c.deadline, .deciding c.session.phase f⟩ w
          with hr | ⟨hlate, w', hr⟩
        · rcases ho : w.run f with ⟨⟨s', out⟩, w'⟩
          simp only [resolve, ho] at hr
          cases out with
          | error e =>
            have hs : serveFrame svc c.session command (c.buffer.take n) w = ([], .ends (.error e), w') := by
              simp only [serveFrame, hf, ho]
            rw [settle_of_error hr, serve_of_ends hn hs]
            exact .inr ⟨rfl, rfl, rfl, fun h => ⟨h.short, h.long, h.early⟩⟩
          | ok reply =>
            by_cases hc : s'.phase = .closed
            · have hs : serveFrame svc c.session command (c.buffer.take n) w = (reply, .ends (.ok ()), w') := by
                simp only [serveFrame, hf, ho, if_pos hc]
              rw [settle_of_closed hr hc, serve_of_ends hn hs]
              exact .inr ⟨rfl, rfl, rfl, fun h => ⟨h.short, h.long, h.early⟩⟩
            · have hs : serveFrame svc c.session command (c.buffer.take n) w = (reply, .goesOn s', w') := by
                simp only [serveFrame, hf, ho, if_neg hc]
              rw [settle_of_reply hr hc, serve_of_goesOn hn hs]
              have hi := ih _ hlt ⟨s', c.buffer.drop n, deadlineFrom svc s' time, .writing c.session.phase reply⟩
                w' rfl
              exact (hi.prepend reply).mono fun h => punctual_deadlineFrom h s' _ _
        · exact (meets_expire rfl hlate hr _).mono fun h => h.congr rfl

theorem punctual_accept (hs : 0 < svc.policy.shortTimeout) (hl : 0 < svc.policy.longTimeout) (peer : Endpoint)
    (time : Nat) : Punctual svc time (accept svc peer time) := by
  refine ⟨hs, hl, ?_⟩
  simp only [isLate, accept, deadlineFrom, Session.idleTimeout, Option.map_some, Option.any_some,
    decide_eq_false_iff_not]
  omega

def welcome (peer : Endpoint) (w : World) : Bytes × Rest × World :=
  let r := w.run (admission peer.ip)
  if r.1 then (bannedReply, .ended (.ok ()), r.2) else ([], .waiting { peer := peer } [], r.2)

theorem meets_accept (svc : Service) (peer : Endpoint) (time : Nat) (w : World) :
    Meets svc time (accept svc peer time) ((accept svc peer time).settle svc time none w) (welcome peer w) := by
  rcases resolveAt_cases svc time (accept svc peer time) w with hr | ⟨hlate, w', hr⟩
  · rcases ho : w.run (admission peer.ip) with ⟨banned, w'⟩
    have hd : (accept svc peer time).resolveAt svc time w = ((accept svc peer time).admitted svc banned, w') := by
      rw [hr]
      simp only [resolve, accept, ho]
    cases banned with
    | true =>
      have hw : welcome peer w = (bannedReply, .ended (.ok ()), w') := by
        simp only [welcome, ho, if_true]
      rw [hw, settle_of_closed hd rfl]
      exact .inr ⟨rfl, rfl, rfl, fun h => ⟨h.short, h.long, h.early⟩⟩
    | false =>
      have hw : welcome peer w = ([], .waiting { peer := peer } [], w') := by
        simp only [welcome, ho, Bool.false_eq_true, if_false]
      rw [hw, settle_eq hd rfl (.inr ⟨_, rfl⟩), settle_of_rest (r := .waiting { peer := peer } []) rfl]
      exact .inr ⟨rfl, rfl, rfl, fun h => ⟨h.short, h.long, h.early⟩⟩
  · exact meets_expire rfl hlate hr _

theorem meets_receive {i : Rest} (hi : c.rest? = some i) (svc : Service) (time : Nat) (chunk : Bytes)
    (w : World) :
    (bufferLimit < i.size + chunk.length ∧
        ((c.receive svc chunk).settle svc time none w).2.1.activity = .finished (.error .bufferOverflow)) ∨
      Meets svc time c ((c.receive svc chunk).settle svc time none w) (i.extend svc chunk w) := by
  obtain ⟨s, b, d, a⟩ := c
  cases a with
  | admitting f => cases hi
  | deciding phase f => cases hi
  | writing phase rest => cases hi
  | waiting =>
    cases hi
    by_cases hl : bufferLimit < (b ++ chunk).length
    · have hr : receive svc ⟨s, b, d, .waiting⟩ chunk =
          finish ⟨s, b ++ chunk, d, .waiting⟩ (.error .bufferOverflow) := by
        simp only [receive, if_pos hl]
      rw [hr, settle_of_rest (r := .ended (.error .bufferOverflow)) rfl]
      exact .inl ⟨List.length_append ▸ hl, rfl⟩
    · have hr : receive svc ⟨s, b, d, .waiting⟩ chunk = next svc ⟨s, b ++ chunk, d, .waiting⟩ := by
        simp only [receive, if_neg hl]
      rw [hr]
      exact .inr ((meets_settle svc time ⟨s, b ++ chunk, d, .waiting⟩ w).mono fun h => h.congr rfl)
  | finished r =>
    cases hi
    have hr : receive svc ⟨s, b, d, .finished r⟩ chunk = ⟨s, b, d, .finished r⟩ := rfl
    rw [hr, settle_of_rest (r := .ended r) rfl]
    exact .inr (.inr ⟨rfl, rfl, rfl, id⟩)

end Settle

end RealmLogon.Connection
