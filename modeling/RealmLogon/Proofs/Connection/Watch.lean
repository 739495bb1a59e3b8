import RealmLogon.Proofs.Connection.Reading
import RealmLogon.Proofs.Connection.Visit

/-! A connection in time. Its client, its directory and its pipe may take any time for anything; one deadline runs from
the acceptance or from the last answer on, and only the next answer sets it anew. -/

namespace RealmLogon.Connection

open Session

inductive Occurrence where
  /-- A question is answered, or a decision is acted on. -/
  | decide
  | write (room : Option Nat)
  | receive (chunk : Bytes)
  | endOfInput
  /-- The timer is looked at. -/
  | timer

/-- The move that a connection makes; a timer goes off only when the deadline has come. -/
def Occurrence.move? (c : Connection) (now : Nat) : Occurrence → Option Move
  | decide => some .decide
  | write room => some (.write now room)
  | receive chunk => some (.receive chunk)
  | endOfInput => some .endOfInput
  | timer => if c.isLate now then some .expire else none

def moveWrites (svc : Service) (c : Connection) : Move → Bytes
  | .write time room => (c.write svc time room).1
  | _ => []

/-- A move writes a reply to its end, and the session stays open. -/
def answers (c : Connection) : Move → Bool
  | .write _ room =>
    match c.activity with
    | .writing _ rest => fits room rest && c.session.phase != .closed
    | _ => false
  | _ => false

/-- A connection under the eyes of someone with a clock. -/
structure Watch where
  connection : Connection
  now : Nat
  /-- When the connection was accepted, or had last answered and stayed open. -/
  since : Nat
  /-- The phase of the session at that moment. -/
  phase : Phase
  history : List (Nat × Event)
  written : List (Nat × UInt8)
  ended : Option Nat

/-- How many seconds a session may idle in a phase. -/
def patience (p : Policy) (phase : Phase) : Nat := if phase = .authed then p.longTimeout else p.shortTimeout

namespace Watch

/-- The time by which the next frame must have been answered. -/
def limit (svc : Service) (k : Watch) : Nat := k.since + 1000 * patience svc.policy k.phase

def wait (k : Watch) (now : Nat) : Watch := { k with now := now }

def make (svc : Service) (k : Watch) (w : World) (m : Move) : Watch :=
  let c := (k.connection.move svc w m).1
  { connection := c
    now := k.now
    since := if k.connection.answers m then k.now else k.since
    phase := if k.connection.answers m then c.session.phase else k.phase
    history := k.history ++ (k.connection.moveTells w m).map (k.now, ·)
    written := k.written ++ (k.connection.moveWrites svc m).map (k.now, ·)
    ended := if c.result?.isSome ∧ k.ended.isNone then some k.now else k.ended }

/-- Some milliseconds pass, and the deadline with them if it comes before the next moment. -/
def pass (svc : Service) (k : Watch) (w : World) (ms : Nat) : Watch :=
  match k.connection.deadline with
  | some d =>
    if d < k.now + ms then ((k.wait d).make svc w .expire).wait (k.now + ms) else k.wait (k.now + ms)
  | none => k.wait (k.now + ms)

/-- Some milliseconds pass, and then something happens in some world. -/
def step (svc : Service) (k : Watch) (x : Nat × World × Occurrence) : Watch :=
  let k := k.pass svc x.2.1 x.1
  match x.2.2.move? k.connection k.now with
  | some m => k.make svc x.2.1 m
  | none => k

end Watch

def watch (svc : Service) (peer : Endpoint) (start : Nat) (timeline : List (Nat × World × Occurrence)) : Watch :=
  timeline.foldl (Watch.step svc) ⟨accept svc peer start, start, start, .challenge, [], [], none⟩

theorem watch_append (svc : Service) (peer : Endpoint) (start : Nat) (timeline more : List (Nat × World × Occurrence)) :
    watch svc peer start (timeline ++ more) = more.foldl (Watch.step svc) (watch svc peer start timeline) :=
  List.foldl_append

section Moves

variable {svc : Service} {peer : Endpoint} {t : List Event} {out : Bytes} {c : Connection} {w : World} {m : Move}

theorem conversation_move (h : Conversation svc peer t out c w) (m : Move) :
    Conversation svc peer (t ++ c.moveTells w m) (out ++ c.moveWrites svc m) (c.move svc w m).1
      (c.move svc w m).2 := by
  cases m with
  | decide => simpa only [moveWrites, moveTells, move, List.append_nil] using h.decide
  | write time room => exact h.write time room
  | receive chunk => simpa only [moveWrites, moveTells, move, List.append_nil] using h.receive chunk
  | endOfInput => simpa only [moveWrites, moveTells, move, List.append_nil] using h.endOfInput
  | expire => simpa only [moveWrites, moveTells, move, List.append_nil] using h.expire

theorem result?_ne_none {r : Except SessionError Unit} (h : c.activity = .finished r) : c.result? ≠ none := by
  rw [result?, h]
  nofun

theorem move_of_finished {r : Except SessionError Unit} (h : c.activity = .finished r) (svc : Service) (w : World)
    (m : Move) :
    (c.move svc w m).1 = c ∧ c.moveTells w m = [] ∧ c.moveWrites svc m = [] ∧ c.answers m = false := by
  obtain ⟨s, b, d, a⟩ := c
  cases h
  cases m <;> exact ⟨rfl, rfl, rfl, rfl⟩

theorem deadline_next (svc : Service) (c : Connection) : (c.next svc).deadline = c.deadline := by
  unfold next
  split <;> rfl

theorem deadline_decide (svc : Service) (c : Connection) (w : World) : (c.decide svc w).1.deadline = c.deadline := by
  obtain ⟨s, b, d, a⟩ := c
  cases a with
  | admitting f =>
    cases f with
    | done banned =>
      cases banned with
      | true => rfl
      | false => exact deadline_next svc _
    | ask q k => rfl
  | deciding phase f =>
    cases f with
    | done o =>
      obtain ⟨s', r⟩ := o
      cases r <;> rfl
    | ask q k => rfl
  | _ => rfl

theorem deadline_receive (svc : Service) (c : Connection) (chunk : Bytes) :
    (c.receive svc chunk).deadline = c.deadline := by
  unfold receive
  split
  · dsimp only
    split
    · rfl
    · exact deadline_next svc _
  · rfl

/-- Only a whole reply sets the deadline anew, by the session as it is then. -/
theorem deadline_write (svc : Service) (c : Connection) (time : Nat) (room : Option Nat) :
    (c.answers (.write time room) = false ∧ (c.write svc time room).2.deadline = c.deadline) ∨
      (c.answers (.write time room) = true ∧ c.session.phase ≠ .closed ∧
        (c.write svc time room).2.deadline = deadlineFrom svc c.session time ∧
        (c.write svc time room).2.session = c.session) := by
  obtain ⟨s, b, d, a⟩ := c
  cases a with
  | writing phase rest =>
    cases hf : fits room rest with
    | true =>
      by_cases hp : s.phase = .closed
      · refine .inl ⟨?_, ?_⟩
        · simp [answers, hp]
        · simp only [write, written, hf, hp, if_true]
          rfl
      · refine .inr ⟨?_, hp, ?_⟩
        · simp [answers, hf, hp]
        · simp only [write, written, hf, hp, if_true, if_false]
          exact ⟨deadline_next svc _, next_session svc _⟩
    | false =>
      refine .inl ⟨?_, ?_⟩
      · simp [answers, hf]
      · simp [write, hf]
  | _ => exact .inl ⟨rfl, rfl⟩

theorem deadline_move (svc : Service) (c : Connection) (w : World) (m : Move) :
    (c.answers m = false ∧ (c.move svc w m).1.deadline = c.deadline) ∨
      (c.answers m = true ∧ c.session.phase ≠ .closed ∧ ∃ time room, m = .write time room ∧
        (c.move svc w m).1.deadline = deadlineFrom svc c.session time ∧ (c.move svc w m).1.session = c.session) := by
  cases m with
  | decide => exact .inl ⟨rfl, deadline_decide svc c w⟩
  | write time room =>
    exact (deadline_write svc c time room).imp_right fun ⟨ha, hp, h⟩ => ⟨ha, hp, time, room, rfl, h⟩
  | receive chunk => exact .inl ⟨rfl, deadline_receive svc c chunk⟩
  | endOfInput =>
    refine .inl ⟨rfl, ?_⟩
    simp only [move, endOfInput]
    split <;> rfl
  | expire =>
    refine .inl ⟨rfl, ?_⟩
    simp only [move, expire]
    split <;> rfl

theorem ne_timeout_next (svc : Service) (c : Connection) (phase : Phase) :
    (c.next svc).activity ≠ .finished (.error (.timeout phase)) := by
  unfold next
  cases hn : c.session.nextFrame c.buffer with
  | error e =>
    intro he
    cases he
    exact nextFrame_ne_timeout c.buffer phase hn
  | ok f => cases f <;> nofun

theorem finished_ne_timeout {r : Except SessionError Unit} {phase : Phase} (h : r ≠ .error (.timeout phase)) :
    Activity.finished r ≠ .finished (.error (.timeout phase)) :=
  fun he => h (Activity.finished.inj he)

theorem ne_timeout_move (h : Held svc peer t c) (hr : c.result? = none) (hm : m ≠ .expire) (phase : Phase) :
    (c.move svc w m).1.activity ≠ .finished (.error (.timeout phase)) := by
  obtain ⟨s, b, d, a⟩ := c
  cases a with
  | admitting f =>
    cases m with
    | decide =>
      cases f with
      | done banned =>
        cases banned with
        | true => exact Activity.noConfusion
        | false => exact ne_timeout_next svc _ phase
      | ask q k => exact Activity.noConfusion
    | expire => exact absurd rfl hm
    | _ => exact Activity.noConfusion
  | deciding phase' f =>
    cases m with
    | decide =>
      cases f with
      | done o =>
        obtain ⟨s', r⟩ := o
        cases r with
        | ok reply => exact Activity.noConfusion
        | error e =>
          -- No handler runs out of time by itself.
          have ha : Answering svc peer t s phase' (.done (s', .error e)) := h
          cases ha with
          | taken hs hn hl =>
            obtain ⟨-, ⟨e', rfl⟩ | ⟨login, rfl⟩⟩ | ⟨rfl, -⟩ :=
              (answered_of_yields (coherent_of_served hs) (due_of_nextFrame hn) hl).fault
            · exact finished_ne_timeout (by simp)
            · exact finished_ne_timeout (by simp)
            · exact finished_ne_timeout (by simp)
      | ask q k => exact Activity.noConfusion
    | expire => exact absurd rfl hm
    | _ => exact Activity.noConfusion
  | writing phase' rest =>
    cases m with
    | write time room =>
      simp only [move, write]
      split
      · unfold written
        split
        · exact finished_ne_timeout (by simp)
        · exact ne_timeout_next svc _ phase
      · exact Activity.noConfusion
    | expire => exact absurd rfl hm
    | _ => exact Activity.noConfusion
  | waiting =>
    cases m with
    | receive chunk =>
      simp only [move, receive]
      split
      · exact finished_ne_timeout (by simp)
      · exact ne_timeout_next svc _ phase
    | endOfInput => exact finished_ne_timeout (by simp)
    | expire => exact absurd rfl hm
    | _ => exact Activity.noConfusion
  | finished r => cases hr

end Moves

section Timely

variable {svc : Service} {peer : Endpoint} {k : Watch} {w : World} {m : Move}

/-- A watched connection either is within its limit, with nothing else as its deadline, or has ended within its limit;
a timeout comes at the limit. -/
structure Timely (svc : Service) (peer : Endpoint) (k : Watch) : Prop where
  conversation : ∃ w, Conversation svc peer (k.history.map Prod.snd) (k.written.map Prod.snd) k.connection w
  since_le : k.since ≤ k.now
  pending : k.connection.result? = none →
    k.ended = none ∧ k.now ≤ k.limit svc ∧ k.connection.deadline = some (k.limit svc)
  finished : ∀ r, k.connection.activity = .finished r → ∃ t, k.ended = some t ∧ k.since ≤ t ∧ t ≤ k.limit svc ∧
    t ≤ k.now ∧ ∀ phase, r = .error (.timeout phase) → t = k.limit svc
  history_le : ∀ x ∈ k.history, x.1 ≤ k.ended.getD k.now
  written_le : ∀ x ∈ k.written, x.1 ≤ k.ended.getD k.now

theorem idleTimeout_eq {s : Session} (hs : s.Coherent) (p : Policy) :
    s.idleTimeout p = some (patience p s.phase) := by
  unfold idleTimeout patience
  rcases hs.phase with hp | hp | hp | hp | hp <;> rw [hp] <;> rfl

theorem timely_accept (svc : Service) (peer : Endpoint) (start : Nat) :
    Timely svc peer ⟨accept svc peer start, start, start, .challenge, [], [], none⟩ where
  conversation := ⟨World.mk .empty 0 ⟨fun _ => 0, 0⟩ [] (fun _ _ => false) [], .accept start _⟩
  since_le := Nat.le_refl _
  pending _ := ⟨rfl, Nat.le_add_right _ _, rfl⟩
  finished r hr := by cases hr
  history_le := by simp
  written_le := by simp

theorem Timely.held (h : Timely svc peer k) : Held svc peer (k.history.map Prod.snd) k.connection :=
  held_of_conversation h.conversation.choose_spec

theorem Timely.isSome_ended (h : Timely svc peer k) {r : Except SessionError Unit}
    (hr : k.connection.activity = .finished r) : k.ended.isSome := by
  obtain ⟨t, ht, -⟩ := h.finished r hr
  rw [ht]
  rfl

theorem getD_mono {a b : Nat} (o : Option Nat) (h : a ≤ b) : o.getD a ≤ o.getD b := by
  cases o with
  | none => exact h
  | some t => exact Nat.le_refl t

theorem stamped_le {α : Type} {l : List (Nat × α)} {now : Nat} (h : ∀ x ∈ l, x.1 ≤ now) (more : List α) :
    ∀ x ∈ l ++ more.map (now, ·), x.1 ≤ now := by
  intro x hx
  obtain hx | hx := List.mem_append.mp hx
  · exact h x hx
  · obtain ⟨e, -, rfl⟩ := List.mem_map.mp hx
    exact Nat.le_refl now

theorem Timely.wait (h : Timely svc peer k) {now : Nat} (hn : k.now ≤ now)
    (hl : k.connection.result? = none → now ≤ k.limit svc) : Timely svc peer (k.wait now) where
  conversation := h.conversation
  since_le := Nat.le_trans h.since_le hn
  pending hr := ⟨(h.pending hr).1, hl hr, (h.pending hr).2.2⟩
  finished r hr := by
    obtain ⟨t, he, hs, hlimit, ht, hlate⟩ := h.finished r hr
    exact ⟨t, he, hs, hlimit, Nat.le_trans ht hn, hlate⟩
  history_le x hx := Nat.le_trans (h.history_le x hx) (getD_mono k.ended hn)
  written_le x hx := Nat.le_trans (h.written_le x hx) (getD_mono k.ended hn)

theorem make_of_finished {r : Except SessionError Unit} (hr : k.connection.activity = .finished r)
    (he : k.ended.isSome) (w : World) (m : Move) : k.make svc w m = k := by
  obtain ⟨hc, ht, hw, ha⟩ := move_of_finished hr svc w m
  obtain ⟨t, he⟩ := Option.isSome_iff_exists.mp he
  obtain ⟨c, now, since, phase, history, written, ended⟩ := k
  cases he
  simp only [Watch.make, hc, ht, hw, ha, Bool.false_eq_true, if_false, List.map_nil, List.append_nil,
    Option.isNone_some, and_false]

/-- The session of a connection that answers is the one that the history has led to. -/
theorem served_of_answers {t : List Event} {c : Connection} (h : Held svc peer t c) (ha : c.answers m = true) :
    Served svc peer t c.session := by
  obtain ⟨s, b, d, a⟩ := c
  cases m with
  | write time room =>
    cases a with
    | writing phase rest => exact h
    | _ => cases ha
  | _ => cases ha

theorem ended_make {r : Except SessionError Unit} (he : k.ended = none)
    (hf : (k.make svc w m).connection.activity = .finished r) : (k.make svc w m).ended = some k.now := by
  have hsome : (k.connection.move svc w m).1.result? = some r := by
    have hf' : (k.connection.move svc w m).1.activity = .finished r := hf
    rw [result?, hf']
  simp only [Watch.make, hsome, he, Option.isSome_some, Option.isNone_none, and_self, if_true]

/-- Whatever a connection does within its limit, its deadline is the limit that it has then. -/
theorem Timely.aims (h : Timely svc peer k) (hr : k.connection.result? = none)
    (hw : ∀ time room, m = .write time room → time = k.now) :
    (k.make svc w m).since ≤ k.now ∧ k.now ≤ (k.make svc w m).limit svc ∧
      (k.make svc w m).connection.deadline = some ((k.make svc w m).limit svc) := by
  obtain ⟨-, hnow, hdeadline⟩ := h.pending hr
  obtain ⟨ha, hd⟩ | ⟨ha, -, time, room, hm, hd, hs⟩ := deadline_move svc k.connection w m
  · simp only [Watch.make, Watch.limit, ha, Bool.false_eq_true, if_false]
    exact ⟨h.since_le, hnow, hd.trans hdeadline⟩
  · have hc : k.connection.session.Coherent := coherent_of_served (served_of_answers h.held ha)
    simp only [Watch.make, Watch.limit, ha, if_true, hs]
    refine ⟨Nat.le_refl _, Nat.le_add_right _ _, hd.trans ?_⟩
    rw [deadlineFrom, idleTimeout_eq hc, hw time room hm]
    rfl

/-- A move keeps a connection within its limit if replies are written now, and timers go off at the deadline. -/
theorem Timely.make (h : Timely svc peer k) (w : World) (hw : ∀ time room, m = .write time room → time = k.now)
    (he : m = .expire → k.connection.isLate k.now = true) : Timely svc peer (k.make svc w m) := by
  obtain ⟨r, hr⟩ | hr := k.connection.finished_or_pending
  · rw [make_of_finished hr (h.isSome_ended hr)]
    exact h
  obtain ⟨hend, hnow, hdeadline⟩ := h.pending hr
  obtain ⟨hsince, hlimit, hd⟩ := h.aims (w := w) hr hw
  have hended : (k.make svc w m).ended.getD k.now = k.now := by
    simp only [Watch.make, hend]
    split <;> rfl
  have hlate {phase : Phase} (hf : (k.make svc w m).connection.activity = .finished (.error (.timeout phase))) :
      k.now = (k.make svc w m).limit svc := by
    -- Only a timer makes a timeout, and it goes off at the deadline, which is the limit.
    by_cases hm : m = .expire
    · have hl := he hm
      rw [isLate, hdeadline] at hl
      subst hm
      exact Nat.le_antisymm hnow (of_decide_eq_true hl)
    · exact absurd hf (ne_timeout_move h.held hr hm phase)
  have hle : k.ended.getD k.now ≤ k.now := by
    rw [hend]
    exact Nat.le_refl _
  exact {
    conversation := by
      obtain ⟨w', hc⟩ := h.conversation
      have hmove := conversation_move (hc.elsewhere w) m
      refine ⟨(k.connection.move svc w m).2, ?_⟩
      simpa only [Watch.make, List.map_append, List.map_map, Function.comp_def, List.map_id'] using hmove
    since_le := hsince
    pending := fun hr' => by
      have hnone : (k.connection.move svc w m).1.result? = none := hr'
      refine ⟨?_, hlimit, hd⟩
      simp only [Watch.make, hnone, hend, Option.isSome_none, Bool.false_eq_true, false_and, if_false]
    finished := fun r hr' =>
      ⟨k.now, ended_make hend hr', hsince, hlimit, Nat.le_refl _, fun phase hphase => hlate (hphase ▸ hr')⟩
    history_le := fun x hx =>
      Nat.le_trans (stamped_le (fun x hx => Nat.le_trans (h.history_le x hx) hle) _ x hx) (Nat.le_of_eq hended.symm)
    written_le := fun x hx =>
      Nat.le_trans (stamped_le (fun x hx => Nat.le_trans (h.written_le x hx) hle) _ x hx) (Nat.le_of_eq hended.symm) }

theorem pass_cases (h : Timely svc peer k) (w : World) (ms : Nat) :
    ((k.connection.result? = none → k.now + ms ≤ k.limit svc) ∧ k.pass svc w ms = k.wait (k.now + ms)) ∨
      (k.connection.result? = none ∧ k.limit svc < k.now + ms ∧
        k.pass svc w ms = ((k.wait (k.limit svc)).make svc w .expire).wait (k.now + ms)) := by
  unfold Watch.pass
  obtain ⟨r, hr⟩ | hr := k.connection.finished_or_pending
  · refine .inl ⟨fun hn => absurd hn (result?_ne_none hr), ?_⟩
    have hmake (d : Nat) : (k.wait d).make svc w .expire = k.wait d :=
      make_of_finished (k := k.wait d) hr (h.isSome_ended hr) w .expire
    split
    · simp only [hmake]
      exact ite_self _
    · rfl
  · obtain ⟨-, -, hdeadline⟩ := h.pending hr
    simp only [hdeadline]
    by_cases hl : k.limit svc < k.now + ms
    · exact .inr ⟨hr, hl, if_pos hl⟩
    · exact .inl ⟨fun _ => Nat.le_of_not_lt hl, if_neg hl⟩

theorem make_expire (hr : k.connection.result? = none) (svc : Service) (w : World) :
    ∃ phase, (k.make svc w .expire).connection.activity = .finished (.error (.timeout phase)) := by
  obtain ⟨⟨s, b, d, a⟩, now, since, phase, history, written, ended⟩ := k
  cases a with
  | finished r => cases hr
  | _ => exact ⟨_, rfl⟩

theorem Timely.pass (h : Timely svc peer k) (w : World) (ms : Nat) : Timely svc peer (k.pass svc w ms) := by
  obtain ⟨hl, hp⟩ | ⟨hr, hl, hp⟩ := pass_cases h w ms
  · rw [hp]
    exact h.wait (Nat.le_add_right _ _) hl
  · obtain ⟨-, hnow, hdeadline⟩ := h.pending hr
    have hlate : k.connection.isLate (k.limit svc) = true := by
      rw [isLate, hdeadline]
      exact decide_eq_true (Nat.le_refl _)
    have hmade := (h.wait hnow fun _ => Nat.le_refl _).make w (m := .expire) (fun _ _ he => Move.noConfusion he) fun _ => hlate
    obtain ⟨phase, hf⟩ := make_expire (k := k.wait (k.limit svc)) hr svc w
    rw [hp]
    exact hmade.wait (Nat.le_of_lt hl) fun hn => absurd hn (result?_ne_none hf)

theorem move?_write {o : Occurrence} {c : Connection} {now time : Nat} {room : Option Nat}
    (h : o.move? c now = some (.write time room)) : time = now ∧ o = .write room := by
  cases o with
  | write room' =>
    cases h
    exact ⟨rfl, rfl⟩
  | timer =>
    simp only [Occurrence.move?] at h
    split at h <;> cases h
  | _ => cases h

theorem move?_expire {o : Occurrence} {c : Connection} {now : Nat} (h : o.move? c now = some .expire) :
    c.isLate now = true := by
  cases o with
  | timer =>
    simp only [Occurrence.move?] at h
    split at h
    · assumption
    · cases h
  | _ => cases h

theorem move?_endOfInput {o : Occurrence} {c : Connection} {now : Nat} (h : o.move? c now = some .endOfInput) :
    o = .endOfInput := by
  cases o with
  | endOfInput => rfl
  | timer =>
    simp only [Occurrence.move?] at h
    split at h <;> cases h
  | _ => cases h

theorem Timely.step (h : Timely svc peer k) (x : Nat × World × Occurrence) : Timely svc peer (k.step svc x) := by
  have hpass := h.pass x.2.1 x.1
  simp only [Watch.step]
  split
  · rename_i m hm
    refine hpass.make x.2.1 (fun time room he => ?_) fun he => ?_
    · exact (move?_write (he ▸ hm)).1
    · exact move?_expire (he ▸ hm)
  · exact hpass

/-- Whatever happens, and whenever it does, a connection keeps to its limit. -/
theorem timely_watch (svc : Service) (peer : Endpoint) (start : Nat) (timeline : List (Nat × World × Occurrence)) :
    Timely svc peer (watch svc peer start timeline) := by
  have hfold {k : Watch} (h : Timely svc peer k) : Timely svc peer (timeline.foldl (Watch.step svc) k) := by
    induction timeline generalizing k with
    | nil => exact h
    | cons x timeline ih => exact ih (h.step x)
  exact hfold (timely_accept svc peer start)

theorem step_of_passed {x : Nat × World × Occurrence} (h : Timely svc peer (k.pass svc x.2.1 x.1))
    {r : Except SessionError Unit} (hr : (k.pass svc x.2.1 x.1).connection.activity = .finished r) :
    k.step svc x = k.pass svc x.2.1 x.1 := by
  simp only [Watch.step]
  split
  · exact make_of_finished hr (h.isSome_ended hr) x.2.1 _
  · rfl

theorem step_cases (h : Timely svc peer k) (x : Nat × World × Occurrence) :
    k.step svc x = k.wait (k.now + x.1) ∨
      (k.connection.result? = none ∧
        k.step svc x = ((k.wait (k.limit svc)).make svc x.2.1 .expire).wait (k.now + x.1)) ∨
      ∃ m, k.connection.result? = none ∧ x.2.2.move? k.connection (k.now + x.1) = some m ∧
        k.step svc x = (k.wait (k.now + x.1)).make svc x.2.1 m := by
  have hpassed := h.pass x.2.1 x.1
  obtain ⟨-, hp⟩ | ⟨hr, -, hp⟩ := pass_cases h x.2.1 x.1
  · obtain ⟨r, hr⟩ | hr := k.connection.finished_or_pending
    · refine .inl ((step_of_passed (r := r) hpassed ?_).trans hp)
      rw [hp]
      exact hr
    · cases hm : x.2.2.move? k.connection (k.now + x.1) with
      | none =>
        refine .inl ?_
        simp only [Watch.step, hp]
        rw [Watch.wait, hm]
      | some m =>
        refine .inr (.inr ⟨m, hr, rfl, ?_⟩)
        simp only [Watch.step, hp]
        rw [Watch.wait, hm]
  · obtain ⟨phase, hf⟩ := make_expire (k := k.wait (k.limit svc)) hr svc x.2.1
    refine .inr (.inl ⟨hr, (step_of_passed (r := .error (.timeout phase)) hpassed ?_).trans hp⟩)
    rw [hp]
    exact hf

theorem step_of_finished (h : Timely svc peer k) {r : Except SessionError Unit}
    (hr : k.connection.activity = .finished r) (x : Nat × World × Occurrence) :
    k.step svc x = k.wait (k.now + x.1) := by
  obtain hs | ⟨hn, -⟩ | ⟨m, hn, -⟩ := step_cases h x
  · exact hs
  · exact absurd hn (result?_ne_none hr)
  · exact absurd hn (result?_ne_none hr)

theorem foldl_of_finished (h : Timely svc peer k) {r : Except SessionError Unit}
    (hr : k.connection.activity = .finished r) (timeline : List (Nat × World × Occurrence)) :
    ∃ now, timeline.foldl (Watch.step svc) k = k.wait now := by
  induction timeline generalizing k with
  | nil => exact ⟨k.now, rfl⟩
  | cons x timeline ih =>
    rw [List.foldl_cons, step_of_finished h hr]
    exact ih (h.wait (Nat.le_add_right _ _) fun hn => absurd hn (result?_ne_none hr)) hr

theorem make_unanswered (ha : k.connection.answers m = false) (svc : Service) (w : World) :
    (k.make svc w m).limit svc = k.limit svc ∧ (k.make svc w m).connection.deadline = k.connection.deadline := by
  obtain ⟨-, hd⟩ | ⟨ha', -⟩ := deadline_move svc k.connection w m
  · simp only [Watch.make, Watch.limit, ha, Bool.false_eq_true, if_false]
    exact ⟨trivial, hd⟩
  · cases ha.symm.trans ha'

theorem limit_step (h : Timely svc peer k) {x : Nat × World × Occurrence}
    (hx : ∀ time room, x.2.2 = .write room → k.connection.answers (.write time room) = false) :
    (k.step svc x).limit svc = k.limit svc ∧ (k.step svc x).connection.deadline = k.connection.deadline := by
  obtain hs | ⟨-, hs⟩ | ⟨m, -, hm, hs⟩ := step_cases h x
  · rw [hs]
    exact ⟨rfl, rfl⟩
  · rw [hs]
    exact make_unanswered (k := k.wait (k.limit svc)) (m := .expire) rfl svc x.2.1
  · rw [hs]
    refine make_unanswered (k := k.wait (k.now + x.1)) ?_ svc x.2.1
    cases m with
    | write time room => exact hx time room (move?_write hm).2
    | _ => rfl

end Timely

end RealmLogon.Connection
