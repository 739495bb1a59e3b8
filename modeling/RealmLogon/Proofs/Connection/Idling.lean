import Mathlib.Data.List.Induction
import RealmLogon.Proofs.Connection.Lockout
import RealmLogon.Proofs.Connection.Timers

/-! How a connection ends whose client idles. Whatever comes and however long anything takes, no deadline but one of
the last answer counts, and it is kept to the millisecond. -/

namespace RealmLogon.Connection

open Session

section Deserted

variable {svc : Service} {peer : Endpoint} {k : Watch} {c : Connection} {w : World} {m : Move}

/-- A connection whose client does not close its side ends well only with its session. -/
theorem endsClosed_move (h : c.result? = none) (hm : m ≠ .endOfInput) : (c.move svc w m).1.EndsClosed := by
  have hc : c.EndsClosed := fun hf => absurd h (result?_ne_none hf)
  cases m with
  | decide => exact endsClosed_decide hc w
  | write time room => exact endsClosed_write hc time room
  | receive chunk =>
    simp only [move, receive]
    split
    · split
      · rintro ⟨⟩
      · exact endsClosed_next svc _
    · exact hc
  | endOfInput => exact absurd rfl hm
  | expire => exact endsClosed_expire hc

theorem deserted_step (h : Timely svc peer k) (hr : k.connection.result? = none) {x : Nat × World × Occurrence}
    (hf : (k.step svc x).connection.activity = .finished (.ok ()))
    (hp : (k.step svc x).connection.session.phase ≠ .closed) :
    x.2.2 = .endOfInput ∧ (k.step svc x).ended = some (k.step svc x).now := by
  obtain hs | ⟨-, hs⟩ | ⟨m, -, hm, hs⟩ := step_cases h x
  · rw [hs] at hf
    exact absurd hr (result?_ne_none hf)
  · obtain ⟨phase, hf'⟩ := make_expire (k := k.wait (k.limit svc)) hr svc x.2.1
    rw [hs] at hf
    cases hf'.symm.trans hf
  · rw [hs] at hf hp ⊢
    by_cases hm' : m = .endOfInput
    · exact ⟨move?_endOfInput (hm' ▸ hm), ended_make (k := k.wait _) (h.pending hr).1 hf⟩
    · exact absurd (endsClosed_move (c := k.connection) hr hm' hf) hp

/-- At some time a connection that has not ended reads that its client has closed its side. -/
def Deserts (svc : Service) (peer : Endpoint) (start : Nat) (timeline : List (Nat × World × Occurrence)) (t : Nat) :
    Prop :=
  ∃ before ms w after, timeline = before ++ (ms, w, .endOfInput) :: after ∧
    (watch svc peer start before).connection.result? = none ∧
    (watch svc peer start (before ++ [(ms, w, .endOfInput)])).now = t

theorem deserts_of_watch {start : Nat} {timeline : List (Nat × World × Occurrence)}
    (hf : (watch svc peer start timeline).connection.activity = .finished (.ok ()))
    (hp : (watch svc peer start timeline).connection.session.phase ≠ .closed) :
    ∃ t, (watch svc peer start timeline).ended = some t ∧ Deserts svc peer start timeline t := by
  induction timeline using List.reverseRecOn with
  | nil => cases hf
  | append_singleton timeline x ih =>
    have htimely := timely_watch svc peer start timeline
    have hstep : watch svc peer start (timeline ++ [x]) = (watch svc peer start timeline).step svc x :=
      watch_append svc peer start timeline [x]
    obtain ⟨r, hr⟩ | hr := (watch svc peer start timeline).connection.finished_or_pending
    · rw [hstep, step_of_finished htimely hr] at hf hp ⊢
      obtain ⟨t, ht, before, ms, w, after, rfl, hpending, hnow⟩ := ih hf hp
      exact ⟨t, ht, before, ms, w, after ++ [x], by rw [List.append_assoc]; rfl, hpending, hnow⟩
    · rw [hstep] at hf hp
      obtain ⟨hx, hended⟩ := deserted_step htimely hr hf hp
      obtain ⟨ms, w, o⟩ := x
      cases hx
      exact ⟨_, hstep ▸ hended, timeline, ms, w, [], rfl, hr, congrArg Watch.now hstep⟩

end Deserted

/-- How a watched connection has come to its end at a time. -/
inductive Ending (svc : Service) (peer : Endpoint) (start : Nat) (timeline : List (Nat × World × Occurrence))
    (k : Watch) (t : Nat) : Except SessionError Unit → Prop
  /-- The deadline has passed. -/
  | late (phase : Phase) (h : t = k.limit svc) : Ending svc peer start timeline k t (.error (.timeout phase))
  /-- Something else was wrong. -/
  | failed {e : SessionError} (h : ∀ phase, e ≠ .timeout phase) : Ending svc peer start timeline k t (.error e)
  /-- The service has written its last reply. -/
  | closed (h : k.connection.session.phase = .closed) : Ending svc peer start timeline k t (.ok ())
  /-- The client has closed its side. -/
  | deserted (h : Deserts svc peer start timeline t) : Ending svc peer start timeline k t (.ok ())

theorem ending_of_watch {svc : Service} {peer : Endpoint} {start : Nat} {timeline : List (Nat × World × Occurrence)}
    {r : Except SessionError Unit} (hr : (watch svc peer start timeline).connection.activity = .finished r) {t : Nat}
    (ht : (watch svc peer start timeline).ended = some t)
    (hlate : ∀ phase, r = .error (.timeout phase) → t = (watch svc peer start timeline).limit svc) :
    Ending svc peer start timeline (watch svc peer start timeline) t r := by
  cases r with
  | error e =>
    cases e with
    | timeout phase => exact .late phase (hlate phase rfl)
    | _ => exact .failed nofun
  | ok u =>
    by_cases hp : (watch svc peer start timeline).connection.session.phase = .closed
    · exact .closed hp
    · obtain ⟨t', ht', hd⟩ := deserts_of_watch hr hp
      cases ht.symm.trans ht'
      exact .deserted hd

/-- What the clock means for a connection that is accepted and to which some things happen. -/
structure KeepsLimit (svc : Service) (peer : Endpoint) (start : Nat) (timeline : List (Nat × World × Occurrence))
    (k : Watch) : Prop where
  /-- While it has not ended, its time is not over. -/
  pending : k.connection.result? = none →
    k.ended = none ∧ k.now ≤ k.limit svc ∧ k.connection.deadline = some (k.limit svc)
  /-- It ends within its time and for a reason, nothing happens later, and it stays ended. -/
  finished : ∀ r, k.connection.activity = .finished r → ∃ t, k.ended = some t ∧ k.since ≤ t ∧ t ≤ k.limit svc ∧
    Ending svc peer start timeline k t r ∧ (∀ e ∈ k.history, e.1 ≤ t) ∧ (∀ b ∈ k.written, b.1 ≤ t) ∧
    ∀ more, ∃ now, watch svc peer start (timeline ++ more) = k.wait now
  /-- If its time is over, and before that nothing else was wrong, the client has not closed its side and the service
  has not written its last reply, there was a timeout just then. -/
  late : k.limit svc < k.now → (∀ t, Deserts svc peer start timeline t → k.limit svc < t) →
    (∀ e, k.connection.activity = .finished (.error e) → ∃ phase, e = .timeout phase) →
    ¬(k.connection.activity = .finished (.ok ()) ∧ k.connection.session.phase = .closed) →
    (∃ phase, k.connection.activity = .finished (.error (.timeout phase))) ∧ k.ended = some (k.limit svc)
  /-- Unless a reply is written to its end, what happens next gives no new time. -/
  fixed : ∀ x : Nat × World × Occurrence,
    (∀ time room, x.2.2 = .write room → k.connection.answers (.write time room) = false) →
    (watch svc peer start (timeline ++ [x])).limit svc = k.limit svc ∧
      (watch svc peer start (timeline ++ [x])).connection.deadline = k.connection.deadline

theorem keepsLimit_watch (svc : Service) (peer : Endpoint) (start : Nat)
    (timeline : List (Nat × World × Occurrence)) :
    KeepsLimit svc peer start timeline (watch svc peer start timeline) := by
  have htimely := timely_watch svc peer start timeline
  have hfinished {r : Except SessionError Unit}
      (hr : (watch svc peer start timeline).connection.activity = .finished r) :
      ∃ t, (watch svc peer start timeline).ended = some t ∧ (watch svc peer start timeline).since ≤ t ∧
        t ≤ (watch svc peer start timeline).limit svc ∧
        Ending svc peer start timeline (watch svc peer start timeline) t r := by
    obtain ⟨t, ht, hsince, hlimit, -, hlate⟩ := htimely.finished r hr
    exact ⟨t, ht, hsince, hlimit, ending_of_watch hr ht hlate⟩
  generalize hk : watch svc peer start timeline = k at *
  refine ⟨htimely.pending, fun r hr => ?_, fun hover hstays hfails hcloses => ?_, fun x hx => ?_⟩
  · obtain ⟨t, ht, hsince, hlimit, hending⟩ := hfinished hr
    have hend : k.ended.getD k.now = t := by
      rw [ht]
      rfl
    refine ⟨t, ht, hsince, hlimit, hending, fun e he => ?_, fun b hb => ?_, fun more => ?_⟩
    · exact hend ▸ htimely.history_le e he
    · exact hend ▸ htimely.written_le b hb
    · rw [watch_append, hk]
      exact foldl_of_finished htimely hr more
  · obtain ⟨r, hr⟩ | hr := k.connection.finished_or_pending
    · obtain ⟨t, ht, -, hlimit, hending⟩ := hfinished hr
      cases hending with
      | late phase h => exact ⟨⟨phase, hr⟩, h ▸ ht⟩
      | failed h =>
        obtain ⟨phase, he⟩ := hfails _ hr
        exact absurd he (h phase)
      | closed h => exact absurd ⟨hr, h⟩ hcloses
      | deserted h => exact absurd (hstays t h) (Nat.not_lt_of_le hlimit)
    · exact absurd (htimely.pending hr).2.1 (Nat.not_le_of_lt hover)
  · rw [watch_append, hk]
    exact limit_step htimely hx

/-- No client can stretch its time. From its acceptance or its last answer on, a connection has the time of its phase
for the next answer, whatever comes and however long the directory and the pipe take, and the timers of a service with
many clients keep to it. -/
theorem idle_limit_kept (svc : Service) :
    (∀ peer start timeline, KeepsLimit svc peer start timeline (watch svc peer start timeline)) ∧
    ∀ t : Timeline, t.Reached svc → ∀ l ∈ t.links, l.Watched svc t.time :=
  ⟨keepsLimit_watch svc, fun _ h => (Timeline.watched_of_reached h).links⟩

/-! Two clients with ten seconds for their first frame. -/

namespace Intruder

/-- A client that sends a byte every four seconds. -/
def drip : List (Nat × World × Occurrence) :=
  [(0, world, .decide), (0, world, .decide), (4000, world, .receive [0x00]), (4000, world, .receive [0x03]),
    (4000, world, .receive [0x1E])]

theorem not_deserts {timeline : List (Nat × World × Occurrence)} (h : ∀ x ∈ timeline, x.2.2 ≠ .endOfInput) (t : Nat) :
    ¬Deserts service client 0 timeline t := by
  rintro ⟨before, ms, w, after, rfl, -⟩
  exact h _ (List.mem_append_right _ List.mem_cons_self) rfl

theorem dripping_times_out : (watch service client 0 drip).now = 12000 ∧
    (∃ phase, (watch service client 0 drip).connection.activity = .finished (.error (.timeout phase))) ∧
    (watch service client 0 drip).ended = some 10000 := by
  have hover : (watch service client 0 drip).limit service < (watch service client 0 drip).now := by decide +kernel
  have hend : (watch service client 0 drip).connection.result? = some (.error (.timeout .challenge)) := by
    decide +kernel
  have hfails (e : SessionError) (he : (watch service client 0 drip).connection.activity = .finished (.error e)) :
      ∃ phase, e = .timeout phase := by
    rw [result?, he] at hend
    exact ⟨.challenge, Except.error.inj (Option.some.inj hend)⟩
  have hcloses : (watch service client 0 drip).connection.activity ≠ .finished (.ok ()) := by
    intro he
    rw [result?, he] at hend
    cases hend
  have hstays (t : Nat) : ¬Deserts service client 0 drip t := not_deserts (by simp [drip]) t
  obtain ⟨hf, ht⟩ := ((idle_limit_kept service).1 client 0 drip).late hover (fun t ht => absurd ht (hstays t)) hfails
    fun h => hcloses h.1
  have hlimit : (watch service client 0 drip).limit service = 10000 := by decide +kernel
  exact ⟨by decide +kernel, hf, hlimit ▸ ht⟩

def guarded : World :=
  { world with store := { world.store with ipBans := [⟨"127.0.0.1", .integer 0, .integer 0, "", ""⟩] } }

/-- The ban is found out, the client is told, and twenty seconds pass. -/
def silence : List (Nat × World × Occurrence) :=
  [(0, guarded, .decide), (0, guarded, .decide), (0, guarded, .write none), (20000, guarded, .timer)]

/-- The time of the client is over and no frame of it has come, but there is no timeout. -/
theorem no_timeout : (watch service client 0 silence).limit service < (watch service client 0 silence).now ∧
    (∀ x ∈ silence, x.2.2 ≠ .endOfInput ∧ ∀ chunk, x.2.2 ≠ .receive chunk) ∧
    (watch service client 0 silence).connection.activity = .finished (.ok ()) ∧
    (watch service client 0 silence).ended = some 0 := by
  have hok : (watch service client 0 silence).connection.result?.any Except.toBool = true := by decide +kernel
  refine ⟨by decide +kernel, by simp [silence], ?_, by decide +kernel⟩
  obtain ⟨r, hr⟩ | hr := (watch service client 0 silence).connection.finished_or_pending
  · rw [result?, hr] at hok
    cases r with
    | ok u => exact hr
    | error e => cases hok
  · rw [hr] at hok
    cases hok

end Intruder

end RealmLogon.Connection
