import RealmLogon.Proofs.Connection.Lockout

/-! What a client learns from a logon proof that is rejected. The reply and the end of the session are the same
whatever was wrong, for all accounts, policies and directories; any other reply comes after the session key has been
handed to the directory. There is one way to learn more: a wrong password can bring on a ban that is too long for the
clock, and then the program stops without a reply. -/

namespace RealmLogon.Connection

open Session Exchange

/-- A session of some service that waits for a logon proof, the frame that it takes up, and what comes of it. -/
structure Submission where
  service : Service
  peer : Endpoint
  before : List Event
  session : Session
  frame : Bytes
  asked : List Event
  outcome : Outcome
  reached : Served service peer before session
  due : session.phase = .logonProof
  answered : (session.dispatch service .logonProof frame).Yields asked outcome

namespace Submission

variable {a b : Submission} {reply : Bytes}

def Decodes (a : Submission) : Prop := ∃ p, LogonProof.decode a.frame = .ok p

def Stores (a : Submission) : Prop := ∃ record, .persistLogon record ∈ calls a.asked

/-- The program stops at a ban without room for its end: the password is wrong, its count is at the limit, and the ban
is the last thing that is asked. -/
structure Stops (a : Submission) (x : Mistake) (n : UInt32) : Prop where
  made : x.Made a.service a.peer
  before : a.before = x.offer.history a.peer
  frame : a.frame = x.frame
  enabled : a.service.policy.maxWrongPasswords ≠ 0
  limit : a.service.policy.maxWrongPasswords ≤ n.toNat
  asked : a.asked = [.called (.recordFailedLogin x.offer.account.login) (.ok n),
    .called (.autoBan (banTarget a.service.policy x.offer.account.member a.peer.ip) a.service.policy.banTime)
      (.error .overflow)]
  outcome : a.outcome = (spent a.session, .error .overflow)

def history (a : Submission) : List Event :=
  a.before ++ .taken .logonProof .logonProof a.frame :: a.asked ++ a.outcome.2.toOption.toList.map .replied

/-- A client that knows the password, has a valid token and runs the right executable, and whose session key the
directory was told to store; what came of it decides on the reply. -/
structure Accepts (a : Submission) (l : Logon) (r : Except DirectoryError Unit) : Prop where
  genuine : l.Genuine a.service a.peer
  before : a.before = l.offer.history a.peer
  session : a.session = l.offer.session a.service a.peer
  frame : a.frame = l.frame
  asked : a.asked = [.asked .now l.now, .called (.persistLogon (a.session.record l.offer.account.member l.key)) r]
  outcome : a.outcome = match r with
    | .ok _ => (l.session a.service a.peer,
        .ok (acceptance a.session.expansion (serverProof l.proof.clientKey l.proof.proof l.key)).encode)
    | .error _ => (spent a.session, .ok [1, 8, 0, 0])

/-- How a submission can end: it does not decode, it is rejected, the program stops, or it is accepted. -/
inductive Ends (a : Submission) : Prop
  | malformed {e : WireError} (hd : LogonProof.decode a.frame = .error e) (ha : a.asked = [])
      (ho : a.outcome = (a.session, .error (.wire e)))
  | rejected (hd : a.Decodes) (hs : ¬a.Stores) (hh : ¬Halted a.asked)
      (ho : a.outcome = (spent a.session, .ok [1, 4, 0, 0]))
  | stopped (x : Mistake) (n : UInt32) (h : a.Stops x n)
  | accepted (l : Logon) (r : Except DirectoryError Unit) (h : a.Accepts l r)

theorem not_stores_of_counted {m : Member} {ip : Address} {svc : Service}
    (h : PasswordCounted svc m ip a.asked) : ¬a.Stores := by
  rintro ⟨record, hm⟩
  generalize a.asked = es at h hm
  cases h <;> simp [calls, Event.call?] at hm

theorem ends (a : Submission) : a.Ends := by
  obtain ⟨svc, peer, t, s, frame, es, o, hr, hs, hy⟩ := a
  have hd : Due s.phase .logonProof := hs ▸ .logonProof
  obtain ⟨x, hg, rfl, rfl⟩ := offer_of_due (chronicle_of_served hr) hd
  cases answered_of_yields (coherent_of_served hr) hd hy with
  | logonProof hp hx hm ha =>
    cases hx
    cases hm
    cases ha with
    | malformed hd => exact .malformed hd rfl rfl
    | wrongPassword hd hx hc hh => exact .rejected ⟨_, hd⟩ (not_stores_of_counted hc) hh rfl
    | halted hd hx hc hh =>
      rename_i p
      cases hc with
      | banned hm hn r =>
        obtain rfl : r = .error .overflow :=
          DirectoryError.halts_iff.mp (by simpa [Event.halts] using hh)
        exact .stopped ⟨x, frame, p⟩ _ ⟨⟨hg, hd, hx⟩, rfl, rfl, hm, Nat.not_lt.mp hn, rfl, rfl⟩
      | _ => simp [Event.halts] at hh
    | unvouched hd hx hv =>
      exact .rejected ⟨_, hd⟩ (by simp [Stores, calls, Event.call?]) (by simp [Event.halts]) rfl
    | unstored hd hx hv e =>
      obtain ⟨rfl, hl⟩ := genuine_of_vouched hg hd hx hv
      exact .accepted _ (.error e) ⟨hl, rfl, rfl, rfl, rfl, rfl⟩
    | accepted hd hx hv =>
      obtain ⟨rfl, hl⟩ := genuine_of_vouched hg hd hx hv
      exact .accepted _ (.ok ()) ⟨hl, rfl, rfl, rfl, rfl, rfl⟩

theorem Stops.decodes {x : Mistake} {n : UInt32} (h : a.Stops x n) : a.Decodes :=
  ⟨x.proof, h.frame ▸ h.made.decodes⟩

theorem Stops.halted {x : Mistake} {n : UInt32} (h : a.Stops x n) : Halted a.asked := by
  simp [h.asked, Event.halts, DirectoryError.halts]

theorem Stops.not_stores {x : Mistake} {n : UInt32} (h : a.Stops x n) : ¬a.Stores := by
  simp [Stores, h.asked, calls, Event.call?]

theorem Accepts.not_halted {l : Logon} {r : Except DirectoryError Unit} (h : a.Accepts l r) : ¬Halted a.asked := by
  simp [h.asked, Event.halts]

theorem replied_iff (a : Submission) : (∃ reply, a.outcome.2 = .ok reply) ↔ a.Decodes ∧ ¬Halted a.asked := by
  cases a.ends with
  | malformed hd ha ho => simp [Decodes, hd, ho]
  | rejected hd hs hh ho => simp [hd, hh, ho]
  | stopped x n h => simp [h.halted, h.outcome]
  | accepted l r h =>
    have hd : a.Decodes := ⟨l.proof, h.frame ▸ h.genuine.decodes⟩
    cases r <;> simp [hd, h.not_halted, h.outcome]

theorem refused_of_not_stores (hd : a.Decodes) (hs : ¬a.Stores) (hh : ¬Halted a.asked) :
    a.outcome.2 = .ok [1, 4, 0, 0] ∧ a.outcome.1.phase = .closed := by
  cases a.ends with
  | malformed he ha ho =>
    obtain ⟨p, hd⟩ := hd
    cases he.symm.trans hd
  | rejected hd hs hh ho => exact ⟨by rw [ho], by rw [ho, spent]⟩
  | stopped x n h => exact absurd h.halted hh
  | accepted l r h =>
    refine absurd ⟨a.session.record l.offer.account.member l.key, ?_⟩ hs
    simp [h.asked, calls, Event.call?]

theorem stops_of_halted (hh : Halted a.asked) : ∃ x n, a.Stops x n := by
  cases a.ends with
  | malformed he ha ho => exact absurd (ha ▸ hh) not_halted_nil
  | rejected hd hs hn ho => exact absurd hh hn
  | stopped x n h => exact ⟨x, n, h⟩
  | accepted l r h => exact absurd hh h.not_halted

/-- Where the clock has room for the end of a ban, nothing stops the program. -/
theorem not_halted_of_run {w : World} (hw : (w.run (a.session.dispatch a.service .logonProof a.frame)).1 = a.outcome)
    (ht : Store.timeAfter? w.clock a.service.policy.banTime ≠ none) : ¬Halted a.asked := by
  intro hh
  obtain ⟨es, hy, hes⟩ := World.yields_run (a.session.dispatch a.service .logonProof a.frame) w
  -- The answers in the world may be others than those of the submission, but they come to the same outcome.
  let b : Submission := { a with asked := es, answered := hw ▸ hy }
  obtain ⟨x, n, hx⟩ := stops_of_halted hh
  have hb : b.outcome.2 = .error .overflow := congrArg Prod.snd hx.outcome
  cases b.ends with
  | malformed hd ha ho => cases ho ▸ hb
  | rejected hd hs hh ho => cases ho ▸ hb
  | stopped y k h => exact ht (hes _ _ _ (h.asked ▸ List.mem_cons_of_mem _ List.mem_cons_self) rfl)
  | accepted l r h => cases r <;> cases h.outcome ▸ hb

theorem accepts_of_replied (hr : a.outcome.2 = .ok reply) (hne : reply ≠ [1, 4, 0, 0]) : ∃ l r, a.Accepts l r := by
  cases a.ends with
  | malformed he ha ho =>
    rw [ho] at hr
    cases hr
  | rejected hd hs hh ho =>
    rw [ho] at hr
    cases hr
    exact absurd rfl hne
  | stopped x n h =>
    rw [h.outcome] at hr
    cases hr
  | accepted l r h => exact ⟨l, r, h⟩

theorem closed_of_replied (hr : a.outcome.2 = .ok reply) (hp : a.outcome.1.phase ≠ .authed) :
    a.outcome.1.phase = .closed := by
  cases a.ends with
  | malformed he ha ho =>
    rw [ho] at hr
    cases hr
  | rejected hd hs hh ho => rw [ho, spent]
  | stopped x n h => rw [h.outcome, spent]
  | accepted l r h =>
    rw [h.outcome] at hp ⊢
    cases r with
    | error e => rfl
    | ok u => exact absurd rfl hp

/-- A history tells of the submission, and nothing more unless the client has logged on by it. -/
structure ToldBy (a : Submission) (t : List Event) (s : Session) : Prop where
  begins : a.history <+: t
  last : a.outcome.1.phase ≠ .authed → t = a.history ∧ s = a.outcome.1

end Submission

variable {svc : Service} {peer : Endpoint} {t : List Event} {s s' : Session} {phase : Phase} {frame out : Bytes}
  {c : Connection} {w : World} {e : SessionError}

theorem taken_of_leads {α : Type} {f g : Flow α} {es : List Event} (h : f.Leads es g) {event : Event}
    (hm : .taken phase .logonProof frame ∈ t ++ event :: es) :
    .taken phase .logonProof frame ∈ t ∨ .taken phase .logonProof frame = event := by
  obtain hm | hm := List.mem_append.mp hm
  · exact .inl hm
  · obtain hm | hm := List.mem_cons.mp hm
    · exact .inr hm
    · obtain ⟨q, a, hq⟩ := h.eq_asked _ hm
      cases hq

/-- A session that waits for a frame has told of all earlier submissions, and none of them has closed it. -/
theorem Submission.ToldBy.authed {a : Submission} (ha : a.ToldBy t s) {reply : Bytes} (hr : a.outcome.2 = .ok reply)
    {command : Command} (hd : Due s.phase command) : a.outcome.1.phase = .authed := by
  by_contra hp
  rw [(ha.last hp).2, closed_of_replied hr hp] at hd
  cases hd

theorem submission_of_served (h : Served svc peer t s) (hm : .taken phase .logonProof frame ∈ t) :
    ∃ a : Submission, a.service = svc ∧ a.peer = peer ∧ a.frame = frame ∧ (∃ reply, a.outcome.2 = .ok reply) ∧
      a.ToldBy t s := by
  induction h with
  | admitted hb => simp at hm
  | turnedAway hb => simp at hm
  | answered h hn hy ih =>
    rename_i t s s' command f es reply
    have hd := due_of_nextFrame hn
    have hm : .taken phase .logonProof frame ∈ t ++ .taken s.phase command f :: es := by simpa using hm
    obtain ht | he := taken_of_leads hy hm
    · obtain ⟨a, rfl, rfl, rfl, ⟨r, hr⟩, ha⟩ := ih ht
      refine ⟨a, rfl, rfl, rfl, ⟨r, hr⟩, ?_, fun hp => absurd (ha.authed hr hd) hp⟩
      rw [List.append_assoc]
      exact ha.begins.trans (List.prefix_append _ _)
    · obtain ⟨rfl, rfl, rfl⟩ : phase = s.phase ∧ .logonProof = command ∧ frame = f := by simpa using he
      have hs := hd.phase_eq
      rw [hs]
      exact ⟨⟨svc, peer, t, s, frame, es, _, h, hs, hy⟩, rfl, rfl, rfl, ⟨reply, rfl⟩, List.prefix_rfl, fun _ => ⟨rfl, rfl⟩⟩

theorem submission_of_error (h : Answering svc peer t s phase (.done (s', .error e))) {phase' : Phase}
    (hm : .taken phase' .logonProof frame ∈ t) :
    ∃ a : Submission, a.service = svc ∧ a.peer = peer ∧ a.frame = frame ∧ a.ToldBy t s' ∧
      ∀ e', a.outcome.2 = .error e' → e' = e := by
  cases h with
  | taken h hn hl =>
    rename_i t command f es
    have hd := due_of_nextFrame hn
    obtain ht | he := taken_of_leads hl hm
    · obtain ⟨a, rfl, rfl, rfl, ⟨r, hr⟩, ha⟩ := submission_of_served h ht
      refine ⟨a, rfl, rfl, rfl, ⟨?_, fun hp => absurd (ha.authed hr hd) hp⟩, fun e' he => ?_⟩
      · exact ha.begins.trans (List.prefix_append _ _)
      · rw [hr] at he
        cases he
    · obtain ⟨rfl, rfl, rfl⟩ : phase' = s.phase ∧ .logonProof = command ∧ frame = f := by simpa using he
      have hs := hd.phase_eq
      rw [hs]
      refine ⟨⟨svc, peer, t, s, frame, es, _, h, hs, hl⟩, rfl, rfl, rfl, ⟨?_, fun _ => ⟨?_, rfl⟩⟩, fun e' he => ?_⟩
      · simp [Submission.history, Except.toOption]
      · simp [Submission.history, Except.toOption]
      · cases he
        rfl

/-- A logon proof on a connection that is through with it is a submission. -/
theorem submission_of_settled (h : Conversation svc peer t out c w) (hs : c.Settled)
    (hm : .taken phase .logonProof frame ∈ t) :
    ∃ a : Submission, a.service = svc ∧ a.peer = peer ∧ a.frame = frame ∧ a.ToldBy t c.session ∧
      ∀ e, a.outcome.2 = .error e → c.activity = .finished (.error e) := by
  obtain h | ⟨s, phase, e, h, hf⟩ := hs.served (held_of_conversation h)
  · obtain ⟨a, rfl, rfl, rfl, ⟨r, hr⟩, ha⟩ := submission_of_served h hm
    refine ⟨a, rfl, rfl, rfl, ha, fun e he => ?_⟩
    rw [hr] at he
    cases he
  · obtain ⟨a, rfl, rfl, rfl, ha, herror⟩ := submission_of_error h hm
    exact ⟨a, rfl, rfl, rfl, ha, fun e' he => herror e' he ▸ hf⟩

/-- A directory lets the program stop at a ban if it answers, and the clock has no room for the end of the ban. -/
theorem halts_autoBan_iff (w : World) (target : BanTarget) (seconds : Nat) :
    DirectoryError.halts (w.call (.autoBan target seconds)).1 = true ↔
      w.fails w.calls.length (.autoBan target seconds) = false ∧ Store.timeAfter? w.clock seconds = none := by
  refine ⟨fun h => ⟨?_, World.timeAfter?_of_halts h⟩, fun ⟨hf, ht⟩ => ?_⟩
  · rw [DirectoryError.halts_iff, World.call] at h
    split at h
    · cases h
    · simp_all
  · have hr : (Directory.Call.autoBan target seconds).perform w.store w.clock = (.error .overflow, w.store) :=
      Store.autoBan_of_none w.store target ht
    rw [DirectoryError.halts_iff, World.call, hf, hr]
    rfl

/-- A wrong password at the limit stops the program if its ban has no end in 64 bits. -/
theorem run_logonProof_of_full (hw : w.IsHealthy) (hb : s.expansion.isValid = true) {x : Server}
    (hx : s.exchange = some x) {m : Member} (hm : s.account = some m) {p : LogonProof}
    (hd : LogonProof.decode frame = .ok p) (hr : x.accept p.clientKey p.proof = none)
    (hN : svc.policy.maxWrongPasswords ≠ 0) {n : UInt32} (hc : (w.store.recordFailedLogin m.login).1 = .ok n)
    (hn : svc.policy.maxWrongPasswords ≤ n.toNat) (ht : Store.timeAfter? w.clock svc.policy.banTime = none) :
    (w.run (s.dispatch svc .logonProof frame)).1 = (spent s, .error .overflow) := by
  have hp : dispatch svc s .logonProof frame = refusePassword svc (spent s) m := by
    rw [dispatch, logonProof_eq hb hx hm hd]
    simp only [checkProof, hr]
  have hcount : w.call (.recordFailedLogin m.login) = (.ok n, w.called (.recordFailedLogin m.login)) :=
    (World.call_eq hw _).trans (congrArg (·, w.called (.recordFailedLogin m.login)) hc)
  have hcounted : (w.called (.recordFailedLogin m.login)).IsHealthy := hw
  have hban := World.call_eq hcounted (.autoBan (banTarget svc.policy m s.peer.ip) svc.policy.banTime)
  have hover : ((w.called (.recordFailedLogin m.login)).store.autoBan w.clock (banTarget svc.policy m s.peer.ip)
      svc.policy.banTime).1 = .error .overflow := by rw [Store.autoBan_of_none _ _ ht]
  rw [hp, refusePassword, if_neg hN, World.run_of_call hcount]
  simp only [if_neg (Nat.not_lt.mpr hn)]
  exact congrArg Prod.fst (World.run_of_call (hban.trans (congrArg (·, _) hover)) _)

/-- Rejected proofs cannot be told apart, unless the program stops. Take any two sessions of any services that wait for
a logon proof, and any two frames that decode: unless the directory was told to store a session key, both get the same
reply, and both sessions are closed. Any other reply means that the client knows the password, has a valid token and
runs the right executable, and that the directory was told to store its session key. Whether there is a reply depends
only on the bytes of the frame, but for a wrong password at the limit whose ban ends at a time without room in 64 bits:
there the program stops, and the client sees the connection close. Every logon proof that a connection takes up is such
a submission, unless the deadline cuts it off: the replies are written, and without a logon it was the last frame. -/
theorem rejected_proofs_alike (a b : Submission) :
    (a.Decodes → b.Decodes → ¬a.Stores → ¬b.Stores → ¬Halted a.asked → ¬Halted b.asked →
      a.outcome.2 = .ok [1, 4, 0, 0] ∧ b.outcome.2 = .ok [1, 4, 0, 0] ∧
        a.outcome.1.phase = .closed ∧ b.outcome.1.phase = .closed) ∧
    (∀ reply, a.outcome.2 = .ok reply → reply ≠ [1, 4, 0, 0] → ∃ l r, a.Accepts l r) ∧
    ((∃ reply, a.outcome.2 = .ok reply) ↔ (∃ p, LogonProof.decode a.frame = .ok p) ∧ ¬Halted a.asked) ∧
    (Halted a.asked → a.Decodes ∧ ¬a.Stores ∧ ∃ x n, a.Stops x n) ∧
    (∀ w : World, (w.run (a.session.dispatch a.service .logonProof a.frame)).1 = a.outcome →
      Store.timeAfter? w.clock a.service.policy.banTime ≠ none → ¬Halted a.asked) ∧
    (∀ (w : World) (target : BanTarget) (seconds : Nat), seconds < 0x8000000000000000 →
      (DirectoryError.halts (w.call (.autoBan target seconds)).1 = true ↔
        w.fails w.calls.length (.autoBan target seconds) = false ∧
          ¬(-0x8000000000000000 ≤ w.clock + seconds ∧ w.clock + seconds < 0x8000000000000000))) ∧
    ∀ {svc peer t out c w}, Conversation svc peer t out c w → c.Settled →
      t.flatMap Event.sent = out ++ c.unwritten ∧
      ∀ phase frame, .taken phase .logonProof frame ∈ t →
        ∃ a : Submission, a.service = svc ∧ a.peer = peer ∧ a.frame = frame ∧ a.ToldBy t c.session ∧
          ∀ e, a.outcome.2 = .error e → c.activity = .finished (.error e) := by
  refine ⟨fun ha hb hna hnb hha hhb => ?_, fun reply => a.accepts_of_replied, a.replied_iff, fun hh => ?_,
    fun w => a.not_halted_of_run, fun w target seconds hlt => ?_, ?_⟩
  · obtain ⟨hra, hpa⟩ := a.refused_of_not_stores ha hna hha
    obtain ⟨hrb, hpb⟩ := b.refused_of_not_stores hb hnb hhb
    exact ⟨hra, hrb, hpa, hpb⟩
  · obtain ⟨x, n, hx⟩ := Submission.stops_of_halted hh
    exact ⟨hx.decodes, hx.not_stores, x, n, hx⟩
  · rw [halts_autoBan_iff, Store.timeAfter?_eq_none_iff hlt]
  · exact fun h hs => ⟨hs.sent h, fun phase frame hm => submission_of_settled h hs hm⟩

namespace Intruder

/-- The ban has the longest time that a configuration can tell. -/
def endless : Service := { service with policy := { service.policy with banTime := 0x7FFFFFFFFFFFFFFF } }

theorem not_hasTime : Store.timeAfter? 1 endless.policy.banTime = none := by
  decide +kernel

theorem recorded : (world.store.recordFailedLogin account.login).1 = .ok 1 := by
  decide +kernel

/-- The proof is sent in the second after the beginning of time. -/
theorem submits (svc : Service) (hbuilds : svc.builds = service.builds) (hgeoip : svc.geoip = service.geoip) :
    ∃ (a : Submission) (w : World), a.service = svc ∧ a.frame = proof.encode ∧
      (w.run (a.session.dispatch a.service .logonProof a.frame)).1 = a.outcome ∧ w.clock = 1 ∧ w.IsHealthy ∧
      w.store = world.store ∧ a.session.account = some account.member := by
  obtain ⟨t, s, d, w, h, hs, hm, hstore⟩ := awaits_proof svc hbuilds hgeoip
  have hw : Alone svc world client t _ { w with clock := 1 } := h.tick 1
  obtain ⟨es, hy, -⟩ := World.yields_run (s.dispatch svc .logonProof proof.encode) { w with clock := 1 }
  exact ⟨⟨_, _, t, s, _, es, _, h.held, hs, hy⟩, _, rfl, rfl, rfl, rfl, healthy_of_crowd hw, hstore, hm⟩

theorem decodes {a : Submission} (hf : a.frame = proof.encode) : a.Decodes := ⟨proof, hf ▸ decode_proof⟩

theorem not_stores {a : Submission} (hf : a.frame = proof.encode) : ¬a.Stores := by
  cases a.ends with
  | malformed hd ha ho => simp [Submission.Stores, ha, calls]
  | rejected hd hs hh ho => exact hs
  | stopped x n h => exact h.not_stores
  | accepted l r h =>
    have hl : l.proof = proof := Except.ok.inj (h.genuine.decodes.symm.trans (h.frame ▸ hf ▸ decode_proof))
    have ha := accept_eq_of_genuine h.genuine
    rw [hl, accept_proof] at ha
    cases ha

theorem overflows {a : Submission} {w : World} (hsvc : a.service = endless) (hf : a.frame = proof.encode)
    (hrun : (w.run (a.session.dispatch a.service .logonProof a.frame)).1 = a.outcome) (hclock : w.clock = 1)
    (hw : w.IsHealthy) (hstore : w.store = world.store) (hm : a.session.account = some account.member) :
    a.outcome = (spent a.session, .error .overflow) := by
  have hs := coherent_of_served a.reached
  obtain ⟨x, hx⟩ := Option.isSome_iff_exists.mp (hs.exchange.mpr a.due)
  have hd : LogonProof.decode a.frame = .ok proof := hf ▸ decode_proof
  have hN : a.service.policy.maxWrongPasswords = 1 := congrArg (·.policy.maxWrongPasswords) hsvc
  have ht : Store.timeAfter? w.clock a.service.policy.banTime = none := by
    rw [hclock, hsvc]
    exact not_hasTime
  rw [← hrun]
  exact run_logonProof_of_full hw (hs.member (.inl a.due)).2 hx hm hd (accept_proof x) (by simp [hN])
    (hstore ▸ recorded) (by simp [hN]) ht

/-- A public value of zero is rejected like anything else. At the longest ban it stops the program. -/
theorem rejected_alike : ∃ a b : Submission, a.frame = proof.encode ∧ b.frame = a.frame ∧
    a.outcome.2 = .ok [1, 4, 0, 0] ∧ a.outcome.1.phase = .closed ∧ ¬b.Stores ∧ b.outcome.2 = .error .overflow := by
  obtain ⟨a, w, ha, haf, hrun, hclock, -, -, -⟩ := submits service rfl rfl
  obtain ⟨b, w', hb, hbf, hrun', hclock', hw', hstore, hm⟩ := submits endless rfl rfl
  obtain ⟨halike, -, -, -, hroom, -, -⟩ := rejected_proofs_alike a a
  obtain ⟨-, -, hreplied, hstops, -, -, -⟩ := rejected_proofs_alike b a
  have ht : Store.timeAfter? w.clock a.service.policy.banTime ≠ none := by
    rw [hclock, ha]
    exact hasTime
  have hn := hroom w hrun ht
  obtain ⟨hr, -, hp, -⟩ := halike (decodes haf) (decodes haf) (not_stores haf) (not_stores haf) hn hn
  have ho := congrArg Prod.snd (overflows hb hbf hrun' hclock' hw' hstore hm)
  have hh : Halted b.asked := by
    by_contra hn
    obtain ⟨reply, hr⟩ := hreplied.mpr ⟨decodes hbf, hn⟩
    cases hr.symm.trans ho
  exact ⟨a, b, haf, hbf.trans haf.symm, hr, hp, (hstops hh).2.1, ho⟩

end Intruder

end RealmLogon.Connection
