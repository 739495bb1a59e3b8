import RealmLogon.Proofs.Connection.Mistakes
import RealmLogon.Proofs.Connection.Visit

/-! A visit in which a client sends a challenge and a proof that does not fit. It is turned away before anything is
read, refused at the challenge, or refused at the proof; only where the program stops at a ban is there no answer. -/

namespace RealmLogon.Connection

open Session Exchange

/-- A visit in which a client sends two frames, a challenge and a proof. -/
structure Attempt extends Visit where
  challengeFrame : Bytes
  challenge : Challenge
  proofFrame : Bytes
  proof : LogonProof

namespace Attempt

def stream (a : Attempt) : Bytes := a.challengeFrame ++ a.proofFrame

/-- Both frames are whole, and can be read. -/
structure Framed (a : Attempt) : Prop where
  challenge : ({ peer := a.peer } : Session).nextFrame a.challengeFrame =
    .ok (some (.logonChallenge, a.challengeFrame.length))
  readsChallenge : Challenge.decode a.challengeFrame = .ok a.challenge
  proof : ∀ s : Session, s.phase = .logonProof →
    s.nextFrame a.proofFrame = .ok (some (.logonProof, a.proofFrame.length))
  readsProof : LogonProof.decode a.proofFrame = .ok a.proof

def Misses (a : Attempt) (t : List Event) : Prop :=
  ∀ o : Offer, o.history a.peer <+: t → o.exchange.accept a.proof.clientKey a.proof.proof = none

/-- What comes of a wrong password once all questions are asked. -/
def closing (es : List Event) : List Event := if Halted es then [] else [.replied refusedProof]

inductive Course (svc : Service) (a : Attempt) : List Event → Session → Prop
  | opened {banned : Except DirectoryError Bool} (hb : banned.toOption.getD false = false) :
      Course svc a [.called (.isIpBanned a.peer.ip) banned] { peer := a.peer }
  | turnedAway {banned : Except DirectoryError Bool} (hb : banned.toOption.getD false = true) :
      Course svc a [.called (.isIpBanned a.peer.ip) banned, .replied bannedReply] { peer := a.peer, phase := .closed }
  | refused {banned : Except DirectoryError Bool} (hb : banned.toOption.getD false = false) {es : List Event}
      {s : Session} {reply : Bytes} (h : LogonChallenged svc { peer := a.peer } a.challengeFrame es (s, .ok reply))
      (hs : s.phase = .closed) :
      Course svc a (.called (.isIpBanned a.peer.ip) banned :: .taken .challenge .logonChallenge a.challengeFrame :: es ++
        [.replied reply]) s
  | offered (o : Offer) (ho : o.Granted svc a.peer) (hf : o.frame = a.challengeFrame) :
      Course svc a (o.history a.peer) (o.session svc a.peer)
  | rejected (o : Offer) (ho : o.Granted svc a.peer) (hf : o.frame = a.challengeFrame) {es : List Event}
      (hc : PasswordCounted svc o.account.member a.peer.ip es) :
      Course svc a (o.history a.peer ++ .taken .logonProof .logonProof a.proofFrame :: es ++ closing es)
        (spent (o.session svc a.peer))

/-- A frame that comes next in the course of an attempt. -/
inductive Expects (svc : Service) (a : Attempt) : List Event → Session → Command → Bytes → Prop
  | challenge {banned : Except DirectoryError Bool} (hb : banned.toOption.getD false = false) :
      Expects svc a [.called (.isIpBanned a.peer.ip) banned] { peer := a.peer } .logonChallenge a.challengeFrame
  | proof (o : Offer) (ho : o.Granted svc a.peer) (hf : o.frame = a.challengeFrame) :
      Expects svc a (o.history a.peer) (o.session svc a.peer) .logonProof a.proofFrame

end Attempt

variable {svc : Service} {a : Attempt} {t : List Event} {s s' : Session} {c d : Command} {f g more : Bytes}

theorem frame_of_leads {α : Type} {p q : Flow α} {es : List Event} (h : p.Leads es q) : es.flatMap Event.frame = [] := by
  rw [List.flatMap_eq_nil_iff]
  intro e he
  obtain ⟨q, x, rfl⟩ := h.eq_asked e he
  rfl

theorem frame_history (peer : Endpoint) (o : Offer) : (o.history peer).flatMap Event.frame = o.frame :=
  List.append_nil o.frame

/-- The frame at the front of some bytes is the only one. -/
theorem frame_eq_of_prefix (hf : s.nextFrame f = .ok (some (c, f.length))) (hg : s.nextFrame g = .ok (some (d, g.length)))
    (hp : f <+: g ++ more) : f = g ∧ c = d := by
  obtain ⟨rest, hr⟩ := hp
  have hfirst := nextFrame_append_some hf rest
  rw [hr, nextFrame_append_some hg more] at hfirst
  obtain ⟨rfl, hl⟩ := Prod.mk.inj (Option.some.inj (Except.ok.inj hfirst))
  exact ⟨List.append_inj_left hr hl.symm, rfl⟩

namespace Attempt

theorem Course.expects (h : Course svc a t s) (ha : a.Framed) (hs : s.phase ≠ .closed) :
    ∃ command frame rest, Expects svc a t s command frame ∧ s.nextFrame frame = .ok (some (command, frame.length)) ∧
      a.stream = t.flatMap Event.frame ++ (frame ++ rest) := by
  cases h with
  | opened hb => exact ⟨_, _, a.proofFrame, .challenge hb, ha.challenge, rfl⟩
  | offered o ho hf =>
    refine ⟨_, _, [], .proof o ho hf, ha.proof _ rfl, ?_⟩
    rw [frame_history, hf, List.append_nil, stream]
  | turnedAway hb => exact absurd rfl hs
  | refused hb h hc => exact absurd hc hs
  | rejected o ho hf hc => exact absurd rfl hs

/-- A frame that is taken up is the one that is expected. -/
theorem Course.taken (h : Course svc a t s) (ha : a.Framed) (hn : s.nextFrame f = .ok (some (c, f.length)))
    (hp : t.flatMap Event.frame ++ f <+: a.stream) : Expects svc a t s c f := by
  have hs : s.phase ≠ .closed := by
    intro hs
    have hdue := due_of_nextFrame hn
    rw [hs] at hdue
    cases hdue
  obtain ⟨command, frame, rest, he, hframe, hstream⟩ := h.expects ha hs
  rw [hstream, List.prefix_append_right_inj] at hp
  obtain ⟨rfl, rfl⟩ := frame_eq_of_prefix hn hframe hp
  exact he

/-- A frame that is expected goes unanswered only where the program stops. -/
theorem Expects.unanswered (h : Expects svc a t s c f) (ha : a.Framed) (hs : s.Coherent) (hd : Due s.phase c)
    {es : List Event} {e : SessionError} (hy : (s.dispatch svc c f).Yields es (s', .error e)) :
    Course svc a (t ++ .taken s.phase c f :: es) s' ∧ s'.phase = .closed := by
  have hanswered := answered_of_yields hs hd hy
  cases h with
  | challenge hb =>
    cases hanswered with
    | logonChallenge hp hc =>
      cases hc with
      | malformed he =>
        rw [ha.readsChallenge] at he
        cases he
  | proof o ho hf =>
    cases hanswered with
    | logonProof hp hx hm hc =>
      cases hm
      cases hc with
      | malformed he =>
        rw [ha.readsProof] at he
        cases he
      | halted hd hx hc hh =>
        have hcourse := Course.rejected (a := a) o ho hf hc
        rw [closing, if_pos hh, List.append_nil] at hcourse
        exact ⟨hcourse, rfl⟩

theorem Expects.answered (h : Expects svc a t s c f) (ha : a.Framed) (hw : a.Misses t) (hs : s.Coherent)
    (hd : Due s.phase c) {es : List Event} {reply : Bytes} (hy : (s.dispatch svc c f).Yields es (s', .ok reply)) :
    Course svc a (t ++ .taken s.phase c f :: es ++ [.replied reply]) s' := by
  have hanswered := answered_of_yields hs hd hy
  cases h with
  | challenge hb =>
    cases hanswered with
    | logonChallenge hp hc =>
      have hr := hc
      cases hc with
      | unknown hd hr' => exact .refused hb hr rfl
      | refused hd hv => exact .refused hb hr rfl
      | unopened hd hv hs ho => exact .refused hb hr rfl
      | unsupported hd hv ho hs => exact .refused hb hr rfl
      | offered hd hv ho hs privateKey =>
        rename_i c account secret
        exact .offered ⟨_, a.challengeFrame, c, account, secret, privateKey⟩ ⟨hb, hd, hv, hs, ho⟩ rfl
  | proof o ho hf =>
    have hnone := hw o List.prefix_rfl
    cases hanswered with
    | logonProof hp hx hm hc =>
      cases hx
      cases hm
      cases hc with
      | wrongPassword hd hx hc hh =>
        have hcourse := Course.rejected (a := a) o ho hf hc
        rw [closing, if_neg hh] at hcourse
        exact hcourse
      | unvouched hd hx hv =>
        cases Except.ok.inj (ha.readsProof.symm.trans hd)
        rw [hnone] at hx
        cases hx
      | unstored hd hx hv e =>
        cases Except.ok.inj (ha.readsProof.symm.trans hd)
        rw [hnone] at hx
        cases hx
      | accepted hd hx hv =>
        cases Except.ok.inj (ha.readsProof.symm.trans hd)
        rw [hnone] at hx
        cases hx

theorem Misses.of_append {u : List Event} (h : a.Misses (t ++ u)) : a.Misses t :=
  fun o ho => h o (ho.trans (List.prefix_append _ _))

theorem course_of_served (ha : a.Framed) (h : Served svc a.peer t s) (hw : a.Misses t)
    (hp : t.flatMap Event.frame <+: a.stream) : Course svc a t s := by
  induction h with
  | admitted hb => exact .opened hb
  | turnedAway hb => exact .turnedAway hb
  | answered h hn hy ih =>
    rename_i t s s' c f es reply
    rw [List.append_assoc] at hw hp
    have hframes : (t ++ (Event.taken s.phase c f :: es ++ [Event.replied reply])).flatMap Event.frame =
        t.flatMap Event.frame ++ f := by
      simp [frame_of_leads hy]
    rw [hframes] at hp
    have hc := ih hw.of_append ((List.prefix_append _ _).trans hp)
    rw [List.append_assoc, ← List.append_assoc]
    exact (hc.taken ha hn hp).answered ha hw.of_append (coherent_of_served h) (due_of_nextFrame hn) hy

/-- An attempt on an account from an address, by a client of a generation that is accepted, with a proof that does not
fit. -/
structure Made (svc : Service) (ip : Address) (login : String) (w : World) (a : Attempt) : Prop where
  paid : a.toVisit.Paid svc a.stream w
  framed : a.Framed
  misses : a.Misses a.history
  address : a.peer.ip = ip
  named : Text.Latin.upper a.challenge.login = login
  supported : (svc.builds.expansion a.challenge.build).isValid = true

theorem Framed.length_stream_le (ha : a.Framed) : a.stream.length ≤ bufferLimit := by
  have hc := logonChallenge_le ha.challenge
  have hp := logonProof_le (ha.proof { peer := a.peer, phase := .logonProof } rfl)
  have hm : Challenge.maxSize = 50 := rfl
  have hs : LogonProof.size = 75 := rfl
  have hb : bufferLimit = 4096 := rfl
  rw [stream, List.length_append]
  omega

theorem course_of_failed (ha : a.Framed) {phase : Phase} {e : SessionError}
    (h : Answering svc a.peer t s phase (.done (s', .error e))) (hw : a.Misses t)
    (hp : t.flatMap Event.frame <+: a.stream) : Course svc a t s' ∧ s'.phase = .closed := by
  cases h with
  | taken h hn hl =>
    rename_i t c f es
    have hframes : (t ++ Event.taken s.phase c f :: es).flatMap Event.frame = t.flatMap Event.frame ++ f := by
      simp [frame_of_leads hl]
    rw [hframes] at hp
    have hc := course_of_served ha h hw.of_append ((List.prefix_append _ _).trans hp)
    exact (hc.taken ha hn hp).unanswered ha (coherent_of_served h) (due_of_nextFrame hn) hl

theorem not_unheard_of_answering {phase : Phase} {p : Flow Outcome} (h : Answering svc a.peer t s phase p) :
    ¬Unheard t := by
  cases h with
  | taken h hn hl => exact fun hu => hu _ _ _ (List.mem_append_right _ List.mem_cons_self)

variable {ip : Address} {login : String} {w : World}

theorem Made.settled (h : a.Made svc ip login w) : a.connection.Settled := by
  unfold Settled
  obtain hr | ⟨r, hr, ht⟩ := h.paid.rests
  · rw [hr]
    trivial
  · rw [hr]
    cases r with
    | ok u => trivial
    | error e =>
      cases e with
      | timeout phase => exact ht phase rfl
      | _ => trivial

/-- A connection that has read everything does not wait for a frame that is expected. -/
theorem Course.closed_of_read {b : Bytes} (h : Course svc a t s) (ha : a.Framed)
    (hall : t.flatMap Event.frame ++ b = a.stream) (hn : s.nextFrame b = .ok none) : s.phase = .closed := by
  refine Decidable.byContradiction fun hp => ?_
  obtain ⟨command, frame, rest, -, hframe, hstream⟩ := h.expects ha hp
  rw [hstream] at hall
  rw [List.append_cancel_left hall, nextFrame_append_some hframe rest] at hn
  cases hn

/-- An attempt comes to its end when the last reply has been written, or when the program stops. -/
theorem Made.closed (h : a.Made svc ip login w) :
    Course svc a a.history a.connection.session ∧ a.connection.session.phase = .closed ∧
      (Unheard a.history → a.connection.buffer = []) := by
  have hconversation := h.paid.conversation
  have hsent := h.paid.sent
  have hframes : a.history.flatMap Event.frame <+: a.stream := (List.prefix_append _ _).trans hsent
  have hfailed {s : Session} {phase : Phase} {e : SessionError}
      (hf : Answering svc a.peer a.history s phase (.done (a.connection.session, .error e))) :
      Course svc a a.history a.connection.session ∧ a.connection.session.phase = .closed ∧
        (Unheard a.history → a.connection.buffer = []) := by
    obtain ⟨hcourse, hclosed⟩ := course_of_failed h.framed hf h.misses hframes
    exact ⟨hcourse, hclosed, fun hu => absurd hu (not_unheard_of_answering hf)⟩
  obtain hserved | ⟨s, phase, e, hf, -⟩ := h.settled.served (held_of_conversation hconversation)
  · have hcourse := course_of_served h.framed hserved h.misses hframes
    obtain hr | ⟨r, hr, ht⟩ := h.paid.rests
    · have hstopped := stopped_of_conversation hconversation
      rw [Stopped, hr] at hstopped
      have hall := h.paid.all (fun e he => by rw [hr] at he; cases he) hstopped.1
      exact absurd (hcourse.closed_of_read h.framed hall hstopped.2) hstopped.1
    · cases over_of_conversation hconversation hr with
      | closed hc hb => exact ⟨hcourse, hc, hb⟩
      | deserted hc hnone =>
        have hall := h.paid.all (fun e he => by rw [hr] at he; cases he) hc
        exact absurd (hcourse.closed_of_read h.framed hall hnone) hc
      | undue hc he =>
        -- What has been read begins the frame that is expected.
        obtain ⟨command, frame, rest, -, hn, hstream⟩ := hcourse.expects h.framed hc
        rw [input, hstream, List.prefix_append_right_inj] at hsent
        obtain ⟨more, hmore⟩ := hsent
        have hsome : a.connection.session.nextFrame a.connection.buffer ≠ .ok none := by
          rw [he]
          rintro ⟨⟩
        have ha := Session.nextFrame_append hsome more
        rw [hmore, nextFrame_append_some hn rest, he] at ha
        cases ha
      | overfull hc hl =>
        have hlength := hsent.length_le
        rw [input, List.length_append] at hlength
        have hlimit := h.framed.length_stream_le
        omega
      | failed hf => exact hfailed hf
      | late phase => exact absurd rfl (ht phase)
  · exact hfailed hf

theorem Made.out_eq (h : a.Made svc ip login w) : a.out = a.history.flatMap Event.sent := by
  have hs := Settled.sent h.settled h.paid.conversation
  have hw : a.connection.unwritten = [] := by
    obtain hr | ⟨r, hr, -⟩ := h.paid.rests <;> simp only [unwritten, hr]
  rw [hs, hw, List.append_nil]

theorem made_of_run (hs : 0 < svc.policy.shortTimeout) (hl : 0 < svc.policy.longTimeout) (peer : Endpoint)
    {c : Challenge} (hc : c.command = .logonChallenge) (hlogin : (Bytes.ofString c.login).length ≤ Challenge.maxLogin)
    (hb : (svc.builds.expansion c.build).isValid = true) {p : LogonProof}
    (ht : ∀ token ∈ p.token, (Bytes.ofString token).length < 256) {chunks : List Bytes}
    (hchunks : chunks.flatten = c.encode ++ p.encode) (w : World) :
    ∃ a : Attempt, a.out = (run svc peer chunks w).1 ∧ a.world = (run svc peer chunks w).2.2 ∧
      a.proof = { p with securityFlags := p.sentFlags } ∧
      (a.Misses a.history → a.Made svc peer.ip (Text.Latin.upper c.login) w) := by
  obtain ⟨t, h⟩ := paid_of_run hs hl peer chunks w
  rw [hchunks] at h
  let a : Attempt := ⟨⟨peer, t, (run svc peer chunks w).1, (run svc peer chunks w).2.1, (run svc peer chunks w).2.2⟩,
    c.encode, c, p.encode, { p with securityFlags := p.sentFlags }⟩
  have hfirst : ({ peer := peer } : Session).nextFrame c.encode = .ok (some (.logonChallenge, c.encode.length)) := by
    rw [nextFrame_challenge (.inl hc) hlogin rfl, hc]
  have hframed : a.Framed := ⟨hfirst, Challenge.decode_encode (.inl hc) hlogin, fun s hp => nextFrame_logonProof ht hp,
    LogonProof.decode_encode p ht⟩
  exact ⟨a, rfl, rfl, rfl, fun hm => ⟨h, hframed, hm, rfl, rfl, hb⟩⟩

end Attempt

end RealmLogon.Connection
