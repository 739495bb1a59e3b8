import RealmLogon.Proofs.Connection.Chronicle

/-! A connection whose session is authenticated has logged on, by a password or by the key of an earlier logon:
its history begins with one of the two, and what follows are requests for the realm list. -/

namespace RealmLogon.Connection

open Session

/-- The history begins with a logon by password, and nothing but the realm list is asked for after it. -/
def LoggedOn (svc : Service) (peer : Endpoint) (t : List Event) : Prop :=
  ∃ l : Logon, l.Genuine svc peer ∧ ∃ rest, OnlyLists rest ∧ t = l.history svc peer ++ rest

/-- The history begins with a logon by the key of an earlier one, and nothing but the realm list is asked for
after it. -/
def Resumed (svc : Service) (peer : Endpoint) (t : List Event) : Prop :=
  ∃ r : Reconnect, r.Genuine svc peer ∧ ∃ rest, OnlyLists rest ∧ t = r.history peer ++ rest

variable {svc : Service} {peer : Endpoint} {t u : List Event} {s : Session} {out : Bytes} {c : Connection}
  {w : World}

theorem LoggedOn.append (h : LoggedOn svc peer t) (hu : OnlyLists u) : LoggedOn svc peer (t ++ u) := by
  obtain ⟨l, hl, rest, hr, rfl⟩ := h
  exact ⟨l, hl, rest ++ u, hr.append hu, List.append_assoc ..⟩

theorem Resumed.append (h : Resumed svc peer t) (hu : OnlyLists u) : Resumed svc peer (t ++ u) := by
  obtain ⟨r, hg, rest, hr, rfl⟩ := h
  exact ⟨r, hg, rest ++ u, hr.append hu, List.append_assoc ..⟩

theorem LoggedOn.not_resumed (h : LoggedOn svc peer t) : ¬Resumed svc peer t := by
  rintro ⟨r, -, rest, -, hr⟩
  obtain ⟨l, -, rest', -, hl⟩ := h
  rw [hl] at hr
  simp [Logon.history, Offer.history, Reconnect.history, Resumption.history] at hr

/-- An authenticated session, or a request for the realm list, has a logon behind it. -/
def Sound (svc : Service) (peer : Endpoint) (t : List Event) (s : Session) : Prop :=
  s.phase = .authed ∨ ¬Unlisted t → LoggedOn svc peer t ∨ Resumed svc peer t

theorem sound_of_unlisted (hs : s.phase ≠ .authed) (ht : Unlisted t) : Sound svc peer t s := by
  rintro (h | h)
  · exact absurd h hs
  · exact absurd ht h

theorem stage_cases (h : Stage svc peer t s) :
    (s.phase ≠ .authed ∧ Unlisted t) ∨ (s.phase = .authed ∧ (LoggedOn svc peer t ∨ Resumed svc peer t)) := by
  cases h with
  | opened hb => exact .inl ⟨(fun hs => by cases hs), unlisted_asked _ _⟩
  | offered o ho => exact .inl ⟨(fun hs => by cases hs), o.unlisted peer⟩
  | resuming r hr => exact .inl ⟨(fun hs => by cases hs), r.unlisted peer⟩
  | loggedOn l hl hr => exact .inr ⟨rfl, .inl ⟨l, hl, _, hr, rfl⟩⟩
  | resumed r hg hr => exact .inr ⟨rfl, .inr ⟨r, hg, _, hr, rfl⟩⟩
  | closed hs ht => exact .inl ⟨by simp [hs], ht⟩

theorem sound_of_stage (h : Stage svc peer t s) : Sound svc peer t s := by
  rcases stage_cases h with ⟨hs, ht⟩ | ⟨-, hl⟩
  · exact sound_of_unlisted hs ht
  · exact fun _ => hl

/-- A frame is being answered: the questions so far have led to what is left of the decision. -/
def Underway (svc : Service) (peer : Endpoint) (t : List Event) (s : Session) (phase : Phase)
    (f : Flow Outcome) : Prop :=
  ∃ before command frame es, Stage svc peer before s ∧ Due s.phase command ∧ phase = s.phase ∧
    t = before ++ .taken s.phase command frame :: es ∧ (s.dispatch svc command frame).Leads es f

theorem sound_of_underway {phase : Phase} {f : Flow Outcome} (h : Underway svc peer t s phase f) :
    Sound svc peer t s := by
  obtain ⟨before, command, frame, es, hst, hc, -, rfl, hl⟩ := h
  rcases stage_cases hst with ⟨hs, ht⟩ | ⟨hs, hb⟩
  · have hne : command ≠ .realmList := fun he => hs (hc.realmList_iff.mp he)
    exact sound_of_unlisted hs (ht.append ((unlisted_of_leads hl).taken hne frame))
  · obtain rfl := hc.realmList_iff.mpr hs
    rw [hs]
    have hr := (onlyLists_of_leads hl).taken frame
    intro _
    rcases hb with hb | hb
    · exact .inl (hb.append hr)
    · exact .inr (hb.append hr)

def Traced (svc : Service) (peer : Endpoint) (t : List Event) (c : Connection) : Prop :=
  match c.activity with
  | .admitting f => c.session = { peer := peer } ∧ c.buffer = [] ∧ (admission peer.ip).Leads t f
  | .deciding phase f => Underway svc peer t c.session phase f
  | .writing _ _ => Stage svc peer t c.session
  | .waiting => Stage svc peer t c.session
  | .finished _ => Sound svc peer t c.session

theorem sound_of_traced (h : Traced svc peer t c) : Sound svc peer t c.session := by
  unfold Traced at h
  split at h
  · obtain ⟨hs, -, hl⟩ := h
    rw [hs]
    exact sound_of_unlisted (fun hs => by cases hs) (unlisted_of_leads hl)
  · exact sound_of_underway h
  · exact sound_of_stage h
  · exact sound_of_stage h
  · exact h

/-! A stage is all that is needed of a history between two frames. -/

theorem onlyLists_listings {m : Member} (h : Listings svc s m t) : OnlyLists t := by
  induction h with
  | none => exact onlyLists_nil
  | more h frame counts realms ih =>
    refine ih.append ?_
    intro phase c f hm
    simp [listing] at hm
    exact ⟨hm.1, hm.2.1⟩

theorem unlisted_proofRefused {o : Offer} {p : LogonProof} {v : Verdict} (h : ProofRefused svc peer o p t v) :
    Unlisted t := by
  cases h with
  | wrongPassword hx hc => cases hc <;> simp [Unlisted]
  | unvouched hx hv => simp [Unlisted]
  | unstored hx hv e => simp [Unlisted]

theorem stage_of_chronicle (h : Chronicle svc peer t s) : Stage svc peer t s := by
  cases h with
  | opened hb => exact .opened hb
  | turnedAway hb => exact .closed rfl (by simp [Unlisted])
  | logonRefused hb hd r hv hs => exact .closed hs (by simp [Unlisted])
  | reconnectRefused hb hd r hv hs => exact .closed hs (by simp [Unlisted])
  | offered o ho => exact .offered o ho
  | proofRefused o ho hd hr hs =>
    exact .closed hs (((o.unlisted peer).append ((unlisted_proofRefused hr).taken (by decide) _)).replied _)
  | loggedOn l hl hr => exact .loggedOn l hl (onlyLists_listings hr)
  | resuming r hr => exact .resuming r hr
  | resumptionRefused r hr hd hs => exact .closed hs ((r.unlisted peer).append (by simp [Unlisted]))
  | resumed r hg hr => exact .resumed r hg (onlyLists_listings hr)

theorem stage_of_served (h : Served svc peer t s) : Stage svc peer t s := stage_of_chronicle (chronicle_of_served h)

theorem attained_of_served (h : Served svc peer t s) {command : Command} {frame : Bytes}
    (hn : s.nextFrame frame = .ok (some (command, frame.length))) {es : List Event} {o : Outcome}
    (hy : (s.dispatch svc command frame).Yields es o) :
    Attained svc peer (t ++ .taken s.phase command frame :: es) o := by
  have hdue := due_of_nextFrame hn
  obtain ⟨s', r⟩ := o
  cases r with
  | ok reply => exact stage_of_served (.answered h hn hy)
  | error e =>
    obtain ⟨hs, hc⟩ := (answered_of_yields (coherent_of_served h) hdue hy).unlisted
    rcases stage_cases (stage_of_served h) with ⟨-, ht⟩ | ⟨hp, -⟩
    · exact ⟨hs, ht.append ((unlisted_of_leads hy).taken hc frame)⟩
    · exact absurd (hdue.realmList_iff.mpr hp) hc

theorem underway_of_answering {phase : Phase} {f : Flow Outcome} (h : Answering svc peer t s phase f) :
    Underway svc peer t s phase f := by
  cases h with
  | taken h hn hl => exact ⟨_, _, _, _, stage_of_served h, due_of_nextFrame hn, rfl, rfl, hl⟩

theorem sound_of_ended {r : Except SessionError Unit} (h : Ended svc peer t s r) : Sound svc peer t s := by
  cases h with
  | unadmitted h phase => exact sound_of_unlisted (fun hs => by cases hs) (unlisted_of_leads h)
  | rested h hr => exact sound_of_stage (stage_of_served h)
  | interrupted h => exact sound_of_underway (underway_of_answering h)
  | failed h =>
    cases h with
    | taken h hn hl =>
      obtain ⟨hs, ht⟩ := attained_of_served h hn hl
      exact sound_of_unlisted hs ht

theorem traced_of_held (h : Held svc peer t c) : Traced svc peer t c := by
  obtain ⟨s, b, d, a⟩ := c
  cases a with
  | admitting f => exact h
  | deciding phase f => exact underway_of_answering h
  | writing phase rest => exact stage_of_served h
  | waiting => exact stage_of_served h
  | finished r => exact sound_of_ended h

theorem traced_of_conversation (h : Conversation svc peer t out c w) : Traced svc peer t c :=
  traced_of_held (held_of_conversation h)

/-- Whatever comes to a connection and whatever its world answers, an authenticated session has logged on in one
of two ways, and so has a client that is told the realms. -/
theorem authentication_sound (svc : Service) (peer : Endpoint) :
    (∀ chunks w, ∃ t, Conversation svc peer t (run svc peer chunks w).1 (run svc peer chunks w).2.1
      (run svc peer chunks w).2.2) ∧
    ∀ t out c w, Conversation svc peer t out c w →
      out <+: t.flatMap Event.sent ∧
      (c.session.phase = .authed ∨ (∃ phase frame, .taken phase .realmList frame ∈ t) →
        (LoggedOn svc peer t ∧ ¬Resumed svc peer t) ∨ (Resumed svc peer t ∧ ¬LoggedOn svc peer t)) := by
  refine ⟨fun chunks w => reaches_run svc peer chunks w, ?_⟩
  intro t out c w h
  refine ⟨(balanced_of_conversation h).prefix_sent, ?_⟩
  intro ha
  have hs : Sound svc peer t c.session := sound_of_traced (traced_of_conversation h)
  have hl : c.session.phase = .authed ∨ ¬Unlisted t := by
    rcases ha with ha | ⟨phase, frame, hm⟩
    · exact .inl ha
    · exact .inr fun hu => hu phase frame hm
  rcases hs hl with hl | hr
  · exact .inl ⟨hl, hl.not_resumed⟩
  · exact .inr ⟨hr, fun hl => hl.not_resumed hr⟩

end RealmLogon.Connection
