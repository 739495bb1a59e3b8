import RealmLogon.Proofs.Connection.Steady

/-! Everything that can have happened on a connection between two frames, event by event. There are ten kinds of
histories; only those of a client that has logged on grow any further, by one listing of the realms after the other. -/

namespace RealmLogon.Connection

open Session Exchange

def listing (svc : Service) (s : Session) (m : Member) (frame : Bytes) (counts : Except DirectoryError CharacterCounts)
    (realms : List Realm) : List Event :=
  [.taken .authed .realmList frame,
    .called (.countsByAccount m.id) counts,
    .asked .realms realms,
    .replied (RealmList.encode s.expansion
      (Announcement.entries svc.builds (s.audience m) (counts.toOption.getD []) realms))]

inductive Listings (svc : Service) (s : Session) (m : Member) : List Event → Prop
  | none : Listings svc s m []
  | more {t : List Event} (h : Listings svc s m t) (frame : Bytes) (counts : Except DirectoryError CharacterCounts)
      (realms : List Realm) : Listings svc s m (t ++ listing svc s m frame counts realms)

/-- What is asked before the proof of an offered exchange is refused, and the verdict. -/
inductive ProofRefused (svc : Service) (peer : Endpoint) (o : Offer) (p : LogonProof) : List Event → Verdict → Prop
  | wrongPassword (hx : o.exchange.accept p.clientKey p.proof = none) {es : List Event}
      (hc : PasswordCounted svc o.account.member peer.ip es) : ProofRefused svc peer o p es .unknownAccount
  | unvouched {key : SessionKey} (hx : o.exchange.accept p.clientKey p.proof = some key) {now : Int}
      (hv : ¬Vouched svc (o.session svc peer) p now) :
      ProofRefused svc peer o p [.asked .now now] .unknownAccount
  | unstored {key : SessionKey} (hx : o.exchange.accept p.clientKey p.proof = some key) {now : Int}
      (hv : Vouched svc (o.session svc peer) p now) (e : DirectoryError) :
      ProofRefused svc peer o p [.asked .now now,
        .called (.persistLogon ((o.session svc peer).record o.account.member key)) (.error e)] .dbBusy

/-- The history of a connection between two frames. -/
inductive Chronicle (svc : Service) (peer : Endpoint) : List Event → Session → Prop
  | opened {banned : Except DirectoryError Bool} (hb : banned.toOption.getD false = false) :
      Chronicle svc peer [.called (.isIpBanned peer.ip) banned] { peer := peer }
  | turnedAway {banned : Except DirectoryError Bool} (hb : banned.toOption.getD false = true) :
      Chronicle svc peer [.called (.isIpBanned peer.ip) banned, .replied bannedReply]
        { peer := peer, phase := .closed }
  | logonRefused {banned : Except DirectoryError Bool} (hb : banned.toOption.getD false = false) {frame : Bytes}
      {c : Challenge} (hd : Challenge.decode frame = .ok c) (r : Except DirectoryError (Option Account))
      {v : Verdict} (hv : v ≠ .success) {s : Session} (hs : s.phase = .closed) :
      Chronicle svc peer [.called (.isIpBanned peer.ip) banned, .taken .challenge .logonChallenge frame,
        .called (lookup c) r, .replied (ChallengeReply.failure v).encode] s
  | reconnectRefused {banned : Except DirectoryError Bool} (hb : banned.toOption.getD false = false) {frame : Bytes}
      {c : Challenge} (hd : Challenge.decode frame = .ok c) (r : Except DirectoryError (Option Account))
      {v : Verdict} (hv : v ≠ .success) {s : Session} (hs : s.phase = .closed) :
      Chronicle svc peer [.called (.isIpBanned peer.ip) banned, .taken .challenge .reconnectChallenge frame,
        .called (lookup c) r, .replied (ReconnectChallengeReply.failure v).encode] s
  | offered (o : Offer) (ho : o.Granted svc peer) : Chronicle svc peer (o.history peer) (o.session svc peer)
  | proofRefused (o : Offer) (ho : o.Granted svc peer) {frame : Bytes} {p : LogonProof}
      (hd : LogonProof.decode frame = .ok p) {es : List Event} {v : Verdict} (hr : ProofRefused svc peer o p es v)
      {s : Session} (hs : s.phase = .closed) :
      Chronicle svc peer (o.history peer ++ .taken .logonProof .logonProof frame ::
        es ++ [.replied (LogonProofReply.failure v).encode]) s
  | loggedOn (l : Logon) (hl : l.Genuine svc peer) {rest : List Event}
      (hr : Listings svc (l.session svc peer) l.offer.account.member rest) :
      Chronicle svc peer (l.history svc peer ++ rest) (l.session svc peer)
  | resuming (r : Resumption) (hr : r.Granted svc peer) : Chronicle svc peer (r.history peer) (r.session svc peer)
  | resumptionRefused (r : Resumption) (hr : r.Granted svc peer) {frame : Bytes} {p : ReconnectProof}
      (hd : ReconnectProof.decode frame = .ok p) {s : Session} (hs : s.phase = .closed) :
      Chronicle svc peer (r.history peer ++ [.taken .reconnectProof .reconnectProof frame,
        .replied (ReconnectProofReply.failure .versionInvalid).encode]) s
  | resumed (r : Reconnect) (hg : r.Genuine svc peer) {rest : List Event}
      (hr : Listings svc (r.session svc peer) r.resumption.account.member rest) :
      Chronicle svc peer (r.history peer ++ rest) (r.session svc peer)

variable {svc : Service} {peer : Endpoint} {t : List Event} {s s' : Session} {phase : Phase} {c : Command}
  {frame reply : Bytes} {es : List Event} {out : Bytes} {w : World}

theorem refusal?_ne_success {geoip : GeoIp} {ip : Address} {a : Account} {v : Verdict}
    (h : refusal? geoip ip a = some v) : v ≠ .success := by
  rintro rfl
  unfold refusal? at h
  cases hl : lock? geoip ip a with
  | some v =>
    simp only [hl, Option.some.injEq] at h
    subst h
    unfold lock? at hl
    repeat' split at hl
    all_goals simp at hl
  | none =>
    simp only [hl] at h
    unfold ban? at h
    repeat' split at h
    all_goals simp at h

theorem chronicle_logonChallenge {banned : Except DirectoryError Bool} (hb : banned.toOption.getD false = false)
    (h : LogonChallenged svc { peer := peer } frame es (s', .ok reply)) :
    Chronicle svc peer
      (.called (.isIpBanned peer.ip) banned :: .taken .challenge .logonChallenge frame :: es ++
        [.replied reply]) s' := by
  cases h with
  | unknown hd hr => exact .logonRefused hb hd _ (by simp) rfl
  | refused hd hv => exact .logonRefused hb hd _ (refusal?_ne_success hv) rfl
  | unopened hd hv hs ho => exact .logonRefused hb hd _ (by simp) rfl
  | unsupported hd hv ho hs => exact .logonRefused hb hd _ (by simp) rfl
  | offered hd hv ho hs privateKey =>
    rename_i c a secret
    exact .offered ⟨banned, frame, c, a, secret, privateKey⟩ ⟨hb, hd, hv, hs, ho⟩

theorem chronicle_reconnectChallenge {banned : Except DirectoryError Bool}
    (hb : banned.toOption.getD false = false)
    (h : ReconnectChallenged svc { peer := peer } frame es (s', .ok reply)) :
    Chronicle svc peer
      (.called (.isIpBanned peer.ip) banned :: .taken .challenge .reconnectChallenge frame :: es ++
        [.replied reply]) s' := by
  cases h with
  | unknown hd hr => exact .reconnectRefused hb hd _ (by simp) rfl
  | refused hd hv => exact .reconnectRefused hb hd _ (refusal?_ne_success hv) rfl
  | unsupported hd hv hs => exact .reconnectRefused hb hd _ (by simp) rfl
  | keyless hd hv hs hk => exact .reconnectRefused hb hd _ (by simp) rfl
  | resuming hd hv hs hk nonce =>
    rename_i c a key
    exact .resuming ⟨banned, frame, c, a, key, nonce⟩ ⟨hb, hd, hv, hs, hk⟩

/-- Whoever sends a proof that the exchange accepts, and that is vouched for, knows the password. -/
theorem genuine_of_vouched {o : Offer} (ho : o.Granted svc peer) {p : LogonProof}
    (hd : LogonProof.decode frame = .ok p) {key : SessionKey}
    (hx : o.exchange.accept p.clientKey p.proof = some key) {now : Int}
    (hv : Vouched svc (o.session svc peer) p now) :
    key = (⟨o, frame, p, now⟩ : Logon).key ∧ (⟨o, frame, p, now⟩ : Logon).Genuine svc peer := by
  obtain ⟨hn, rfl, hm⟩ := accept_eq_some hx
  obtain ⟨hc, ht⟩ := tokenHolds_iff.mp hv.1
  exact ⟨rfl, ho, hd, hn, hm, hc.trans ho.opens.isSome_eq, ht, hv.2⟩

theorem chronicle_logonProof (o : Offer) (ho : o.Granted svc peer)
    (h : LogonProved svc (o.session svc peer) o.exchange o.account.member frame es (s', .ok reply)) :
    Chronicle svc peer (o.history peer ++ .taken .logonProof .logonProof frame :: es ++ [.replied reply]) s' := by
  cases h with
  | wrongPassword hd hx hc => exact .proofRefused o ho hd (.wrongPassword hx hc) rfl
  | unvouched hd hx hv => exact .proofRefused o ho hd (.unvouched hx hv) rfl
  | unstored hd hx hv e => exact .proofRefused o ho hd (.unstored hx hv e) rfl
  | accepted hd hx hv =>
    rename_i p key now
    obtain ⟨rfl, hl⟩ := genuine_of_vouched ho hd hx hv
    let l : Logon := ⟨o, frame, p, now⟩
    have hs : Chronicle svc peer (l.history svc peer) (l.session svc peer) := by
      simpa using Chronicle.loggedOn l hl .none
    rw [List.append_assoc]
    exact hs

theorem chronicle_reconnectProof (r : Resumption) (hr : r.Granted svc peer)
    (h : ReconnectProved svc (r.session svc peer) r.account.member r.key r.nonce frame (s', .ok reply)) :
    Chronicle svc peer (r.history peer ++ [.taken .reconnectProof .reconnectProof frame, .replied reply]) s' := by
  cases h with
  | wrongVersion hd hp hv => exact .resumptionRefused r hr hd rfl
  | accepted hd hp hv =>
    rename_i p
    let l : Reconnect := ⟨r, frame, p⟩
    have hl : l.Genuine svc peer := ⟨hr, hd, hp.symm, hv⟩
    have hs : Chronicle svc peer (l.history peer) (l.session svc peer) := by
      simpa using Chronicle.resumed l hl .none
    exact hs

theorem listings_listed {m : Member} (hr : Listings svc s m t) (hp : s.phase = .authed)
    (h : Listed svc s m es (s', .ok reply)) :
    s' = s ∧ Listings svc s m (t ++ (.taken .authed .realmList frame :: es ++ [.replied reply])) := by
  cases h with
  | listed counts realms =>
    have hs : { s with phase := .authed } = s := by rw [← hp]
    exact ⟨hs, hr.more frame counts realms⟩

theorem chronicle_of_answered (h : Chronicle svc peer t s) (hc : Due s.phase c)
    (ha : Answered svc s frame c es (s', .ok reply)) :
    Chronicle svc peer (t ++ .taken s.phase c frame :: es ++ [.replied reply]) s' := by
  cases h with
  | opened hb =>
    cases ha with
    | logonChallenge hp ha => exact chronicle_logonChallenge hb ha
    | reconnectChallenge hp ha => exact chronicle_reconnectChallenge hb ha
    | logonProof hp => cases hp
    | reconnectProof hp => cases hp
    | realmList hp => cases hp
  | offered o ho =>
    cases ha with
    | logonProof hp hx hm ha =>
      cases hx
      cases hm
      exact chronicle_logonProof o ho ha
    | _ hp => cases hp
  | loggedOn l hl hr =>
    cases ha with
    | realmList hp hm ha =>
      cases hm
      obtain ⟨rfl, hr⟩ := listings_listed hr rfl ha
      rw [List.append_assoc, List.append_assoc]
      exact .loggedOn l hl hr
    | _ hp => cases hp
  | resuming r hr =>
    cases ha with
    | reconnectProof hp hm hk hn ha =>
      cases hm
      cases hk
      cases hn
      rw [List.append_assoc]
      exact chronicle_reconnectProof r hr ha
    | _ hp => cases hp
  | resumed r hg hr =>
    cases ha with
    | realmList hp hm ha =>
      cases hm
      obtain ⟨rfl, hr⟩ := listings_listed hr rfl ha
      rw [List.append_assoc, List.append_assoc]
      exact .resumed r hg hr
    | _ hp => cases hp
  | turnedAway hb => cases hc
  | logonRefused hb hd r hv hs =>
    rw [hs] at hc
    cases hc
  | reconnectRefused hb hd r hv hs =>
    rw [hs] at hc
    cases hc
  | proofRefused o ho hd hr hs =>
    rw [hs] at hc
    cases hc
  | resumptionRefused r hr hd hs =>
    rw [hs] at hc
    cases hc

theorem chronicle_of_served (h : Served svc peer t s) : Chronicle svc peer t s := by
  induction h with
  | admitted hb => exact .opened hb
  | turnedAway hb => exact .turnedAway hb
  | answered h hn hy ih =>
    have hc := due_of_nextFrame hn
    exact chronicle_of_answered ih hc (answered_of_yields (coherent_of_served h) hc hy)

/-- A session that waits for the proof of an exchange has just offered it. -/
theorem offer_of_due (h : Chronicle svc peer t s) (hd : Due s.phase .logonProof) :
    ∃ o : Offer, o.Granted svc peer ∧ t = o.history peer ∧ s = o.session svc peer := by
  have hp := hd.phase_eq
  cases h with
  | offered o ho => exact ⟨o, ho, rfl, rfl⟩
  | logonRefused hb hd r hv hs => simp [hs] at hp
  | reconnectRefused hb hd r hv hs => simp [hs] at hp
  | proofRefused o ho hd hr hs => simp [hs] at hp
  | resumptionRefused r hr hd hs => simp [hs] at hp
  | _ => cases hp

/-- A history goes on with a frame that has not been answered: nothing was asked for it, or the program has stopped. -/
theorem unanswered_cases (h : Chronicle svc peer t s) (hc : Due s.phase c) {e : SessionError}
    (ha : Answered svc s frame c es (s', .error e)) :
    es = [] ∨ Chronicle svc peer (t ++ .taken s.phase c frame :: es ++ [.replied refusedProof]) s' := by
  obtain ⟨rfl, -⟩ | ⟨rfl, rfl, -⟩ := ha.fault
  · exact .inl rfl
  · cases ha with
    | logonProof hp hx hm ha =>
      obtain ⟨o, ho, rfl, rfl⟩ := offer_of_due h hc
      cases hx
      cases hm
      cases ha with
      | halted hd hx hc hh => exact .inr (.proofRefused o ho hd (.wrongPassword hx hc) rfl)

/-- What has happened is the beginning of a history between two frames, or such a history and a frame that has only
been taken up. It makes no difference here whether the program stops at a ban or goes on. -/
inductive Overture (svc : Service) (peer : Endpoint) : List Event → Prop
  | within {t u : List Event} {s : Session} (h : Chronicle svc peer u s) (hp : t <+: u) : Overture svc peer t
  | taken {u : List Event} {s : Session} (h : Served svc peer u s) {c : Command} {frame : Bytes}
      (hn : s.nextFrame frame = .ok (some (c, frame.length))) : Overture svc peer (u ++ [.taken s.phase c frame])

theorem overture_of_admission {f : Flow Bool} (h : (admission peer.ip).Leads t f) : Overture svc peer t := by
  obtain ⟨ds, banned, hf⟩ := f.exists_yields
  obtain ⟨r, es, he, hk⟩ := Flow.yields_ask_iff.mp (h.trans hf)
  obtain ⟨rfl, -⟩ := Flow.yields_done_iff.mp hk
  have hp : t <+: [.called (.isIpBanned peer.ip) r] := he ▸ List.prefix_append t ds
  cases hb : (r : Except DirectoryError Bool).toOption.getD false with
  | false => exact .within (.opened hb) hp
  | true => exact .within (.turnedAway hb) (hp.trans (List.prefix_append _ [_]))

theorem overture_of_answering {f : Flow Outcome} (h : Answering svc peer t s phase f) : Overture svc peer t := by
  cases h with
  | @taken t s h c frame hn es f hl =>
    obtain ⟨ds, ⟨s', r⟩, hf⟩ := f.exists_yields
    have hc := due_of_nextFrame hn
    have ha := answered_of_yields (coherent_of_served h) hc (hl.trans hf)
    have hp (reply : Bytes) :
        t ++ .taken s.phase c frame :: es <+: t ++ .taken s.phase c frame :: (es ++ ds) ++ [.replied reply] := by
      rw [← List.cons_append, ← List.append_assoc, List.append_assoc _ ds]
      exact List.prefix_append _ _
    cases r with
    | ok reply => exact .within (chronicle_of_answered (chronicle_of_served h) hc ha) (hp reply)
    | error e =>
      obtain he | hu := unanswered_cases (chronicle_of_served h) hc ha
      · obtain ⟨rfl, -⟩ := List.append_eq_nil_iff.mp he
        exact .taken h hn
      · exact .within hu (hp refusedProof)

theorem overture_of_held {c : Connection} (h : Held svc peer t c) : Overture svc peer t := by
  unfold Held at h
  split at h
  · exact overture_of_admission h.2.2
  · exact overture_of_answering h
  · exact .within (chronicle_of_served h) List.prefix_rfl
  · exact .within (chronicle_of_served h) List.prefix_rfl
  · generalize c.session = s at h
    cases h with
    | unadmitted h phase => exact overture_of_admission h
    | rested h hr => exact .within (chronicle_of_served h) List.prefix_rfl
    | interrupted h => exact overture_of_answering h
    | failed h => exact overture_of_answering h

end RealmLogon.Connection
