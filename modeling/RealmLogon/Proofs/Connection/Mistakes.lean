import RealmLogon.Proofs.Connection.Grammar

/-! A wrong password on one connection. It is the only thing that makes the connection count a failed logon or ban,
and it is counted once. -/

namespace RealmLogon

open Directory Exchange

namespace Event

def account? : Event → Option Account
  | asked (.call (.fetchByLogin _)) (.ok (some a)) => some a
  | _ => none

def key? : Event → Option Key
  | asked (.draw 32) key => some key
  | _ => none

end Event

namespace Connection

open Session

/-- The proof of an offered exchange that does not fit it. -/
structure Mistake where
  offer : Offer
  frame : Bytes
  proof : LogonProof

namespace Mistake

def history (peer : Endpoint) (x : Mistake) : List Event :=
  x.offer.history peer ++ [.taken .logonProof .logonProof x.frame]

structure Made (svc : Service) (peer : Endpoint) (x : Mistake) : Prop where
  granted : x.offer.Granted svc peer
  decodes : LogonProof.decode x.frame = .ok x.proof
  rejected : x.offer.exchange.accept x.proof.clientKey x.proof.proof = none

end Mistake

/-- What is asked and replied after a wrong password, if the count that is returned is `n`. There is no reply where the
program stops at the ban. -/
def penalty (svc : Service) (m : Member) (ip : Address) (n : UInt32) (r : Except DirectoryError Unit) : List Event :=
  .called (.recordFailedLogin m.login) (.ok n) ::
    if n.toNat < svc.policy.maxWrongPasswords then [.replied refusedProof]
    else .called (.autoBan (banTarget svc.policy m ip) svc.policy.banTime) r ::
      if DirectoryError.halts r then [] else [.replied refusedProof]

variable {svc : Service} {peer : Endpoint} {t u : List Event} {s s' : Session} {phase : Phase} {e : SessionError}
  {c : Connection} {x : Mistake}

@[simp] theorem calls_history (peer : Endpoint) (x : Mistake) : calls (x.history peer) =
    [.isIpBanned peer.ip, .fetchByLogin (Text.Latin.upper x.offer.challenge.login)] := rfl

@[simp] theorem calls_penalty (svc : Service) (m : Member) (ip : Address) (n : UInt32)
    (r : Except DirectoryError Unit) : calls (penalty svc m ip n r) = .recordFailedLogin m.login ::
      if n.toNat < svc.policy.maxWrongPasswords then []
      else [.autoBan (banTarget svc.policy m ip) svc.policy.banTime] := by
  by_cases hn : n.toNat < svc.policy.maxWrongPasswords
  · simp [penalty, calls, Event.call?, hn]
  · cases hr : DirectoryError.halts r <;> simp [penalty, calls, Event.call?, hn, hr]

theorem replies_penalty (svc : Service) (m : Member) (ip : Address) (n : UInt32) {r : Except DirectoryError Unit}
    (hr : DirectoryError.halts r = false) : replies (penalty svc m ip n r) = [refusedProof] := by
  by_cases hn : n.toNat < svc.policy.maxWrongPasswords
  · rw [penalty, if_pos hn]
    rfl
  · rw [penalty, if_neg hn, hr]
    rfl

theorem Mistake.not_halted_history (x : Mistake) : ¬Halted (x.history peer) := by
  simp [Mistake.history, Offer.history, Event.halts]

/-- The reply is the end of it, or else the ban at which the program stops. -/
theorem eq_penalty_of_ended {m : Member} {ip : Address} {n : UInt32} {r : Except DirectoryError Unit}
    {rest : List Event} (hp : rest <+: penalty svc m ip n r) (he : (∃ b, .replied b ∈ rest) ∨ Halted rest) :
    rest = penalty svc m ip n r := by
  have hlast : ∃ init e, penalty svc m ip n r = init ++ [e] ∧ (∀ b, .replied b ∉ init) ∧ ¬Halted init := by
    by_cases hn : n.toNat < svc.policy.maxWrongPasswords
    · exact ⟨[_], _, by rw [penalty, if_pos hn]; rfl, by simp, by simp [Event.halts]⟩
    · cases hr : DirectoryError.halts r with
      | false => exact ⟨[_, _], _, by rw [penalty, if_neg hn, hr]; rfl, by simp, by simp [Event.halts, hr]⟩
      | true => exact ⟨[_], _, by rw [penalty, if_neg hn, hr]; rfl, by simp, by simp [Event.halts]⟩
  obtain ⟨init, e, hpenalty, hreplied, hhalted⟩ := hlast
  rw [hpenalty] at hp ⊢
  refine (List.prefix_concat_iff.mp hp).resolve_right fun hinit => ?_
  obtain ⟨b, hb⟩ | hh := he
  · exact hreplied b (hinit.subset hb)
  · exact hhalted (hh.mono hinit.subset)

/-- A history tells to which account an exchange was offered, the exchange, and the frame with its proof. -/
theorem offer_eq_of_prefix {o o' : Offer} {frame frame' : Bytes}
    (h : o.history peer ++ [.taken .logonProof .logonProof frame] <+: t)
    (h' : o'.history peer ++ [.taken .logonProof .logonProof frame'] <+: t) :
    o.account = o'.account ∧ o.exchange = o'.exchange ∧ frame = frame' := by
  have he : o.history peer ++ [.taken .logonProof .logonProof frame] =
      o'.history peer ++ [.taken .logonProof .logonProof frame'] :=
    (List.prefix_of_prefix_length_le h h' (Nat.le_refl 6)).eq_of_length rfl
  have ha : o.account = o'.account := List.cons.inj (congrArg (List.filterMap Event.account?) he) |>.1
  have hk : o.privateKey = o'.privateKey := List.cons.inj (congrArg (List.filterMap Event.key?) he) |>.1
  have hf : frame = frame' := by
    have hl := congrArg List.getLast? he
    simp only [List.getLast?_concat, Option.some.injEq, Event.taken.injEq, true_and] at hl
    exact hl
  exact ⟨ha, by rw [Offer.exchange, Offer.exchange, ha, hk], hf⟩

theorem accept_eq_of_genuine {l : Logon} (hl : l.Genuine svc peer) :
    l.offer.exchange.accept l.proof.clientKey l.proof.proof = some l.key := by
  have hp : l.offer.exchange.expectedProof l.proof.clientKey = l.proof.proof := hl.password.symm
  simp only [Server.accept, if_neg hl.nonzero, if_pos hp]
  rfl

/-- The calls that are made for wrong passwords only. -/
def isPenal : Call → Bool
  | .recordFailedLogin _ | .autoBan .. => true
  | _ => false

def Lenient (t : List Event) : Prop := ∀ c ∈ calls t, isPenal c = false

theorem Lenient.append (ht : Lenient t) (hu : Lenient u) : Lenient (t ++ u) := by
  intro c hc
  rw [calls_append] at hc
  rcases List.mem_append.mp hc with hc | hc
  · exact ht c hc
  · exact hu c hc

theorem lenient_offer (peer : Endpoint) (o : Offer) : Lenient (o.history peer) := by
  simp [Lenient, isPenal]

theorem lenient_proof (peer : Endpoint) (o : Offer) (frame : Bytes) :
    Lenient (o.history peer ++ [.taken .logonProof .logonProof frame]) := by
  refine (lenient_offer peer o).append ?_
  simp [Lenient, calls, Event.call?]

theorem lenient_resumption (peer : Endpoint) (r : Resumption) : Lenient (r.history peer) := by
  simp [Lenient, isPenal]

theorem lenient_listings {m : Member} (h : Listings svc s m t) : Lenient t := by
  obtain ⟨n, hn⟩ := calls_listings h
  intro c hc
  rw [hn] at hc
  rw [List.eq_of_mem_replicate hc]
  rfl

def Untried (t : List Event) : Prop := ∀ phase frame, .taken phase .logonProof frame ∉ t

theorem Untried.append (ht : Untried t) (hu : Untried u) : Untried (t ++ u) := by
  intro phase frame hm
  rcases List.mem_append.mp hm with hm | hm
  · exact ht phase frame hm
  · exact hu phase frame hm

theorem untried_offer (peer : Endpoint) (o : Offer) : Untried (o.history peer) := by
  simp [Untried, Offer.history]

theorem untried_listings {m : Member} (h : Listings svc s m t) : Untried t := by
  induction h with
  | none => simp [Untried]
  | more h f counts realms ih => exact ih.append (by simp [Untried, listing])

theorem untried_counted {m : Member} {ip : Address} (h : PasswordCounted svc m ip t) : Untried t := by
  cases h <;> simp [Untried]

theorem frame_of_taken {o : Offer} {frame frame' : Bytes}
    (h : .taken phase .logonProof frame ∈ o.history peer ++ [.taken .logonProof .logonProof frame'] ++ t)
    (ht : Untried t) : frame = frame' := by
  rcases List.mem_append.mp h with h | h
  · rcases List.mem_append.mp h with h | h
    · exact absurd h (untried_offer peer o _ _)
    · cases List.mem_singleton.mp h
      rfl
  · exact absurd h (ht _ _)

/-- What a history between two frames tells about the proof of an exchange. -/
inductive Tried (svc : Service) (peer : Endpoint) : List Event → Session → Prop
  | not {t : List Event} {s : Session} (ht : Untried t) (hl : Lenient t) : Tried svc peer t s
  | wrongly (x : Mistake) (hx : x.Made svc peer) {es : List Event}
      (hc : PasswordCounted svc x.offer.account.member peer.ip es) {s : Session} (hs : s.phase = .closed) :
      Tried svc peer (x.history peer ++ es ++ [.replied refusedProof]) s
  | rightly (o : Offer) {frame : Bytes} {p : LogonProof} (hd : LogonProof.decode frame = .ok p) {key : SessionKey}
      (ha : o.exchange.accept p.clientKey p.proof = some key) {rest : List Event} {s : Session} (hl : Lenient rest)
      (ht : Untried rest) (ho : o.Granted svc peer) :
      Tried svc peer (o.history peer ++ [.taken .logonProof .logonProof frame] ++ rest) s

theorem tried_of_chronicle (h : Chronicle svc peer t s) : Tried svc peer t s := by
  cases h with
  | opened hb => exact .not (by simp [Untried]) (by simp [Lenient, calls, Event.call?, isPenal])
  | turnedAway hb => exact .not (by simp [Untried]) (by simp [Lenient, calls, Event.call?, isPenal])
  | logonRefused hb hd r hv hs => exact .not (by simp [Untried]) (by simp [Lenient, calls, Event.call?, isPenal])
  | reconnectRefused hb hd r hv hs => exact .not (by simp [Untried]) (by simp [Lenient, calls, Event.call?, isPenal])
  | offered o ho => exact .not (untried_offer peer o) (lenient_offer peer o)
  | proofRefused o ho hd hr hs =>
    rename_i frame p es v
    rw [List.append_cons (o.history peer)]
    cases hr with
    | wrongPassword hx hc => exact .wrongly ⟨o, frame, p⟩ ⟨ho, hd, hx⟩ hc hs
    | unvouched hx hv =>
      rw [List.append_assoc]
      exact .rightly o hd hx (by simp [Lenient, calls, Event.call?]) (by simp [Untried]) ho
    | unstored hx hv e =>
      rw [List.append_assoc]
      exact .rightly o hd hx (by simp [Lenient, calls, Event.call?, isPenal]) (by simp [Untried]) ho
  | loggedOn l hl hr =>
    rw [Logon.history, List.append_cons (l.offer.history peer), List.append_assoc]
    refine .rightly l.offer hl.decodes (accept_eq_of_genuine hl) (Lenient.append ?_ (lenient_listings hr))
      (Untried.append ?_ (untried_listings hr)) hl.granted
    · simp [Lenient, calls, Event.call?, isPenal]
    · simp [Untried]
  | resuming r hr => exact .not (by simp [Untried, Resumption.history]) (lenient_resumption peer r)
  | resumptionRefused r hr hd hs =>
    refine .not (by simp [Untried, Resumption.history]) ((lenient_resumption peer r).append ?_)
    simp [Lenient, calls, Event.call?]
  | resumed r hg hr =>
    refine .not (Untried.append ?_ (untried_listings hr)) (Lenient.append ?_ (lenient_listings hr))
    · simp [Untried, Reconnect.history, Resumption.history]
    · refine (lenient_resumption peer r.resumption).append ?_
      simp [Lenient, calls, Event.call?]

theorem mem_history (peer : Endpoint) (x : Mistake) : .taken .logonProof .logonProof x.frame ∈ x.history peer := by
  simp [Mistake.history]

theorem Tried.eq_of_made (h : Tried svc peer t s) {x : Mistake} (hx : x.Made svc peer)
    (hp : x.history peer <+: t) :
    s.phase = .closed ∧ ∃ es, PasswordCounted svc x.offer.account.member peer.ip es ∧
      t = x.history peer ++ es ++ [.replied refusedProof] := by
  cases h with
  | not ht hl => exact absurd (hp.subset (mem_history peer x)) (ht _ _)
  | wrongly y hy hc hs =>
    rename_i es
    have hy' : y.history peer <+: y.history peer ++ es ++ [.replied refusedProof] := by
      rw [List.append_assoc]
      exact List.prefix_append _ _
    obtain ⟨ha, -, -⟩ := offer_eq_of_prefix hp hy'
    have he : x.history peer = y.history peer :=
      (List.prefix_of_prefix_length_le hp hy' (Nat.le_refl 6)).eq_of_length rfl
    rw [ha, he]
    exact ⟨hs, es, hc, rfl⟩
  | rightly o hd ha hl ht ho =>
    obtain ⟨-, hexchange, hframe⟩ := offer_eq_of_prefix hp (List.prefix_append _ _)
    have hproof : x.proof = _ := Except.ok.inj (hx.decodes.symm.trans (hframe ▸ hd))
    have hr := hx.rejected
    rw [hexchange, hproof, ha] at hr
    cases hr

/-- Only a wrong password makes a connection count or ban. -/
theorem Tried.made_of_penal (h : Tried svc peer t s) {c : Call} (hc : c ∈ calls t) (hp : isPenal c = true) :
    ∃ x : Mistake, x.Made svc peer ∧ x.history peer <+: t := by
  cases h with
  | not ht hl => simp [hl c hc] at hp
  | wrongly x hx hcounted hs =>
    rw [List.append_assoc]
    exact ⟨x, hx, List.prefix_append _ _⟩
  | rightly o hd ha hl ht ho =>
    simp [(lenient_proof peer o _).append hl c hc] at hp

theorem Tried.offer_of_taken (h : Tried svc peer t s) {frame : Bytes} (hm : .taken phase .logonProof frame ∈ t) :
    ∃ o : Offer, o.Granted svc peer ∧ o.history peer ++ [.taken .logonProof .logonProof frame] <+: t := by
  cases h with
  | not ht hl => exact absurd hm (ht _ _)
  | wrongly x hx hc hs =>
    rename_i es
    have hrest : Untried (es ++ [.replied refusedProof]) := (untried_counted hc).append (by simp [Untried])
    rw [List.append_assoc] at hm ⊢
    obtain rfl := frame_of_taken hm hrest
    exact ⟨x.offer, hx.granted, List.prefix_append _ _⟩
  | rightly o hd ha hl ht ho =>
    obtain rfl := frame_of_taken hm ht
    exact ⟨o, ho, List.prefix_append _ _⟩

theorem counted_of_made (hN : svc.policy.maxWrongPasswords ≠ 0) (h : Overture svc peer t) {x : Mistake}
    (hx : x.Made svc peer) (hp : x.history peer <+: t) :
    ∃ es, PasswordCounted svc x.offer.account.member peer.ip es ∧
      t <+: x.history peer ++ es ++ [.replied refusedProof] := by
  cases h with
  | within h ht =>
    obtain ⟨-, es, hc, rfl⟩ := (tried_of_chronicle h).eq_of_made hx (hp.trans ht)
    exact ⟨es, hc, ht⟩
  | taken h hn =>
    rcases List.prefix_concat_iff.mp hp with he | hu
    · refine ⟨_, .uncountable hN .unavailable, ?_⟩
      rw [← he, List.append_assoc]
      exact List.prefix_append _ _
    · obtain ⟨hs, -⟩ := (tried_of_chronicle (chronicle_of_served h)).eq_of_made hx hu
      have hdue := due_of_nextFrame hn
      rw [hs] at hdue
      cases hdue

theorem made_of_penal (h : Overture svc peer t) {c : Call} (hc : c ∈ calls t) (hp : isPenal c = true) :
    ∃ x : Mistake, x.Made svc peer ∧ x.history peer <+: t := by
  cases h with
  | within h ht =>
    obtain ⟨x, hx, hu⟩ := (tried_of_chronicle h).made_of_penal ((ht.filterMap _).subset hc) hp
    -- What has happened goes beyond the wrong proof, since nothing penal comes before it.
    rcases List.prefix_or_prefix_of_prefix hu ht with hle | hge
    · exact ⟨x, hx, hle⟩
    · have hl := lenient_proof peer x.offer x.frame c ((hge.filterMap _).subset hc)
      simp [hl] at hp
  | taken h hn =>
    rename_i u s c' frame
    have hu : c ∈ calls u := by
      rw [calls_append] at hc
      rcases List.mem_append.mp hc with hc | hc
      · exact hc
      · cases hc
    obtain ⟨x, hx, hh⟩ := (tried_of_chronicle (chronicle_of_served h)).made_of_penal hu hp
    exact ⟨x, hx, hh.trans (List.prefix_append _ _)⟩

/-- Whenever the proof of an exchange has been taken up, the exchange had been offered. -/
theorem offer_of_taken (h : Overture svc peer t) {frame : Bytes} (hm : .taken phase .logonProof frame ∈ t) :
    ∃ o : Offer, o.Granted svc peer ∧ o.history peer ++ [.taken .logonProof .logonProof frame] <+: t := by
  cases h with
  | within h ht =>
    obtain ⟨o, ho, hu⟩ := (tried_of_chronicle h).offer_of_taken (ht.subset hm)
    refine ⟨o, ho, ?_⟩
    rcases List.prefix_or_prefix_of_prefix hu ht with hle | hge
    · exact hle
    · rcases List.prefix_concat_iff.mp hge with rfl | hge
      · exact List.prefix_rfl
      · exact absurd (hge.subset hm) (untried_offer peer o _ _)
  | taken h hn =>
    rename_i u s c frame'
    rcases List.mem_append.mp hm with hm | hm
    · obtain ⟨o, ho, hu⟩ := (tried_of_chronicle (chronicle_of_served h)).offer_of_taken hm
      exact ⟨o, ho, hu.trans (List.prefix_append _ _)⟩
    · cases List.mem_singleton.mp hm
      obtain ⟨o, ho, rfl, rfl⟩ := offer_of_due (chronicle_of_served h) (due_of_nextFrame hn)
      exact ⟨o, ho, List.prefix_rfl⟩

/-- Nothing more is to come of the frame that was taken up last, and it was not cut off by the deadline. -/
def Settled (c : Connection) : Prop :=
  match c.activity with
  | .admitting _ | .deciding .. | .finished (.error (.timeout _)) => False
  | _ => True

theorem Settled.served (hs : c.Settled) (h : Held svc peer t c) :
    Served svc peer t c.session ∨ ∃ s phase e, Answering svc peer t s phase (.done (c.session, .error e)) ∧
      c.activity = .finished (.error e) := by
  obtain ⟨s, b, d, a⟩ := c
  cases a with
  | admitting f => cases hs
  | deciding phase f => cases hs
  | writing phase rest => exact .inl h
  | waiting => exact .inl h
  | finished r =>
    change Ended svc peer t s r at h
    cases h with
    | unadmitted h phase => cases hs
    | rested h hr => exact .inl h
    | interrupted h => cases hs
    | failed h => exact .inr ⟨_, _, _, h, rfl⟩

theorem Settled.sent {out : Bytes} {w : World} (hs : c.Settled) (h : Conversation svc peer t out c w) :
    t.flatMap Event.sent = out ++ c.unwritten := by
  refine sent_of_conversation h fun phase hp => ?_
  rw [Settled, hp] at hs
  exact hs

/-- Whatever is asked for a proof that does not fit its exchange, it is refused, or the program stops. -/
theorem refused_of_rejected {x : Server} {m : Member} {frame : Bytes} {es : List Event} {o : Outcome}
    (h : LogonProved svc s x m frame es o) {p : LogonProof} (hd : LogonProof.decode frame = .ok p)
    (hx : x.accept p.clientKey p.proof = none) :
    o = (spent s, .ok refusedProof) ∨ Halted es ∧ o = (spent s, .error .overflow) := by
  cases h with
  | malformed hd' =>
    rw [hd] at hd'
    cases hd'
  | wrongPassword hd' hx' hc hh => exact .inl rfl
  | halted hd' hx' hc hh => exact .inr ⟨hh, rfl⟩
  | unvouched hd' hx' hv => exact .inl rfl
  | unstored hd' hx' hv e =>
    cases Except.ok.inj (hd.symm.trans hd')
    rw [hx] at hx'
    cases hx'
  | accepted hd' hx' hv =>
    cases Except.ok.inj (hd.symm.trans hd')
    rw [hx] at hx'
    cases hx'

/-- A frame with a wrong password goes unanswered only where the program stops. -/
theorem halted_of_answering_error (h : Answering svc peer t s phase (.done (s', .error e))) (hx : x.Made svc peer)
    (hp : x.history peer <+: t) : Halted t := by
  cases h with
  | taken h hn hl =>
    rename_i u es c frame
    have hdue := due_of_nextFrame hn
    have ha := answered_of_yields (coherent_of_served h) hdue hl
    obtain ⟨rfl, -⟩ | ⟨-, -, hh⟩ := ha.fault
    · rcases List.prefix_concat_iff.mp hp with he | hu
      · have hlast := congrArg List.getLast? he
        rw [Mistake.history, List.getLast?_concat, List.getLast?_concat, Option.some.injEq, Event.taken.injEq] at hlast
        obtain ⟨-, rfl, rfl⟩ := hlast
        cases ha with
        | logonProof hphase hexchange hm ha =>
          cases ha with
          | malformed hd =>
            rw [hx.decodes] at hd
            cases hd
          | halted hd hx hc hh => exact absurd hh not_halted_nil
      · obtain ⟨hs, -⟩ := (tried_of_chronicle (chronicle_of_served h)).eq_of_made hx hu
        rw [hs] at hdue
        cases hdue
    · exact halted_append_iff.mpr (.inr (halted_cons_iff.mpr (.inr hh)))

theorem refused_of_settled (hs : c.Settled) (h : Held svc peer t c) (hx : x.Made svc peer)
    (hp : x.history peer <+: t) : (∃ before, t = before ++ [.replied refusedProof]) ∨ Halted t := by
  obtain h | ⟨s, phase, e, h, -⟩ := hs.served h
  · obtain ⟨-, es, -, he⟩ := (tried_of_chronicle (chronicle_of_served h)).eq_of_made hx hp
    exact .inl ⟨_, he⟩
  · exact .inr (halted_of_answering_error h hx hp)

/-- Only the frame that is being answered can have stopped the program. -/
theorem unhalted_of_served (h : Served svc peer t s) : ¬Halted t := by
  induction h with
  | admitted hb => simp [Event.halts]
  | turnedAway hb => simp [Event.halts]
  | answered h hn hy ih =>
    have hes := (answered_of_yields (coherent_of_served h) (due_of_nextFrame hn) hy).unhalted
    simp [Event.halts, ih, hes]

theorem served_of_replied {b : Bytes} (h : Held svc peer (t ++ [.replied b]) c) :
    ∃ s, Served svc peer (t ++ [.replied b]) s := by
  have hadmission {f : Flow Bool} : ¬(admission peer.ip).Leads (t ++ [.replied b]) f := by
    intro hl
    obtain ⟨q, a, he⟩ := hl.eq_asked (.replied b) (by simp)
    cases he
  have hanswering {phase : Phase} {s : Session} {f : Flow Outcome} :
      ¬Answering svc peer (t ++ [.replied b]) s phase f := by
    -- While a frame is being answered, the last event is that it was taken up, or an answer of the world.
    intro ha
    generalize hu : t ++ [.replied b] = u at ha
    cases ha with
    | taken h hn hl =>
      rename_i es
      have hlast := congrArg List.getLast? hu
      rcases List.eq_nil_or_concat es with rfl | ⟨es, e, rfl⟩
      · simp at hlast
      · obtain ⟨q, a, rfl⟩ := hl.eq_asked e (by simp)
        rw [List.concat_eq_append, ← List.cons_append, ← List.append_assoc, List.getLast?_concat,
          List.getLast?_concat] at hlast
        cases hlast
  unfold Held at h
  split at h
  · exact absurd h.2.2 hadmission
  · exact absurd h hanswering
  · exact ⟨_, h⟩
  · exact ⟨_, h⟩
  · generalize c.session = s at h
    generalize hu : t ++ [.replied b] = u at h
    cases h with
    | unadmitted h phase => exact absurd (hu ▸ h) hadmission
    | rested h hr => exact ⟨_, h⟩
    | interrupted h => exact absurd (hu ▸ h) hanswering
    | failed h => exact absurd (hu ▸ h) hanswering

end Connection

end RealmLogon
