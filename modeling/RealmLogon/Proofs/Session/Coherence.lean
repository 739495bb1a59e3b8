import RealmLogon.Proofs.Session.Stage

/-! The secrets of a session and its phase fit together: each secret is there exactly while a frame can come that
needs it. Answering a frame keeps this, so no handler ever misses what it looks for. -/

namespace RealmLogon.Session

open Exchange

/-- What a session between two frames holds, phase by phase. -/
structure Coherent (s : Session) : Prop where
  phase : s.phase = .challenge ∨ s.phase = .logonProof ∨ s.phase = .reconnectProof ∨ s.phase = .authed ∨
    s.phase = .closed
  exchange : s.exchange.isSome ↔ s.phase = .logonProof
  reconnectNonce : s.reconnectNonce.isSome ↔ s.phase = .reconnectProof
  totpSecret : s.totpSecret.isSome → s.phase = .logonProof
  member : s.phase = .logonProof ∨ s.phase = .reconnectProof ∨ s.phase = .authed →
    s.account.isSome ∧ s.expansion.isValid = true
  keyed : s.phase = .reconnectProof ∨ s.phase = .authed → s.sessionKey.isSome
  keyless : s.phase = .challenge ∨ s.phase = .logonProof → s.sessionKey = none
  unknown : s.phase = .challenge → s.account = none

/-- What a session has learned, it keeps: whose it is, and the session key. -/
structure Keeps (s s' : Session) : Prop where
  account : ∀ m, s.account = some m → s'.account = some m
  sessionKey : ∀ key, s.sessionKey = some key → s'.sessionKey = some key

/-- A frame was answered by the handler of the phase, and nothing that the handler needs was missing. -/
inductive Answered (svc : Service) (s : Session) (frame : Bytes) : Command → List Event → Outcome → Prop
  | logonChallenge (hp : s.phase = .challenge) {es : List Event} {o : Outcome}
      (h : LogonChallenged svc s frame es o) : Answered svc s frame .logonChallenge es o
  | reconnectChallenge (hp : s.phase = .challenge) {es : List Event} {o : Outcome}
      (h : ReconnectChallenged svc s frame es o) : Answered svc s frame .reconnectChallenge es o
  | logonProof (hp : s.phase = .logonProof) {x : Server} (hx : s.exchange = some x) {m : Member}
      (hm : s.account = some m) {es : List Event} {o : Outcome} (h : LogonProved svc s x m frame es o) :
      Answered svc s frame .logonProof es o
  | reconnectProof (hp : s.phase = .reconnectProof) {m : Member} (hm : s.account = some m) {key : SessionKey}
      (hk : s.sessionKey = some key) {nonce : Nonce} (hn : s.reconnectNonce = some nonce) {o : Outcome}
      (h : ReconnectProved svc s m key nonce frame o) : Answered svc s frame .reconnectProof [] o
  | realmList (hp : s.phase = .authed) {m : Member} (hm : s.account = some m) {es : List Event} {o : Outcome}
      (h : Listed svc s m es o) : Answered svc s frame .realmList es o

variable {svc : Service} {s s' : Session} {c : Command} {frame : Bytes} {es : List Event} {o : Outcome}

theorem Keeps.refl (s : Session) : s.Keeps s := ⟨fun _ h => h, fun _ h => h⟩

theorem Keeps.trans {s'' : Session} (h : s.Keeps s') (h' : s'.Keeps s'') : s.Keeps s'' :=
  ⟨fun m hm => h'.account m (h.account m hm), fun key hk => h'.sessionKey key (h.sessionKey key hk)⟩

theorem coherent_new (peer : Endpoint) : Coherent { peer := peer } := by
  constructor <;> simp

theorem coherent_closed (hp : s.phase = .closed) (hx : s.exchange = none) (hn : s.reconnectNonce = none)
    (ht : s.totpSecret = none) : Coherent s := by
  constructor <;> simp [hp, hx, hn, ht]

/-- A coherent session has what the handler of a due frame needs. -/
theorem answered_of_yields (hs : s.Coherent) (hc : Due s.phase c) (h : (s.dispatch svc c frame).Yields es o) :
    Answered svc s frame c es o := by
  have hphase := hs.phase
  generalize hp : s.phase = phase at hc hphase
  cases hc with
  | logonChallenge =>
    have ht : s.totpSecret = none := by
      rw [← Option.not_isSome_iff_eq_none]
      intro ht
      have := hs.totpSecret ht
      simp [hp] at this
    exact .logonChallenge hp (logonChallenged_of_yields ht h)
  | reconnectChallenge => exact .reconnectChallenge hp (reconnectChallenged_of_yields h)
  | logonProof =>
    obtain ⟨hm, hb⟩ := hs.member (.inl hp)
    obtain ⟨m, hm⟩ := Option.isSome_iff_exists.mp hm
    obtain ⟨x, hx⟩ := Option.isSome_iff_exists.mp (hs.exchange.mpr hp)
    exact .logonProof hp hx hm (logonProved_of_yields hb hx hm h)
  | reconnectProof =>
    obtain ⟨m, hm⟩ := Option.isSome_iff_exists.mp (hs.member (.inr (.inl hp))).1
    obtain ⟨key, hk⟩ := Option.isSome_iff_exists.mp (hs.keyed (.inl hp))
    obtain ⟨nonce, hn⟩ := Option.isSome_iff_exists.mp (hs.reconnectNonce.mpr hp)
    obtain ⟨rfl, hr⟩ := reconnectProved_of_yields hm hk hn h
    exact .reconnectProof hp hm hk hn hr
  | realmList =>
    obtain ⟨m, hm⟩ := Option.isSome_iff_exists.mp (hs.member (.inr (.inr hp))).1
    exact .realmList hp hm (listed_of_yields hm h)
  | xferAccept => simp at hphase
  | xferResume => simp at hphase
  | xferCancel => simp at hphase

theorem Coherent.secretless (hs : s.Coherent) (hp : s.phase ≠ .logonProof) :
    s.exchange = none ∧ s.totpSecret = none := by
  refine ⟨?_, ?_⟩
  · exact Option.not_isSome_iff_eq_none.mp fun hx => hp (hs.exchange.mp hx)
  · exact Option.not_isSome_iff_eq_none.mp fun ht => hp (hs.totpSecret ht)

theorem Coherent.nonceless (hs : s.Coherent) (hp : s.phase ≠ .reconnectProof) : s.reconnectNonce = none :=
  Option.not_isSome_iff_eq_none.mp fun hn => hp (hs.reconnectNonce.mp hn)

theorem coherent_introduced (hs : s.Coherent) (hp : s.phase = .challenge) (svc : Service) (c : Challenge) :
    Coherent (introduced svc s c) := by
  obtain ⟨hx, ht⟩ := hs.secretless (by simp [hp])
  exact coherent_closed rfl hx (hs.nonceless (by simp [hp])) ht

theorem coherent_spent (hs : s.Coherent) (hp : s.phase = .logonProof) : Coherent (spent s) :=
  coherent_closed rfl rfl (hs.nonceless (by simp [hp])) rfl

theorem coherent_resumed (hs : s.Coherent) (hp : s.phase = .reconnectProof) : Coherent (resumed s) := by
  obtain ⟨hx, ht⟩ := hs.secretless (by simp [hp])
  exact coherent_closed rfl hx rfl ht

/-- Answering a frame keeps the secrets and the phase together, with a reply and without one. -/
theorem Answered.coherent (hs : s.Coherent) (h : Answered svc s frame c es o) : Coherent o.1 := by
  cases h with
  | logonChallenge hp h =>
    cases h with
    | malformed hd => exact hs
    | unknown hd hr => exact coherent_introduced hs hp svc _
    | refused hd hv => exact coherent_introduced hs hp svc _
    | unopened hd hv hs' ho => exact coherent_introduced hs hp svc _
    | unsupported hd hv ho hb =>
      exact coherent_closed rfl (hs.secretless (by simp [hp])).1 (hs.nonceless (by simp [hp])) rfl
    | offered hd hv ho hb privateKey =>
      have hn := hs.nonceless (by simp [hp])
      have hk := hs.keyless (.inl hp)
      constructor <;> simp [offered, introduced, introduce, hn, hk, hb]
  | reconnectChallenge hp h =>
    cases h with
    | malformed hd => exact hs
    | unknown hd hr => exact coherent_introduced hs hp svc _
    | refused hd hv => exact coherent_introduced hs hp svc _
    | unsupported hd hv hb => exact coherent_introduced hs hp svc _
    | keyless hd hv hb hk => exact coherent_introduced hs hp svc _
    | resuming hd hv hb hk nonce =>
      obtain ⟨hx, ht⟩ := hs.secretless (by simp [hp])
      constructor <;> simp [resuming, introduced, introduce, hx, ht, hb]
  | logonProof hp hx hm h =>
    cases h with
    | malformed hd => exact hs
    | wrongPassword hd hx hc => exact coherent_spent hs hp
    | halted hd hx hc => exact coherent_spent hs hp
    | unvouched hd hx hv => exact coherent_spent hs hp
    | unstored hd hx hv e => exact coherent_spent hs hp
    | accepted hd hx hv =>
      have hn := hs.nonceless (by simp [hp])
      have hb := (hs.member (.inl hp)).2
      constructor <;> simp [spent, hn, hm, hb]
  | reconnectProof hp hm hk hn h =>
    cases h with
    | malformed hd => exact hs
    | wrongProof hd hv => exact coherent_resumed hs hp
    | wrongVersion hd hv hw => exact coherent_resumed hs hp
    | accepted hd hv hw =>
      obtain ⟨hx, ht⟩ := hs.secretless (by simp [hp])
      have hb := (hs.member (.inr (.inl hp))).2
      constructor <;> simp [resumed, hx, ht, hm, hk, hb]
  | realmList hp hm h =>
    cases h with
    | listed r realms =>
      have he : { s with phase := .authed } = s := by rw [← hp]
      rw [he]
      exact hs

theorem Answered.keeps (hs : s.Coherent) (h : Answered svc s frame c es o) : s.Keeps o.1 := by
  cases h with
  | logonChallenge hp h =>
    have ha := hs.unknown hp
    have hk := hs.keyless (.inl hp)
    cases h <;> exact ⟨by simp [ha], by simp [hk]⟩
  | reconnectChallenge hp h =>
    have ha := hs.unknown hp
    have hk := hs.keyless (.inl hp)
    cases h <;> exact ⟨by simp [ha], by simp [hk]⟩
  | logonProof hp hx hm h =>
    have hk := hs.keyless (.inr hp)
    cases h <;> exact ⟨fun _ h => h, by simp [hk]⟩
  | reconnectProof hp hm hk hn h => cases h <;> exact ⟨fun _ h => h, fun _ h => h⟩
  | realmList hp hm h =>
    cases h with
    | listed r realms => exact ⟨fun _ h => h, fun _ h => h⟩

/-- A frame that is not answered has not logged the client on, and is no request for the realm list. -/
theorem Answered.unlisted {e : SessionError} (h : Answered svc s frame c es (s', .error e)) :
    s'.phase ≠ .authed ∧ c ≠ .realmList := by
  cases h with
  | logonChallenge hp h =>
    cases h with
    | malformed hd => exact ⟨by simp [hp], by decide⟩
  | reconnectChallenge hp h =>
    cases h with
    | malformed hd => exact ⟨by simp [hp], by decide⟩
  | logonProof hp hx hm h =>
    cases h with
    | malformed hd => exact ⟨by simp [hp], by decide⟩
    | halted hd hx hc => exact ⟨by simp [spent], by decide⟩
  | reconnectProof hp hm hk hn h =>
    cases h with
    | malformed hd => exact ⟨by simp [hp], by decide⟩
    | wrongProof hd hv => exact ⟨by simp [resumed], by decide⟩
  | realmList hp hm h => cases h

theorem Answered.session_of_error {e : SessionError} (h : Answered svc s frame c es (s', .error e)) :
    s' = s ∨ s'.phase = .closed := by
  cases h with
  | logonChallenge hp h =>
    cases h with
    | malformed hd => exact .inl rfl
  | reconnectChallenge hp h =>
    cases h with
    | malformed hd => exact .inl rfl
  | logonProof hp hx hm h =>
    cases h with
    | malformed hd => exact .inl rfl
    | halted hd hx hc hh => exact .inr rfl
  | reconnectProof hp hm hk hn h =>
    cases h with
    | malformed hd => exact .inl rfl
    | wrongProof hd hv => exact .inr rfl
  | realmList hp hm h => cases h

theorem Answered.unhalted {reply : Bytes} (h : Answered svc s frame c es (s', .ok reply)) : ¬Halted es := by
  cases h with
  | logonChallenge hp h => cases h <;> simp [Event.halts]
  | reconnectChallenge hp h => cases h <;> simp [Event.halts]
  | logonProof hp hx hm h =>
    cases h with
    | wrongPassword hd hx hc hh => exact hh
    | _ => simp [Event.halts]
  | reconnectProof hp hm hk hn h => exact not_halted_nil
  | realmList hp hm h =>
    cases h
    simp [Event.halts]

/-- Two questions are asked for a frame at most. -/
theorem Answered.length_le (h : Answered svc s frame c es o) : es.length ≤ 2 := by
  cases h with
  | logonChallenge hp h => cases h <;> simp
  | reconnectChallenge hp h => cases h <;> simp
  | logonProof hp hx hm h =>
    cases h with
    | wrongPassword hd hx hc => cases hc <;> simp
    | halted hd hx hc => cases hc <;> simp
    | _ => simp
  | reconnectProof hp hm hk hn h => simp
  | realmList hp hm h =>
    cases h
    simp

/-- A frame that is not answered is malformed or a wrong proof of a reconnect, for which nothing was asked, or it is the
proof at which the program stopped. -/
theorem Answered.fault {e : SessionError} (h : Answered svc s frame c es (s', .error e)) :
    es = [] ∧ ((∃ w, e = .wire w) ∨ ∃ login, e = .invalidReconnectProof login) ∨
      e = .overflow ∧ c = .logonProof ∧ Halted es := by
  cases h with
  | logonChallenge hp h =>
    cases h with
    | malformed hd => exact .inl ⟨rfl, .inl ⟨_, rfl⟩⟩
  | reconnectChallenge hp h =>
    cases h with
    | malformed hd => exact .inl ⟨rfl, .inl ⟨_, rfl⟩⟩
  | logonProof hp hx hm h =>
    cases h with
    | malformed hd => exact .inl ⟨rfl, .inl ⟨_, rfl⟩⟩
    | halted hd hx hc hh => exact .inr ⟨rfl, rfl, hh⟩
  | reconnectProof hp hm hk hn h =>
    cases h with
    | malformed hd => exact .inl ⟨rfl, .inl ⟨_, rfl⟩⟩
    | wrongProof hd hv => exact .inl ⟨rfl, .inr ⟨_, rfl⟩⟩
  | realmList hp hm h => cases h

end RealmLogon.Session
