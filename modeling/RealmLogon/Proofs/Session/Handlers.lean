import RealmLogon.Proofs.Session.Transcript
import RealmLogon.Session.Dispatch

/-! What each handler can do: one rule for every way in which it can end, with the questions that it asks,
the session that it leaves and the reply. A flow of the handler yields nothing else. -/

namespace RealmLogon.Session

open Exchange Text

/-- A session closes and keeps what its client tells. -/
def introduced (svc : Service) (s : Session) (c : Challenge) : Session :=
  { s with phase := .closed }.introduce svc.builds c

@[simp] theorem introduced_expansion (svc : Service) (s : Session) (c : Challenge) :
    (introduced svc s c).expansion = svc.builds.expansion c.build := rfl
@[simp] theorem introduced_peer (svc : Service) (s : Session) (c : Challenge) :
    (introduced svc s c).peer = s.peer := rfl

abbrev lookup (c : Challenge) : Directory.Call := .fetchByLogin (Latin.upper c.login)

/-- The secret of an account opens; an account may have none. -/
inductive Opens (svc : Service) (a : Account) : Option Bytes → Prop
  | absent (h : a.totpSecret = none) : Opens svc a none
  | opened {stored secret : Bytes} (h : a.totpSecret = some stored)
      (ho : StoredSecret.reveal svc.masterKey stored = .ok secret) : Opens svc a (some secret)

def flagsFor (secret : Option Bytes) : UInt8 := if secret.isSome then SecurityFlag.authenticator else 0

def exchangeFor (a : Account) (privateKey : Key) : Server := Server.start a.login a.salt a.verifier privateKey

def offerFor (x : Server) (secret : Option Bytes) : ChallengeReply :=
  .offer ⟨x.publicKey, generator, primeBytes, x.salt, versionChallenge, flagsFor secret⟩

def offered (svc : Service) (s : Session) (c : Challenge) (a : Account) (secret : Option Bytes)
    (x : Server) : Session :=
  { introduced svc s c with
    totpSecret := secret, exchange := some x, account := some a.member, phase := .logonProof }

inductive LogonChallenged (svc : Service) (s : Session) (frame : Bytes) : List Event → Outcome → Prop
  | malformed {e : WireError} (hd : Challenge.decode frame = .error e) :
      LogonChallenged svc s frame [] (s, .error (.wire e))
  | unknown {c : Challenge} (hd : Challenge.decode frame = .ok c)
      {r : Except DirectoryError (Option Account)} (hr : r.toOption.join = none) :
      LogonChallenged svc s frame [.called (lookup c) r]
        (introduced svc s c, .ok (ChallengeReply.failure .unknownAccount).encode)
  | refused {c : Challenge} (hd : Challenge.decode frame = .ok c) {a : Account} {v : Verdict}
      (hv : refusal? svc.geoip s.peer.ip a = some v) :
      LogonChallenged svc s frame [.called (lookup c) (.ok (some a))]
        (introduced svc s c, .ok (ChallengeReply.failure v).encode)
  | unopened {c : Challenge} (hd : Challenge.decode frame = .ok c) {a : Account}
      (hv : refusal? svc.geoip s.peer.ip a = none) {stored : Bytes} (hs : a.totpSecret = some stored)
      {e : Sealed.Error} (ho : StoredSecret.reveal svc.masterKey stored = .error e) :
      LogonChallenged svc s frame [.called (lookup c) (.ok (some a))]
        (introduced svc s c, .ok (ChallengeReply.failure .dbBusy).encode)
  | unsupported {c : Challenge} (hd : Challenge.decode frame = .ok c) {a : Account}
      (hv : refusal? svc.geoip s.peer.ip a = none) {secret : Option Bytes} (ho : Opens svc a secret)
      (hb : (svc.builds.expansion c.build).isValid = false) :
      LogonChallenged svc s frame [.called (lookup c) (.ok (some a))]
        ({ introduced svc s c with totpSecret := none }, .ok (ChallengeReply.failure .versionInvalid).encode)
  | offered {c : Challenge} (hd : Challenge.decode frame = .ok c) {a : Account}
      (hv : refusal? svc.geoip s.peer.ip a = none) {secret : Option Bytes} (ho : Opens svc a secret)
      (hb : (svc.builds.expansion c.build).isValid = true) (privateKey : Key) :
      LogonChallenged svc s frame
        [.called (lookup c) (.ok (some a)), .asked (.draw 32) privateKey]
        (offered svc s c a secret (exchangeFor a privateKey),
          .ok (offerFor (exchangeFor a privateKey) secret).encode)

def resuming (svc : Service) (s : Session) (c : Challenge) (a : Account) (key : SessionKey)
    (nonce : Nonce) : Session :=
  { introduced svc s c with
    sessionKey := some key, reconnectNonce := some nonce, account := some a.member, phase := .reconnectProof }

inductive ReconnectChallenged (svc : Service) (s : Session) (frame : Bytes) : List Event → Outcome → Prop
  | malformed {e : WireError} (hd : Challenge.decode frame = .error e) :
      ReconnectChallenged svc s frame [] (s, .error (.wire e))
  | unknown {c : Challenge} (hd : Challenge.decode frame = .ok c)
      {r : Except DirectoryError (Option Account)} (hr : r.toOption.join = none) :
      ReconnectChallenged svc s frame [.called (lookup c) r]
        (introduced svc s c, .ok (ReconnectChallengeReply.failure .unknownAccount).encode)
  | refused {c : Challenge} (hd : Challenge.decode frame = .ok c) {a : Account} {v : Verdict}
      (hv : refusal? svc.geoip s.peer.ip a = some v) :
      ReconnectChallenged svc s frame [.called (lookup c) (.ok (some a))]
        (introduced svc s c, .ok (ReconnectChallengeReply.failure v).encode)
  | unsupported {c : Challenge} (hd : Challenge.decode frame = .ok c) {a : Account}
      (hv : refusal? svc.geoip s.peer.ip a = none) (hb : (svc.builds.expansion c.build).isValid = false) :
      ReconnectChallenged svc s frame [.called (lookup c) (.ok (some a))]
        (introduced svc s c, .ok (ReconnectChallengeReply.failure .versionInvalid).encode)
  | keyless {c : Challenge} (hd : Challenge.decode frame = .ok c) {a : Account}
      (hv : refusal? svc.geoip s.peer.ip a = none) (hb : (svc.builds.expansion c.build).isValid = true)
      (hk : a.sessionKey = none) :
      ReconnectChallenged svc s frame [.called (lookup c) (.ok (some a))]
        (introduced svc s c, .ok (ReconnectChallengeReply.failure .unknownAccount).encode)
  | resuming {c : Challenge} (hd : Challenge.decode frame = .ok c) {a : Account}
      (hv : refusal? svc.geoip s.peer.ip a = none) (hb : (svc.builds.expansion c.build).isValid = true)
      {key : SessionKey} (hk : a.sessionKey = some key) (nonce : Nonce) :
      ReconnectChallenged svc s frame
        [.called (lookup c) (.ok (some a)), .asked (.draw 16) nonce]
        (resuming svc s c a key nonce, .ok (ReconnectChallengeReply.nonce nonce versionChallenge).encode)

def spent (s : Session) : Session := { s with phase := .closed, exchange := none, totpSecret := none }

/-- What a wrong password leads to: it is counted if the policy bans for it, and too many are a ban. -/
inductive PasswordCounted (svc : Service) (m : Member) (ip : Address) : List Event → Prop
  | uncounted (hm : svc.policy.maxWrongPasswords = 0) : PasswordCounted svc m ip []
  | uncountable (hm : svc.policy.maxWrongPasswords ≠ 0) (e : DirectoryError) :
      PasswordCounted svc m ip [.called (.recordFailedLogin m.login) (.error e)]
  | counted (hm : svc.policy.maxWrongPasswords ≠ 0) {n : UInt32}
      (hn : n.toNat < svc.policy.maxWrongPasswords) :
      PasswordCounted svc m ip [.called (.recordFailedLogin m.login) (.ok n)]
  | banned (hm : svc.policy.maxWrongPasswords ≠ 0) {n : UInt32}
      (hn : ¬n.toNat < svc.policy.maxWrongPasswords) (r : Except DirectoryError Unit) :
      PasswordCounted svc m ip [.called (.recordFailedLogin m.login) (.ok n),
        .called (.autoBan (banTarget svc.policy m ip) svc.policy.banTime) r]

/-- The program has stopped before all these events were dealt with. -/
def Halted (es : List Event) : Prop := ∃ e ∈ es, e.halts = true

instance (es : List Event) : Decidable (Halted es) := inferInstanceAs (Decidable (∃ e ∈ es, e.halts = true))

@[simp] theorem not_halted_nil : ¬Halted [] := by simp [Halted]

@[simp] theorem halted_cons_iff {e : Event} {es : List Event} : Halted (e :: es) ↔ e.halts = true ∨ Halted es := by
  simp [Halted]

@[simp] theorem halted_append_iff {es ds : List Event} : Halted (es ++ ds) ↔ Halted es ∨ Halted ds := by
  simp [Halted, or_and_right, exists_or]

theorem Halted.mono {es ds : List Event} (h : Halted es) (hs : es ⊆ ds) : Halted ds := by
  obtain ⟨e, he, hh⟩ := h
  exact ⟨e, hs he, hh⟩

theorem PasswordCounted.ban_of_halted {svc : Service} {m : Member} {ip : Address} {es : List Event}
    (h : PasswordCounted svc m ip es) (hh : Halted es) : ∃ r : Except DirectoryError Unit,
      .called (.autoBan (banTarget svc.policy m ip) svc.policy.banTime) r ∈ es ∧ DirectoryError.halts r = true := by
  cases h with
  | banned hm hn r =>
    refine ⟨r, by simp, ?_⟩
    simpa [Event.halts] using hh
  | _ => simp [Event.halts] at hh

/-- The token of a proof and its proof of the executable hold. -/
def Vouched (svc : Service) (s : Session) (p : LogonProof) (now : Int) : Prop :=
  tokenHolds s.totpSecret p.token now = true ∧
    versionHolds svc.policy (svc.builds.executableHash? s.build s.os) p.clientKey.toList p.versionProof = true

/-- What the proof of an exchange leads to. -/
inductive LogonProved (svc : Service) (s : Session) (x : Server) (m : Member) (frame : Bytes) :
    List Event → Outcome → Prop
  | malformed {e : WireError} (hd : LogonProof.decode frame = .error e) :
      LogonProved svc s x m frame [] (s, .error (.wire e))
  | wrongPassword {p : LogonProof} (hd : LogonProof.decode frame = .ok p)
      (hx : x.accept p.clientKey p.proof = none) {es : List Event} (hc : PasswordCounted svc m s.peer.ip es)
      (hh : ¬Halted es) : LogonProved svc s x m frame es (spent s, .ok refusedProof)
  | halted {p : LogonProof} (hd : LogonProof.decode frame = .ok p)
      (hx : x.accept p.clientKey p.proof = none) {es : List Event} (hc : PasswordCounted svc m s.peer.ip es)
      (hh : Halted es) : LogonProved svc s x m frame es (spent s, .error .overflow)
  | unvouched {p : LogonProof} (hd : LogonProof.decode frame = .ok p) {key : SessionKey}
      (hx : x.accept p.clientKey p.proof = some key) {now : Int} (hp : ¬Vouched svc s p now) :
      LogonProved svc s x m frame [.asked .now now] (spent s, .ok refusedProof)
  | unstored {p : LogonProof} (hd : LogonProof.decode frame = .ok p) {key : SessionKey}
      (hx : x.accept p.clientKey p.proof = some key) {now : Int} (hp : Vouched svc s p now)
      (e : DirectoryError) :
      LogonProved svc s x m frame
        [.asked .now now, .called (.persistLogon (s.record m key)) (.error e)]
        (spent s, .ok (LogonProofReply.failure .dbBusy).encode)
  | accepted {p : LogonProof} (hd : LogonProof.decode frame = .ok p) {key : SessionKey}
      (hx : x.accept p.clientKey p.proof = some key) {now : Int} (hp : Vouched svc s p now) :
      LogonProved svc s x m frame
        [.asked .now now, .called (.persistLogon (s.record m key)) (.ok ())]
        ({ spent s with sessionKey := some key, phase := .authed },
          .ok (acceptance s.expansion (serverProof p.clientKey p.proof key)).encode)

theorem LogonProved.counted_of_halted {svc : Service} {s : Session} {x : Server} {m : Member} {frame : Bytes}
    {es : List Event} {o : Outcome} (h : LogonProved svc s x m frame es o) (hh : Halted es) :
    PasswordCounted svc m s.peer.ip es := by
  cases h with
  | wrongPassword hd hx hc hn => exact hc
  | halted hd hx hc hn => exact hc
  | _ => simp [Event.halts] at hh

def resumed (s : Session) : Session := { s with phase := .closed, reconnectNonce := none }

/-- What the proof of a reconnect leads to; it asks nothing. -/
inductive ReconnectProved (svc : Service) (s : Session) (m : Member) (key : SessionKey) (nonce : Nonce)
    (frame : Bytes) : Outcome → Prop
  | malformed {e : WireError} (hd : ReconnectProof.decode frame = .error e) :
      ReconnectProved svc s m key nonce frame (s, .error (.wire e))
  | wrongProof {p : ReconnectProof} (hd : ReconnectProof.decode frame = .ok p)
      (hp : Exchange.reconnectProof m.login p.clientRandom nonce key ≠ p.proof) :
      ReconnectProved svc s m key nonce frame (resumed s, .error (.invalidReconnectProof m.login))
  | wrongVersion {p : ReconnectProof} (hd : ReconnectProof.decode frame = .ok p)
      (hp : Exchange.reconnectProof m.login p.clientRandom nonce key = p.proof)
      (hv : versionHolds svc.policy (some (.zero 20)) p.clientRandom.toList p.versionProof = false) :
      ReconnectProved svc s m key nonce frame
        (resumed s, .ok (ReconnectProofReply.failure .versionInvalid).encode)
  | accepted {p : ReconnectProof} (hd : ReconnectProof.decode frame = .ok p)
      (hp : Exchange.reconnectProof m.login p.clientRandom nonce key = p.proof)
      (hv : versionHolds svc.policy (some (.zero 20)) p.clientRandom.toList p.versionProof = true) :
      ReconnectProved svc s m key nonce frame
        ({ resumed s with phase := .authed }, .ok ReconnectProofReply.success.encode)

inductive Listed (svc : Service) (s : Session) (m : Member) : List Event → Outcome → Prop
  | listed (r : Except DirectoryError CharacterCounts) (realms : List Realm) :
      Listed svc s m [.called (.countsByAccount m.id) r, .asked .realms realms]
        ({ s with phase := .authed }, .ok (RealmList.encode s.expansion
          (Announcement.entries svc.builds (s.audience m) (r.toOption.getD []) realms)))

theorem lookup_cases (r : Except DirectoryError (Option Account)) :
    r.toOption.join = none ∨ ∃ a, r = .ok (some a) := by
  cases r with
  | error e => exact .inl rfl
  | ok o =>
    cases o with
    | none => exact .inl rfl
    | some a => exact .inr ⟨a, rfl⟩

theorem yields_reply_iff {s : Session} {b : Bytes} {es : List Event} {o : Outcome} :
    (s.reply b).Yields es o ↔ es = [] ∧ o = (s, .ok b) := Flow.yields_done_iff

theorem yields_fail_iff {s : Session} {e : SessionError} {es : List Event} {o : Outcome} :
    (s.fail e).Yields es o ↔ es = [] ∧ o = (s, .error e) := Flow.yields_done_iff

theorem yields_withAccount_iff {login : String} {k : Option Account → Flow Outcome} {es : List Event}
    {o : Outcome} :
    (withAccount login k).Yields es o ↔
      ∃ (r : Except DirectoryError (Option Account)) (ds : List Event),
        es = .called (.fetchByLogin login) r :: ds ∧ (k r.toOption.join).Yields ds o :=
  Flow.yields_ask_iff

theorem yields_offer {svc : Service} {s : Session} {c : Challenge} {a : Account} (secret : Option Bytes)
    {es : List Event} {o : Outcome}
    (h : (offer { introduced svc s c with totpSecret := secret } a (flagsFor secret)).Yields es o) :
    ∃ privateKey : Key, es = [.asked (.draw 32) privateKey] ∧
      o = (offered svc s c a secret (exchangeFor a privateKey),
        .ok (offerFor (exchangeFor a privateKey) secret).encode) := by
  obtain ⟨privateKey, ds, rfl, hk⟩ := Flow.yields_ask_iff.mp h
  obtain ⟨rfl, rfl⟩ := yields_reply_iff.mp hk
  exact ⟨privateKey, rfl, rfl⟩

theorem introduced_eq {svc : Service} {s : Session} (hs : s.totpSecret = none) (c : Challenge) :
    { introduced svc s c with totpSecret := none } = introduced svc s c := by
  simp [introduced, introduce, hs]

/-- An account without a lock and without a ban is offered an exchange, unless its secret does not open or the
build is of no accepted generation. -/
theorem logonChallenged_of_offerOrRefuse {svc : Service} {s : Session} (hs : s.totpSecret = none)
    {frame : Bytes} {c : Challenge} (hd : Challenge.decode frame = .ok c) {a : Account}
    (hv : refusal? svc.geoip s.peer.ip a = none) {es : List Event} {o : Outcome}
    (h : (offerOrRefuse svc (introduced svc s c) a).Yields es o) :
    LogonChallenged svc s frame (.called (lookup c) (.ok (some a)) :: es) o := by
  have hvalid : (introduced svc s c).expansion = svc.builds.expansion c.build := rfl
  cases ht : a.totpSecret with
  | none =>
    have ho : Opens svc a none := .absent ht
    simp only [offerOrRefuse, ht] at h
    by_cases hb : (introduced svc s c).expansion.isValid = true
    · rw [if_pos hb, ← introduced_eq hs] at h
      obtain ⟨privateKey, rfl, rfl⟩ := yields_offer none h
      exact .offered hd hv ho (hvalid ▸ hb) privateKey
    · rw [if_neg hb] at h
      obtain ⟨rfl, rfl⟩ := yields_reply_iff.mp h
      exact .unsupported hd hv ho (by simpa [hvalid] using hb)
  | some stored =>
    cases hr : StoredSecret.reveal svc.masterKey stored with
    | error e =>
      simp only [offerOrRefuse, ht, hr] at h
      obtain ⟨rfl, rfl⟩ := yields_reply_iff.mp h
      exact .unopened hd hv ht hr
    | ok secret =>
      have ho : Opens svc a (some secret) := .opened ht hr
      simp only [offerOrRefuse, ht, hr] at h
      by_cases hb : (introduced svc s c).expansion.isValid = true
      · rw [if_pos hb] at h
        obtain ⟨privateKey, rfl, rfl⟩ := yields_offer (some secret) h
        exact .offered hd hv ho (hvalid ▸ hb) privateKey
      · rw [if_neg hb] at h
        obtain ⟨rfl, rfl⟩ := yields_reply_iff.mp h
        exact .unsupported hd hv ho (by simpa [hvalid] using hb)

/-- The answer to a logon challenge, once the directory has told the account. -/
def logonOf (svc : Service) (s : Session) (c : Challenge) : Option Account → Flow Outcome
  | none => (introduced svc s c).reply (ChallengeReply.failure .unknownAccount).encode
  | some a =>
    match refusal? svc.geoip s.peer.ip a with
    | some v => (introduced svc s c).reply (ChallengeReply.failure v).encode
    | none => offerOrRefuse svc (introduced svc s c) a

theorem logonChallenge_eq {svc : Service} {s : Session} {frame : Bytes} {c : Challenge}
    (hd : Challenge.decode frame = .ok c) :
    logonChallenge svc s frame = withAccount (Latin.upper c.login) (logonOf svc s c) := by
  simp only [logonChallenge, hd]
  rfl

theorem logonChallenged_of_yields {svc : Service} {s : Session} (hs : s.totpSecret = none) {frame : Bytes}
    {es : List Event} {o : Outcome} (h : (logonChallenge svc s frame).Yields es o) :
    LogonChallenged svc s frame es o := by
  cases hd : Challenge.decode frame with
  | error e =>
    simp only [logonChallenge, hd] at h
    obtain ⟨rfl, rfl⟩ := yields_fail_iff.mp h
    exact .malformed hd
  | ok c =>
    rw [logonChallenge_eq hd] at h
    obtain ⟨r, ds, rfl, hk⟩ := yields_withAccount_iff.mp h
    rcases lookup_cases r with hr | ⟨a, rfl⟩
    · rw [hr] at hk
      obtain ⟨rfl, rfl⟩ := yields_reply_iff.mp hk
      exact .unknown hd hr
    · change (logonOf svc s c (some a)).Yields ds o at hk
      cases hv : refusal? svc.geoip s.peer.ip a with
      | some v =>
        simp only [logonOf, hv] at hk
        obtain ⟨rfl, rfl⟩ := yields_reply_iff.mp hk
        exact .refused hd hv
      | none =>
        simp only [logonOf, hv] at hk
        exact logonChallenged_of_offerOrRefuse hs hd hv hk

def reconnectOf (svc : Service) (s : Session) (c : Challenge) : Option Account → Flow Outcome
  | none => (introduced svc s c).reply (ReconnectChallengeReply.failure .unknownAccount).encode
  | some a =>
    match refusal? svc.geoip s.peer.ip a with
    | some v => (introduced svc s c).reply (ReconnectChallengeReply.failure v).encode
    | none =>
      if (introduced svc s c).expansion.isValid then
        match a.sessionKey with
        | none => (introduced svc s c).reply (ReconnectChallengeReply.failure .unknownAccount).encode
        | some key =>
          .ask (.draw 16) fun (nonce : Nonce) =>
            (resuming svc s c a key nonce).reply (ReconnectChallengeReply.nonce nonce versionChallenge).encode
      else (introduced svc s c).reply (ReconnectChallengeReply.failure .versionInvalid).encode

theorem reconnectChallenge_eq {svc : Service} {s : Session} {frame : Bytes} {c : Challenge}
    (hd : Challenge.decode frame = .ok c) :
    reconnectChallenge svc s frame = withAccount (Latin.upper c.login) (reconnectOf svc s c) := by
  simp only [reconnectChallenge, hd]
  rfl

theorem reconnectChallenged_of_yields {svc : Service} {s : Session} {frame : Bytes} {es : List Event}
    {o : Outcome} (h : (reconnectChallenge svc s frame).Yields es o) :
    ReconnectChallenged svc s frame es o := by
  cases hd : Challenge.decode frame with
  | error e =>
    simp only [reconnectChallenge, hd] at h
    obtain ⟨rfl, rfl⟩ := yields_fail_iff.mp h
    exact .malformed hd
  | ok c =>
    rw [reconnectChallenge_eq hd] at h
    obtain ⟨r, ds, rfl, hk⟩ := yields_withAccount_iff.mp h
    rcases lookup_cases r with hr | ⟨a, rfl⟩
    · rw [hr] at hk
      obtain ⟨rfl, rfl⟩ := yields_reply_iff.mp hk
      exact .unknown hd hr
    · change (reconnectOf svc s c (some a)).Yields ds o at hk
      cases hv : refusal? svc.geoip s.peer.ip a with
      | some v =>
        simp only [reconnectOf, hv] at hk
        obtain ⟨rfl, rfl⟩ := yields_reply_iff.mp hk
        exact .refused hd hv
      | none =>
        simp only [reconnectOf, hv] at hk
        by_cases hb : (introduced svc s c).expansion.isValid = true
        · rw [if_pos hb] at hk
          cases hkey : a.sessionKey with
          | none =>
            simp only [hkey] at hk
            obtain ⟨rfl, rfl⟩ := yields_reply_iff.mp hk
            exact .keyless hd hv hb hkey
          | some key =>
            simp only [hkey] at hk
            obtain ⟨nonce, ds, rfl, hn⟩ := Flow.yields_ask_iff.mp hk
            obtain ⟨rfl, rfl⟩ := yields_reply_iff.mp hn
            exact .resuming hd hv hb hkey nonce
        · rw [if_neg hb] at hk
          obtain ⟨rfl, rfl⟩ := yields_reply_iff.mp hk
          exact .unsupported hd hv (by simpa using hb)

/-- A wrong password is counted, and refused unless the program has stopped. -/
theorem passwordCounted_of_yields {svc : Service} {s : Session} {m : Member} {es : List Event} {o : Outcome}
    (h : (refusePassword svc s m).Yields es o) :
    PasswordCounted svc m s.peer.ip es ∧
      (¬Halted es ∧ o = (s, .ok refusedProof) ∨ Halted es ∧ o = (s, .error .overflow)) := by
  rw [refusePassword] at h
  by_cases hm : svc.policy.maxWrongPasswords = 0
  · rw [if_pos hm] at h
    obtain ⟨rfl, rfl⟩ := yields_reply_iff.mp h
    exact ⟨.uncounted hm, .inl ⟨not_halted_nil, rfl⟩⟩
  · rw [if_neg hm] at h
    obtain ⟨r, ds, rfl, hk⟩ := Flow.yields_ask_iff.mp h
    cases r with
    | error e =>
      obtain ⟨rfl, rfl⟩ := yields_reply_iff.mp hk
      exact ⟨.uncountable hm e, .inl ⟨by simp [Event.halts], rfl⟩⟩
    | ok n =>
      change UInt32 at n
      change (if n.toNat < svc.policy.maxWrongPasswords then _ else _ : Flow Outcome).Yields ds o at hk
      by_cases hn : n.toNat < svc.policy.maxWrongPasswords
      · rw [if_pos hn] at hk
        obtain ⟨rfl, rfl⟩ := yields_reply_iff.mp hk
        exact ⟨.counted hm hn, .inl ⟨by simp [Event.halts], rfl⟩⟩
      · rw [if_neg hn] at hk
        obtain ⟨r, ds, rfl, hb⟩ := Flow.yields_ask_iff.mp hk
        change (if DirectoryError.halts r then _ else _ : Flow Outcome).Yields ds o at hb
        by_cases hr : DirectoryError.halts r = true
        · rw [if_pos hr] at hb
          obtain ⟨rfl, rfl⟩ := yields_fail_iff.mp hb
          exact ⟨.banned hm hn r, .inr ⟨⟨_, List.mem_cons_of_mem _ List.mem_cons_self, hr⟩, rfl⟩⟩
        · rw [if_neg hr] at hb
          obtain ⟨rfl, rfl⟩ := yields_reply_iff.mp hb
          refine ⟨.banned hm hn r, .inl ⟨?_, rfl⟩⟩
          rintro ⟨e, _ | ⟨_, _ | ⟨_, he⟩⟩, hhalts⟩
          · cases hhalts
          · exact hr hhalts
          · cases he

theorem logonProof_eq {svc : Service} {s : Session} (hb : s.expansion.isValid = true) {x : Server}
    (hs : s.exchange = some x) {m : Member} (hm : s.account = some m) {frame : Bytes} {p : LogonProof}
    (hd : LogonProof.decode frame = .ok p) :
    logonProof svc s frame = checkProof svc (spent s) x m s.totpSecret p := by
  simp only [logonProof, hd, hb, hs, hm, if_true, spent]

theorem logonProved_of_yields {svc : Service} {s : Session} {x : Server} {m : Member}
    (hb : s.expansion.isValid = true) (hs : s.exchange = some x) (hm : s.account = some m) {frame : Bytes}
    {es : List Event} {o : Outcome} (h : (logonProof svc s frame).Yields es o) :
    LogonProved svc s x m frame es o := by
  cases hd : LogonProof.decode frame with
  | error e =>
    simp only [logonProof, hd] at h
    obtain ⟨rfl, rfl⟩ := yields_fail_iff.mp h
    exact .malformed hd
  | ok p =>
    rw [logonProof_eq hb hs hm hd, checkProof] at h
    cases hx : x.accept p.clientKey p.proof with
    | none =>
      simp only [hx] at h
      obtain ⟨hc, ⟨hh, rfl⟩ | ⟨hh, rfl⟩⟩ := passwordCounted_of_yields h
      · exact .wrongPassword hd hx hc hh
      · exact .halted hd hx hc hh
    | some key =>
      simp only [hx] at h
      obtain ⟨now, ds, rfl, hk⟩ := Flow.yields_ask_iff.mp h
      change Int at now
      change (if tokenHolds s.totpSecret p.token now &&
          versionHolds svc.policy (svc.builds.executableHash? s.build s.os) p.clientKey.toList p.versionProof
        then _ else _ : Flow Outcome).Yields ds o at hk
      by_cases hv : Vouched svc s p now
      · rw [if_pos (Bool.and_eq_true_iff.mpr hv)] at hk
        obtain ⟨r, ds, rfl, hr⟩ := Flow.yields_ask_iff.mp hk
        cases r with
        | error e =>
          obtain ⟨rfl, rfl⟩ := yields_reply_iff.mp hr
          exact .unstored hd hx hv e
        | ok u =>
          obtain ⟨rfl, rfl⟩ := yields_reply_iff.mp hr
          exact .accepted hd hx hv
      · rw [if_neg fun hb => hv (Bool.and_eq_true_iff.mp hb)] at hk
        obtain ⟨rfl, rfl⟩ := yields_reply_iff.mp hk
        exact .unvouched hd hx hv

theorem reconnectProved_of_yields {svc : Service} {s : Session} {m : Member} {key : SessionKey}
    {nonce : Nonce} (hm : s.account = some m) (hk : s.sessionKey = some key)
    (hn : s.reconnectNonce = some nonce) {frame : Bytes} {es : List Event} {o : Outcome}
    (h : (Session.reconnectProof svc s frame).Yields es o) :
    es = [] ∧ ReconnectProved svc s m key nonce frame o := by
  cases hd : ReconnectProof.decode frame with
  | error e =>
    simp only [Session.reconnectProof, hd] at h
    obtain ⟨rfl, rfl⟩ := yields_fail_iff.mp h
    exact ⟨rfl, .malformed hd⟩
  | ok p =>
    have hs (phase : Phase) :
        { s with phase := phase, account := some m, sessionKey := some key, reconnectNonce := none } =
          { resumed s with phase := phase } := by
      simp only [resumed, hm, hk]
    simp only [Session.reconnectProof, hd, hm, hk, hn] at h
    by_cases hp : Exchange.reconnectProof m.login p.clientRandom nonce key = p.proof
    · rw [if_pos hp] at h
      by_cases hv : versionHolds svc.policy (some (.zero 20)) p.clientRandom.toList p.versionProof = true
      · rw [if_pos hv] at h
        obtain ⟨rfl, rfl⟩ := yields_reply_iff.mp h
        rw [hs]
        exact ⟨rfl, .accepted hd hp hv⟩
      · rw [if_neg hv] at h
        obtain ⟨rfl, rfl⟩ := yields_reply_iff.mp h
        rw [hs]
        exact ⟨rfl, .wrongVersion hd hp (by simpa using hv)⟩
    · rw [if_neg hp] at h
      obtain ⟨rfl, rfl⟩ := yields_fail_iff.mp h
      rw [hs]
      exact ⟨rfl, .wrongProof hd hp⟩

theorem listed_of_yields {svc : Service} {s : Session} {m : Member} (hm : s.account = some m)
    {es : List Event} {o : Outcome} (h : (realmList svc s).Yields es o) : Listed svc s m es o := by
  simp only [realmList, hm] at h
  obtain ⟨r, ds, rfl, hk⟩ := Flow.yields_ask_iff.mp h
  obtain ⟨realms, ds, rfl, hr⟩ := Flow.yields_ask_iff.mp hk
  obtain ⟨rfl, rfl⟩ := yields_reply_iff.mp hr
  have hs : { s with phase := .authed, account := some m } = { s with phase := .authed } := by
    simp only [hm]
  rw [hs]
  exact .listed r realms

end RealmLogon.Session
