import RealmLogon.Proofs.Session.Answers
import RealmLogon.Proofs.Wire.Inversion

/-! The two challenges side by side. A logon and a reconnect with the same fields, asked in the same world, learn the
same account and judge it by one policy: whatever lock or ban the one is told, the other is told too. -/

namespace RealmLogon

namespace Challenge

variable {fields : Bytes} {c : Challenge} {k k' : Command}

/-- The opcode says which challenge it is, and all other fields are read alike. -/
theorem decode_reopened (hk : IsOpening k') (h : decode (k.code :: fields) = .ok c) :
    decode (k'.code :: fields) = .ok { c with command := k' } := by
  obtain ⟨rest, hr⟩ := Reader.decode_eq_ok h
  obtain ⟨-, hlogin, he⟩ := read_eq_ok hr
  have htakes : Reader.Takes read { c with command := k' }.encode { c with command := k' } := takes_encode hk hlogin
  have htail : fields = { c with command := k' }.encode.tail ++ rest := (List.cons.inj he).2
  have hread : read (k'.code :: fields) = .ok ({ c with command := k' }, rest) := by
    rw [htail]
    exact htakes rest
  rw [decode, Reader.decode, StateT.run, hread]
  rfl

theorem decode_cases (fields : Bytes) :
    (∃ c : Challenge, decode (Command.logonChallenge.code :: fields) = .ok { c with command := .logonChallenge } ∧
      decode (Command.reconnectChallenge.code :: fields) = .ok { c with command := .reconnectChallenge }) ∨
    ∃ e e', decode (Command.logonChallenge.code :: fields) = .error e ∧
      decode (Command.reconnectChallenge.code :: fields) = .error e' := by
  cases hl : decode (Command.logonChallenge.code :: fields) with
  | ok c =>
    refine .inl ⟨c, ?_, decode_reopened (.inr rfl) hl⟩
    rw [← hl]
    exact decode_reopened (.inl rfl) hl
  | error e =>
    cases hr : decode (Command.reconnectChallenge.code :: fields) with
    | ok c =>
      have hl' := decode_reopened (.inl rfl) hr
      rw [hl] at hl'
      cases hl'
    | error e' => exact .inr ⟨e, e', rfl, rfl⟩

end Challenge

theorem Verdict.code_injective {v v' : Verdict} (h : v.code = v'.code) : v = v' := by
  have hv := congrArg Verdict.ofCode? h
  rw [ofCode?_code, ofCode?_code] at hv
  exact Option.some.inj hv

theorem challengeFailure_injective {k : Command} {v v' : Verdict}
    (h : challengeFailure k v = challengeFailure k v') : v = v' := by
  refine Verdict.code_injective ?_
  unfold challengeFailure at h
  split at h
  · simpa using h
  · simpa using h

namespace Session

open Text

/-- What a session knows of its client. -/
structure ClientDescription where
  build : UInt16
  expansion : Expansion
  locale : UInt8
  os : String
  platform : String
  timezoneOffset : Int
  deriving DecidableEq

def description (s : Session) : ClientDescription :=
  ⟨s.build, s.expansion, s.locale, s.os, s.platform, s.timezoneOffset⟩

/-- The challenge is answered with a verdict, and the session closes. -/
def Refuses (k : Command) (v : Verdict) (o : Outcome) : Prop :=
  o.1.phase = .closed ∧ o.2 = .ok (challengeFailure k v)

def Advances (phase : Phase) (o : Outcome) : Prop := o.1.phase = phase ∧ ∃ reply, o.2 = .ok reply

def policyVerdicts : List Verdict := [.banned, .suspended, .lockedEnforced, .unlockableLock]

variable {svc : Service} {s : Session} {w : World} {c : Challenge} {a : Account} {o : Outcome} {v v' : Verdict}
  {k : Command} {fields : Bytes}

theorem Refuses.unique (h : Refuses k v o) (h' : Refuses k v' o) : v = v' :=
  challengeFailure_injective (Except.ok.inj (h.2.symm.trans h'.2))

theorem Refuses.not_advances {phase : Phase} (h : Refuses k v o) (hp : phase ≠ .closed) : ¬Advances phase o :=
  fun ha => hp (ha.1.symm.trans h.1)

theorem mem_policyVerdicts {geoip : GeoIp} {ip : Address} (h : refusal? geoip ip a = some v) :
    v ∈ policyVerdicts := by
  unfold refusal? at h
  cases hl : lock? geoip ip a with
  | some u =>
    simp only [hl, Option.some.injEq] at h
    subst h
    unfold lock? at hl
    repeat' split at hl
    all_goals simp_all [policyVerdicts]
  | none =>
    simp only [hl] at h
    unfold ban? at h
    repeat' split at h
    all_goals simp_all [policyVerdicts]

/-- The account of a challenge has a secret that does not open. -/
def Unopened (svc : Service) (w : World) (c : Challenge) : Prop :=
  ∃ (a : Account) (stored : Bytes) (e : Sealed.Error), (w.call (lookup c)).1 = .ok (some a) ∧
    a.totpSecret = some stored ∧ StoredSecret.reveal svc.masterKey stored = .error e

/-- How a logon and a reconnect with the same fields end. -/
inductive Twins (svc : Service) (w : World) (c : Challenge) : Outcome → Outcome → Prop
  | unknown {l r : Outcome} (hl : Refuses .logonChallenge .unknownAccount l)
      (hr : Refuses .reconnectChallenge .unknownAccount r) : Twins svc w c l r
  | refused {v : Verdict} (hv : v ∈ policyVerdicts) {l r : Outcome} (hl : Refuses .logonChallenge v l)
      (hr : Refuses .reconnectChallenge v r) : Twins svc w c l r
  | unsupported {l r : Outcome} (hl : Refuses .logonChallenge .versionInvalid l)
      (hr : Refuses .reconnectChallenge .versionInvalid r) : Twins svc w c l r
  /-- Only a logon needs the secret, and it looks at it before it looks at the build. -/
  | unopened (hu : Unopened svc w c) {l r : Outcome} (hl : Refuses .logonChallenge .dbBusy l)
      (hr : Refuses .reconnectChallenge .versionInvalid r ∨ Refuses .reconnectChallenge .unknownAccount r ∨
        Advances .reconnectProof r) : Twins svc w c l r
  /-- Only a reconnect needs a session key. -/
  | offered {l r : Outcome} (hl : Advances .logonProof l)
      (hr : Refuses .reconnectChallenge .unknownAccount r ∨ Advances .reconnectProof r) : Twins svc w c l r

/-- An account without a lock and without a ban may log on, if its secret opens and the build is of an accepted
generation. -/
theorem offerOrRefuse_cases (hs : s.phase = .closed) (a : Account) (ho : (w.run (offerOrRefuse svc s a)).1 = o) :
    o.1.description = s.description ∧
    ((∃ (stored : Bytes) (e : Sealed.Error), a.totpSecret = some stored ∧
        StoredSecret.reveal svc.masterKey stored = .error e ∧ Refuses .logonChallenge .dbBusy o) ∨
      s.expansion.isValid = false ∧ Refuses .logonChallenge .versionInvalid o ∨
      s.expansion.isValid = true ∧ Advances .logonProof o) := by
  subst ho
  unfold offerOrRefuse
  dsimp only
  split
  · split
    · rename_i hb
      exact ⟨rfl, .inr (.inr ⟨hb, rfl, _, rfl⟩)⟩
    · rename_i hb
      exact ⟨rfl, .inr (.inl ⟨by simpa using hb, hs, rfl⟩)⟩
  · rename_i stored ht
    split
    · rename_i e he
      exact ⟨rfl, .inl ⟨stored, e, ht, he, hs, rfl⟩⟩
    · split
      · rename_i hb
        exact ⟨rfl, .inr (.inr ⟨hb, rfl, _, rfl⟩)⟩
      · rename_i hb
        exact ⟨rfl, .inr (.inl ⟨by simpa using hb, hs, rfl⟩)⟩

theorem reconnectOf_cases (hv : refusal? svc.geoip s.peer.ip a = none)
    (ho : (w.run (reconnectOf svc s c (some a))).1 = o) :
    o.1.description = (introduced svc s c).description ∧
    ((introduced svc s c).expansion.isValid = false ∧ Refuses .reconnectChallenge .versionInvalid o ∨
      (introduced svc s c).expansion.isValid = true ∧
        (Refuses .reconnectChallenge .unknownAccount o ∨ Advances .reconnectProof o)) := by
  subst ho
  simp only [reconnectOf, hv]
  split
  · rename_i hb
    split
    · exact ⟨rfl, .inr ⟨hb, .inl ⟨rfl, rfl⟩⟩⟩
    · exact ⟨rfl, .inr ⟨hb, .inr ⟨rfl, _, rfl⟩⟩⟩
  · rename_i hb
    exact ⟨rfl, .inl ⟨by simpa using hb, rfl, rfl⟩⟩

/-- Two challenges that can be read look up the same account, and judge it alike. -/
theorem twins_of_decode (svc : Service) (s : Session) (w : World)
    (hl : Challenge.decode (Command.logonChallenge.code :: fields) = .ok { c with command := .logonChallenge })
    (hr : Challenge.decode (Command.reconnectChallenge.code :: fields) = .ok { c with command := .reconnectChallenge })
    {l r : Outcome} (hlogon : (w.run (s.dispatch svc .logonChallenge (Command.logonChallenge.code :: fields))).1 = l)
    (hreconnect : (w.run (s.dispatch svc .reconnectChallenge (Command.reconnectChallenge.code :: fields))).1 = r) :
    l.1.description = (introduced svc s c).description ∧ r.1.description = (introduced svc s c).description ∧
      Twins svc w c l r := by
  -- Both handlers first ask the same of the same world, so they go on with one answer, in one world.
  obtain ⟨answer, w', hcall⟩ : ∃ (answer : Except DirectoryError (Option Account)) (w' : World),
      w.call (lookup c) = (answer, w') := ⟨_, _, rfl⟩
  rw [dispatch, logonChallenge_eq hl, run_withAccount_of_call hcall] at hlogon
  rw [dispatch, reconnectChallenge_eq hr, run_withAccount_of_call hcall] at hreconnect
  rcases lookup_cases answer with hnone | ⟨a, rfl⟩
  · rw [hnone] at hlogon hreconnect
    subst hlogon hreconnect
    exact ⟨rfl, rfl, .unknown ⟨rfl, rfl⟩ ⟨rfl, rfl⟩⟩
  · cases hv : refusal? svc.geoip s.peer.ip a with
    | some v =>
      change (w'.run (logonOf svc s _ (some a))).1 = l at hlogon
      change (w'.run (reconnectOf svc s _ (some a))).1 = r at hreconnect
      simp only [logonOf, hv] at hlogon
      simp only [reconnectOf, hv] at hreconnect
      subst hlogon hreconnect
      exact ⟨rfl, rfl, .refused (mem_policyVerdicts hv) ⟨rfl, rfl⟩ ⟨rfl, rfl⟩⟩
    | none =>
      change (w'.run (logonOf svc s _ (some a))).1 = l at hlogon
      simp only [logonOf, hv] at hlogon
      obtain ⟨hdl, hcl⟩ := offerOrRefuse_cases rfl a hlogon
      obtain ⟨hdr, hcr⟩ := reconnectOf_cases (c := c) hv hreconnect
      refine ⟨hdl, hdr, ?_⟩
      rcases hcl with ⟨stored, e, ht, he, hbusy⟩ | ⟨hb, hunsupported⟩ | ⟨hb, hoffered⟩
      · have hu : Unopened svc w c := ⟨a, stored, e, congrArg Prod.fst hcall, ht, he⟩
        exact .unopened hu hbusy (hcr.imp And.right And.right)
      · rcases hcr with ⟨-, hrefused⟩ | ⟨hb', -⟩
        · exact .unsupported hunsupported hrefused
        · exact absurd (hb.symm.trans hb') Bool.false_ne_true
      · rcases hcr with ⟨hb', -⟩ | ⟨-, hend⟩
        · exact absurd (hb'.symm.trans hb) Bool.false_ne_true
        · exact .offered hoffered hend

namespace Twins

variable {l r : Outcome}

theorem policy_iff (h : Twins svc w c l r) (hv : v ∈ policyVerdicts) :
    Refuses .reconnectChallenge v r ↔ Refuses .logonChallenge v l := by
  -- no other refusal of either challenge has a verdict of the policy
  have hother : ∀ u ∈ [Verdict.unknownAccount, .versionInvalid, .dbBusy], u ≠ v := by
    rintro u hu rfl
    revert hu hv
    cases u <;> decide
  have hunknown := hother .unknownAccount (by decide)
  have hversion := hother .versionInvalid (by decide)
  cases h with
  | unknown hl hr => exact ⟨fun h => absurd (hr.unique h) hunknown, fun h => absurd (hl.unique h) hunknown⟩
  | refused _ hl hr => exact ⟨fun h => hr.unique h ▸ hl, fun h => hl.unique h ▸ hr⟩
  | unsupported hl hr => exact ⟨fun h => absurd (hr.unique h) hversion, fun h => absurd (hl.unique h) hversion⟩
  | unopened _ hl hr =>
    refine ⟨fun h => ?_, fun h => absurd (hl.unique h) (hother .dbBusy (by decide))⟩
    rcases hr with hr | hr | hr
    · exact absurd (hr.unique h) hversion
    · exact absurd (hr.unique h) hunknown
    · exact absurd hr (h.not_advances (by decide))
  | offered hl hr =>
    refine ⟨fun h => ?_, fun h => absurd hl (h.not_advances (by decide))⟩
    rcases hr with hr | hr
    · exact absurd (hr.unique h) hunknown
    · exact absurd hr (h.not_advances (by decide))

/-- Who may resume may log on, unless the secret that a logon needs does not open. -/
theorem advances_logon (h : Twins svc w c l r) (hr : Advances .reconnectProof r) :
    Advances .logonProof l ∨ Refuses .logonChallenge .dbBusy l ∧ Unopened svc w c := by
  cases h with
  | unknown _ hr' => exact absurd hr (hr'.not_advances (by decide))
  | refused _ _ hr' => exact absurd hr (hr'.not_advances (by decide))
  | unsupported _ hr' => exact absurd hr (hr'.not_advances (by decide))
  | unopened hu hl _ => exact .inr ⟨hl, hu⟩
  | offered hl _ => exact .inl hl

/-- An unknown account is unknown to both, and an unsupported build is unsupported by both. -/
theorem refuses_reconnect (h : Twins svc w c l r) (hv : v = .unknownAccount ∨ v = .versionInvalid)
    (hl : Refuses .logonChallenge v l) : Refuses .reconnectChallenge v r := by
  cases h with
  | unknown hl' hr => exact hl'.unique hl ▸ hr
  | refused _ hl' hr => exact hl'.unique hl ▸ hr
  | unsupported hl' hr => exact hl'.unique hl ▸ hr
  | unopened _ hl' _ =>
    have hbusy : Verdict.dbBusy = v := hl'.unique hl
    subst hbusy
    rcases hv with hv | hv <;> cases hv
  | offered hl' _ => exact absurd hl' (hl.not_advances (by decide))

end Twins

theorem run_unreadable (svc : Service) (s : Session) (w : World) {e e' : WireError}
    (hl : Challenge.decode (Command.logonChallenge.code :: fields) = .error e)
    (hr : Challenge.decode (Command.reconnectChallenge.code :: fields) = .error e') :
    w.run (s.dispatch svc .logonChallenge (Command.logonChallenge.code :: fields)) = ((s, .error (.wire e)), w) ∧
      w.run (s.dispatch svc .reconnectChallenge (Command.reconnectChallenge.code :: fields)) =
        ((s, .error (.wire e')), w) := by
  constructor
  · simp only [dispatch, logonChallenge, hl]
    rfl
  · simp only [dispatch, reconnectChallenge, hr]
    rfl

/-- A logon challenge and a reconnect challenge with the same fields, asked of the same session in the same world, are
judged by one policy. -/
theorem challenges_share_policy (svc : Service) (s : Session) (w : World) (fields : Bytes) :
    let logon := (w.run (s.dispatch svc .logonChallenge (Command.logonChallenge.code :: fields))).1
    let reconnect := (w.run (s.dispatch svc .reconnectChallenge (Command.reconnectChallenge.code :: fields))).1
    (∀ v ∈ policyVerdicts, Refuses .reconnectChallenge v reconnect ↔ Refuses .logonChallenge v logon) ∧
    (Advances .reconnectProof reconnect → Advances .logonProof logon ∨
      Refuses .logonChallenge .dbBusy logon ∧ ∃ c,
        Challenge.decode (Command.logonChallenge.code :: fields) = .ok c ∧ Unopened svc w c) ∧
    (Refuses .logonChallenge .unknownAccount logon → Refuses .reconnectChallenge .unknownAccount reconnect) ∧
    (Refuses .logonChallenge .versionInvalid logon → Refuses .reconnectChallenge .versionInvalid reconnect) ∧
    reconnect.1.description = logon.1.description := by
  intro logon reconnect
  rcases Challenge.decode_cases fields with ⟨c, hl, hr⟩ | ⟨e, e', hl, hr⟩
  · obtain ⟨hdl, hdr, htwins⟩ := twins_of_decode svc s w hl hr rfl rfl
    refine ⟨fun v hv => htwins.policy_iff hv, fun ha => ?_, htwins.refuses_reconnect (.inl rfl),
      htwins.refuses_reconnect (.inr rfl), hdr.trans hdl.symm⟩
    rcases htwins.advances_logon ha with hoffered | ⟨hbusy, hu⟩
    · exact .inl hoffered
    · exact .inr ⟨hbusy, _, hl, hu⟩
  · obtain ⟨hlogon, hreconnect⟩ := run_unreadable svc s w hl hr
    have hlogon : logon = (s, .error (.wire e)) := congrArg Prod.fst hlogon
    have hreconnect : reconnect = (s, .error (.wire e')) := congrArg Prod.fst hreconnect
    rw [hlogon, hreconnect]
    simp [Refuses, Advances]

end Session

end RealmLogon
