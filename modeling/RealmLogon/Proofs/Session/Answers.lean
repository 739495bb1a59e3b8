import RealmLogon.Proofs.Session.Handlers
import RealmLogon.World

/-! What a client with a valid account is answered in a world whose directory works, and what this does to the
world. -/

namespace RealmLogon

open Exchange Text

namespace World

def IsHealthy (w : World) : Prop := ∀ n c, w.fails n c = false

def called (w : World) (c : Directory.Call) : World :=
  { w with store := (c.perform w.store w.clock).2, calls := c :: w.calls }

def drawn (w : World) (n : Nat) : World := { w with entropy := w.entropy.skip n }

theorem call_of_fails {w : World} {c : Directory.Call} (h : w.fails w.calls.length c = true) :
    w.call c = (.error .unavailable, { w with calls := c :: w.calls }) := if_pos h

theorem call_of_not_fails {w : World} {c : Directory.Call} (h : ¬w.fails w.calls.length c = true) :
    w.call c = ((c.perform w.store w.clock).1, w.called c) := if_neg h

theorem call_eq {w : World} (hw : w.IsHealthy) (c : Directory.Call) :
    w.call c = ((c.perform w.store w.clock).1, w.called c) :=
  call_of_not_fails (by simp [hw w.calls.length c])

theorem run_of_call {α : Type} {w w' : World} {c : Directory.Call} {r : Except DirectoryError c.Answer}
    (h : w.call c = (r, w')) (k : Except DirectoryError c.Answer → Flow α) : w.run (.call c k) = w'.run (k r) := by
  change (w.call c).2.run (k (w.call c).1) = _
  rw [h]

theorem run_call {α : Type} {w : World} (h : w.IsHealthy) (c : Directory.Call)
    (k : Except DirectoryError c.Answer → Flow α) :
    w.run (.call c k) = (w.called c).run (k (c.perform w.store w.clock).1) := run_of_call (call_eq h c) k

/-- What stays in a world while a service asks it. -/
structure Keeps (w w' : World) : Prop where
  clock : w'.clock = w.clock
  realms : w'.realms = w.realms
  fails : w'.fails = w.fails

theorem Keeps.isHealthy {w w' : World} (h : w.Keeps w') (hw : w.IsHealthy) : w'.IsHealthy := by
  intro n c
  rw [h.fails]
  exact hw n c

end World

namespace Session

variable (svc : Service) {s : Session} {frame : Bytes} {w : World}

theorem run_withAccount_of_call {login : String} {r : Except DirectoryError (Option Account)} {w' : World}
    (h : w.call (.fetchByLogin login) = (r, w')) (k : Option Account → Flow Outcome) :
    w.run (withAccount login k) = w'.run (k r.toOption.join) := World.run_of_call h fun r => k r.toOption.join

theorem run_withAccount_some {login : String} {a : Account} {w' : World}
    (h : w.call (.fetchByLogin login) = (.ok (some a), w')) (k : Option Account → Flow Outcome) :
    w.run (withAccount login k) = w'.run (k (some a)) := run_withAccount_of_call h k

theorem run_withAccount (hw : w.IsHealthy) (login : String) (k : Option Account → Flow Outcome) :
    w.run (withAccount login k) =
      (w.called (.fetchByLogin login)).run (k (w.store.fetchByLogin w.clock login).toOption.join) :=
  run_withAccount_of_call (World.call_eq hw _) k

theorem run_logonChallenge_unknown (hw : w.IsHealthy) {c : Challenge} (hd : Challenge.decode frame = .ok c)
    (ha : (w.store.fetchByLogin w.clock (Latin.upper c.login)).toOption.join = none) :
    w.run (s.dispatch svc .logonChallenge frame) =
      ((introduced svc s c, .ok (ChallengeReply.failure .unknownAccount).encode), w.called (lookup c)) := by
  rw [dispatch, logonChallenge_eq hd, run_withAccount hw, ha]
  rfl

theorem run_logonChallenge_of_call (hs : s.totpSecret = none) {c : Challenge} (hd : Challenge.decode frame = .ok c)
    {a : Account} {w' : World} (ha : w.call (lookup c) = (.ok (some a), w'))
    (hv : refusal? svc.geoip s.peer.ip a = none) {secret : Option Bytes} (ho : Opens svc a secret)
    (hb : (svc.builds.expansion c.build).isValid = true) :
    w.run (s.dispatch svc .logonChallenge frame) =
      ((offered svc s c a secret (exchangeFor a (w'.entropy.peek 32)),
        .ok (offerFor (exchangeFor a (w'.entropy.peek 32)) secret).encode), w'.drawn 32) := by
  have hb' : (introduced svc s c).expansion.isValid = true := hb
  rw [dispatch, logonChallenge_eq hd, run_withAccount_some ha]
  simp only [logonOf, hv]
  cases ho with
  | absent ht =>
    simp only [offerOrRefuse, ht]
    rw [if_pos hb', ← introduced_eq hs c]
    rfl
  | opened ht hr =>
    simp only [offerOrRefuse, ht, hr]
    rw [if_pos hb']
    rfl

theorem run_logonChallenge (hw : w.IsHealthy) (hs : s.totpSecret = none) {c : Challenge}
    (hd : Challenge.decode frame = .ok c) {a : Account}
    (ha : w.store.fetchByLogin w.clock (Latin.upper c.login) = .ok (some a))
    (hv : refusal? svc.geoip s.peer.ip a = none) {secret : Option Bytes} (ho : Opens svc a secret)
    (hb : (svc.builds.expansion c.build).isValid = true) :
    w.run (s.dispatch svc .logonChallenge frame) =
      ((offered svc s c a secret (exchangeFor a (w.entropy.peek 32)),
        .ok (offerFor (exchangeFor a (w.entropy.peek 32)) secret).encode), (w.called (lookup c)).drawn 32) :=
  run_logonChallenge_of_call svc hs hd ((World.call_eq hw _).trans (congrArg (·, w.called (lookup c)) ha)) hv ho hb

/-- A proof that holds comes down to whether the session key can be stored. -/
theorem run_logonProof_of_vouched (hb : s.expansion.isValid = true) {x : Server} (hx : s.exchange = some x) {m : Member}
    (hm : s.account = some m) {p : LogonProof} (hd : LogonProof.decode frame = .ok p) {key : SessionKey}
    (hk : x.accept p.clientKey p.proof = some key) (hp : Vouched svc s p w.clock) :
    w.run (s.dispatch svc .logonProof frame) = w.run (acceptProof (spent s) m p key) := by
  have ha : checkProof svc (spent s) x m s.totpSecret p = .ask .now fun (now : Int) =>
      if tokenHolds s.totpSecret p.token now &&
          versionHolds svc.policy (svc.builds.executableHash? s.build s.os) p.clientKey.toList p.versionProof
        then acceptProof (spent s) m p key else (spent s).reply refusedProof := by
    simp only [checkProof, hk]
    rfl
  rw [dispatch, logonProof_eq hb hx hm hd, ha]
  change w.run (if tokenHolds s.totpSecret p.token w.clock && _ then _ else _) = _
  rw [if_pos (Bool.and_eq_true_iff.mpr hp)]

theorem run_logonProof (hw : w.IsHealthy) (hb : s.expansion.isValid = true) {x : Server}
    (hx : s.exchange = some x) {m : Member} (hm : s.account = some m) {p : LogonProof}
    (hd : LogonProof.decode frame = .ok p) {key : SessionKey} (hk : x.accept p.clientKey p.proof = some key)
    (hp : Vouched svc s p w.clock) :
    w.run (s.dispatch svc .logonProof frame) =
      (({ spent s with sessionKey := some key, phase := .authed },
        .ok (acceptance s.expansion (serverProof p.clientKey p.proof key)).encode),
        w.called (.persistLogon (s.record m key))) := by
  rw [run_logonProof_of_vouched svc hb hx hm hd hk hp, acceptProof, World.run_call hw]
  rfl

theorem run_reconnectChallenge (hw : w.IsHealthy) {c : Challenge} (hd : Challenge.decode frame = .ok c)
    {a : Account} (ha : w.store.fetchByLogin w.clock (Latin.upper c.login) = .ok (some a))
    (hv : refusal? svc.geoip s.peer.ip a = none) (hb : (svc.builds.expansion c.build).isValid = true)
    {key : SessionKey} (hk : a.sessionKey = some key) :
    w.run (s.dispatch svc .reconnectChallenge frame) =
      ((resuming svc s c a key (w.entropy.peek 16),
        .ok (ReconnectChallengeReply.nonce (w.entropy.peek 16) versionChallenge).encode),
        (w.called (lookup c)).drawn 16) := by
  have hj : (Except.ok (some a) : Except DirectoryError (Option Account)).toOption.join = some a := rfl
  have hb' : (introduced svc s c).expansion.isValid = true := hb
  rw [dispatch, reconnectChallenge_eq hd, run_withAccount hw, ha, hj]
  simp only [reconnectOf, hv, if_pos hb', hk]
  rfl

theorem run_reconnectProof {m : Member} (hm : s.account = some m) {key : SessionKey}
    (hk : s.sessionKey = some key) {nonce : Nonce} (hn : s.reconnectNonce = some nonce) {p : ReconnectProof}
    (hd : ReconnectProof.decode frame = .ok p)
    (hp : Exchange.reconnectProof m.login p.clientRandom nonce key = p.proof)
    (hv : versionHolds svc.policy (some (.zero 20)) p.clientRandom.toList p.versionProof = true) (w : World) :
    w.run (s.dispatch svc .reconnectProof frame) =
      (({ resumed s with phase := .authed }, .ok ReconnectProofReply.success.encode), w) := by
  have hs : ({ resumed s with phase := .authed } : Session) =
      { s with phase := .authed, account := some m, sessionKey := some key, reconnectNonce := none } := by
    simp only [resumed, hm, hk]
  simp only [dispatch, Session.reconnectProof, hd, hm, hk, hn, if_pos hp, if_pos hv]
  rw [hs]
  rfl

theorem run_realmList (hw : w.IsHealthy) {m : Member} (hm : s.account = some m) (b : Bytes) :
    w.run (s.dispatch svc .realmList b) =
      (({ s with phase := .authed }, .ok (RealmList.encode s.expansion
        (Announcement.entries svc.builds (s.audience m) ((w.store.countsByAccount m.id).toOption.getD []) w.realms))),
        w.called (.countsByAccount m.id)) := by
  simp only [dispatch, realmList, hm]
  exact World.run_call hw (.countsByAccount m.id) _

end Session

end RealmLogon
