import RealmLogon.Proofs.Exchange.Binding
import RealmLogon.Proofs.Session.Framing
import RealmLogon.Proofs.Session.Handlers

/-! What lies behind a session that waits for a frame. There are only a few ways to get to each phase, and each
is told here as the whole history of the connection up to then. -/

namespace RealmLogon.Session

open Exchange Text

/-- The phase in which a command is taken up. -/
inductive Due : Phase → Command → Prop
  | logonChallenge : Due .challenge .logonChallenge
  | reconnectChallenge : Due .challenge .reconnectChallenge
  | logonProof : Due .logonProof .logonProof
  | reconnectProof : Due .reconnectProof .reconnectProof
  | realmList : Due .authed .realmList
  | xferAccept : Due .xfer .xferAccept
  | xferResume : Due .xfer .xferResume
  | xferCancel : Due .xfer .xferCancel

theorem Due.realmList_iff {phase : Phase} {c : Command} (h : Due phase c) :
    c = .realmList ↔ phase = .authed := by
  cases h <;> simp

theorem Due.phase_eq {phase : Phase} (h : Due phase .logonProof) : phase = .logonProof := by
  cases h
  rfl

theorem due_of_rule {opcode : UInt8} {r : Frame.Rule} (h : Frame.rule opcode = .ok r) :
    Due r.phase r.command := by
  unfold Frame.rule at h
  cases hc : Command.ofCode? opcode with
  | none => simp [hc] at h
  | some c =>
    simp only [hc] at h
    cases c <;> cases h <;> constructor

theorem due_of_nextFrame {s : Session} {b : Bytes} {c : Command} {n : Nat}
    (h : s.nextFrame b = .ok (some (c, n))) : Due s.phase c := by
  obtain ⟨opcode, rest, r, -, hr, hp, rfl, -, -⟩ := nextFrame_eq_some h
  exact hp ▸ due_of_rule hr

/-- No request for the realm list is among the events. -/
def Unlisted (t : List Event) : Prop := ∀ phase frame, .taken phase .realmList frame ∉ t

def OnlyLists (t : List Event) : Prop :=
  ∀ phase c frame, .taken phase c frame ∈ t → phase = .authed ∧ c = .realmList

theorem onlyLists_nil : OnlyLists [] := by
  intro phase c frame h
  cases h

theorem Unlisted.append {t u : List Event} (ht : Unlisted t) (hu : Unlisted u) : Unlisted (t ++ u) := by
  intro phase frame h
  rcases List.mem_append.mp h with h | h
  · exact ht phase frame h
  · exact hu phase frame h

theorem OnlyLists.append {t u : List Event} (ht : OnlyLists t) (hu : OnlyLists u) : OnlyLists (t ++ u) := by
  intro phase c frame h
  rcases List.mem_append.mp h with h | h
  · exact ht phase c frame h
  · exact hu phase c frame h

structure Offer where
  banned : Except DirectoryError Bool
  frame : Bytes
  challenge : Challenge
  account : Account
  secret : Option Bytes
  privateKey : Key

namespace Offer

def exchange (o : Offer) : Server := exchangeFor o.account o.privateKey

/-- The client is told the salt of the account and the public value of the exchange. -/
def history (peer : Endpoint) (o : Offer) : List Event :=
  [.called (.isIpBanned peer.ip) o.banned,
    .taken .challenge .logonChallenge o.frame,
    .called (.fetchByLogin (Latin.upper o.challenge.login)) (.ok (some o.account)),
    .asked (.draw 32) o.privateKey,
    .replied (offerFor o.exchange o.secret).encode]

structure Granted (svc : Service) (peer : Endpoint) (o : Offer) : Prop where
  admitted : o.banned.toOption.getD false = false
  decodes : Challenge.decode o.frame = .ok o.challenge
  allowed : refusal? svc.geoip peer.ip o.account = none
  supported : (svc.builds.expansion o.challenge.build).isValid = true
  opens : Opens svc o.account o.secret

def session (svc : Service) (peer : Endpoint) (o : Offer) : Session :=
  offered svc { peer := peer } o.challenge o.account o.secret o.exchange

end Offer

/-- A logon by the proof of an offered exchange. -/
structure Logon where
  offer : Offer
  frame : Bytes
  proof : LogonProof
  now : Int

namespace Logon

def key (l : Logon) : SessionKey := l.offer.exchange.sessionKey l.proof.clientKey

def history (svc : Service) (peer : Endpoint) (l : Logon) : List Event :=
  l.offer.history peer ++
    [.taken .logonProof .logonProof l.frame,
      .asked .now l.now,
      .called (.persistLogon ((l.offer.session svc peer).record l.offer.account.member l.key)) (.ok ()),
      .replied (acceptance (svc.builds.expansion l.offer.challenge.build)
        (serverProof l.proof.clientKey l.proof.proof l.key)).encode]

/-- What a client that knows the password proves: the login, the salt, both public keys and the session key. -/
def terms (l : Logon) : ClientTerms :=
  ⟨Sha1.hash (Bytes.ofString l.offer.account.login), l.offer.account.salt, l.proof.clientKey,
    l.offer.exchange.publicKey, l.key⟩

/-- The client knows the password, has the authenticator of the account if there is one, and runs the right
executable. -/
structure Genuine (svc : Service) (peer : Endpoint) (l : Logon) : Prop where
  granted : l.offer.Granted svc peer
  decodes : LogonProof.decode l.frame = .ok l.proof
  nonzero : number l.proof.clientKey % prime ≠ 0
  password : l.proof.proof = Sha1.hash l.terms.message
  carried : l.proof.token.isSome = l.offer.account.totpSecret.isSome
  valid : ∀ secret text, l.offer.secret = some secret → l.proof.token = some text →
    ∃ token, Token.parse text = some token ∧ Token.validate secret token l.now.toNat = true
  version : versionHolds svc.policy
    (svc.builds.executableHash? l.offer.challenge.build l.offer.challenge.osName)
    l.proof.clientKey.toList l.proof.versionProof = true

def session (svc : Service) (peer : Endpoint) (l : Logon) : Session :=
  { spent (l.offer.session svc peer) with sessionKey := some l.key, phase := .authed }

end Logon

structure Resumption where
  banned : Except DirectoryError Bool
  frame : Bytes
  challenge : Challenge
  account : Account
  key : SessionKey
  nonce : Nonce

namespace Resumption

def history (peer : Endpoint) (r : Resumption) : List Event :=
  [.called (.isIpBanned peer.ip) r.banned,
    .taken .challenge .reconnectChallenge r.frame,
    .called (.fetchByLogin (Latin.upper r.challenge.login)) (.ok (some r.account)),
    .asked (.draw 16) r.nonce,
    .replied (ReconnectChallengeReply.nonce r.nonce versionChallenge).encode]

/-- The nonce was due, and there is a key to resume with. -/
structure Granted (svc : Service) (peer : Endpoint) (r : Resumption) : Prop where
  admitted : r.banned.toOption.getD false = false
  decodes : Challenge.decode r.frame = .ok r.challenge
  allowed : refusal? svc.geoip peer.ip r.account = none
  supported : (svc.builds.expansion r.challenge.build).isValid = true
  stored : r.account.sessionKey = some r.key

def session (svc : Service) (peer : Endpoint) (r : Resumption) : Session :=
  resuming svc { peer := peer } r.challenge r.account r.key r.nonce

end Resumption

structure Reconnect where
  resumption : Resumption
  frame : Bytes
  proof : ReconnectProof

namespace Reconnect

def history (peer : Endpoint) (r : Reconnect) : List Event :=
  r.resumption.history peer ++
    [.taken .reconnectProof .reconnectProof r.frame,
      .replied ReconnectProofReply.success.encode]

/-- The client knows the stored key and has seen the nonce. -/
structure Genuine (svc : Service) (peer : Endpoint) (r : Reconnect) : Prop where
  granted : r.resumption.Granted svc peer
  decodes : ReconnectProof.decode r.frame = .ok r.proof
  key : r.proof.proof = Exchange.reconnectProof r.resumption.account.login r.proof.clientRandom
    r.resumption.nonce r.resumption.key
  version : versionHolds svc.policy (some (.zero 20)) r.proof.clientRandom.toList r.proof.versionProof = true

def session (svc : Service) (peer : Endpoint) (r : Reconnect) : Session :=
  { resumed (r.resumption.session svc peer) with phase := .authed }

end Reconnect

/-- What lies behind a session while no frame is being answered. -/
inductive Stage (svc : Service) (peer : Endpoint) : List Event → Session → Prop
  | opened {banned : Except DirectoryError Bool} (h : banned.toOption.getD false = false) :
      Stage svc peer [.called (.isIpBanned peer.ip) banned] { peer := peer }
  | offered (o : Offer) (h : o.Granted svc peer) : Stage svc peer (o.history peer) (o.session svc peer)
  | resuming (r : Resumption) (h : r.Granted svc peer) : Stage svc peer (r.history peer) (r.session svc peer)
  | loggedOn (l : Logon) (h : l.Genuine svc peer) {rest : List Event} (hr : OnlyLists rest) :
      Stage svc peer (l.history svc peer ++ rest) (l.session svc peer)
  | resumed (r : Reconnect) (h : r.Genuine svc peer) {rest : List Event} (hr : OnlyLists rest) :
      Stage svc peer (r.history peer ++ rest) (r.session svc peer)
  | closed {t : List Event} {s : Session} (hs : s.phase = .closed) (ht : Unlisted t) : Stage svc peer t s

/-- What lies behind the outcome of a frame: with a reply the session goes on to a stage, and without one it
has not logged on. -/
def Attained (svc : Service) (peer : Endpoint) (t : List Event) (o : Outcome) : Prop :=
  match o.2 with
  | .ok reply => Stage svc peer (t ++ [.replied reply]) o.1
  | .error _ => o.1.phase ≠ .authed ∧ Unlisted t

theorem unlisted_asked (q : Query) (a : q.Answer) : Unlisted [.asked q a] := by
  intro phase frame h
  simp at h

theorem onlyLists_of_leads {α : Type} {f g : Flow α} {es : List Event} (h : f.Leads es g) :
    OnlyLists es := by
  intro phase c frame hm
  obtain ⟨q, a, he⟩ := h.eq_asked _ hm
  cases he

theorem unlisted_of_leads {α : Type} {f g : Flow α} {es : List Event} (h : f.Leads es g) : Unlisted es := by
  intro phase frame hm
  obtain ⟨q, a, he⟩ := h.eq_asked _ hm
  cases he

theorem OnlyLists.taken (frame : Bytes) {t : List Event} (ht : OnlyLists t) :
    OnlyLists (.taken .authed .realmList frame :: t) := by
  intro phase c f h
  cases h with
  | head => exact ⟨rfl, rfl⟩
  | tail _ h => exact ht phase c f h

theorem Unlisted.taken {phase : Phase} {c : Command} (hc : c ≠ .realmList) (frame : Bytes) {t : List Event}
    (ht : Unlisted t) : Unlisted (.taken phase c frame :: t) := by
  intro p f h
  cases h with
  | head => exact hc rfl
  | tail _ h => exact ht p f h

theorem Unlisted.replied {t : List Event} (ht : Unlisted t) (reply : Bytes) :
    Unlisted (t ++ [.replied reply]) := by
  refine ht.append ?_
  intro phase frame h
  simp at h

theorem Offer.unlisted (peer : Endpoint) (o : Offer) : Unlisted (o.history peer) := by
  intro phase frame h
  simp [Offer.history] at h

theorem Resumption.unlisted (peer : Endpoint) (r : Resumption) : Unlisted (r.history peer) := by
  intro phase frame h
  simp [Resumption.history] at h

theorem accept_eq_some {x : Server} {clientKey : Key} {proof : Digest} {key : SessionKey}
    (h : x.accept clientKey proof = some key) :
    number clientKey % prime ≠ 0 ∧ key = x.sessionKey clientKey ∧ proof = x.expectedProof clientKey := by
  unfold Server.accept at h
  split at h
  · cases h
  · split at h
    · cases h
      exact ⟨‹_›, rfl, Eq.symm ‹_›⟩
    · cases h

/-- A token comes if and only if there is a secret, and then it is valid. -/
theorem tokenHolds_iff {secret : Option Bytes} {text : Option String} {now : Int} :
    tokenHolds secret text now = true ↔ text.isSome = secret.isSome ∧
      ∀ s t, secret = some s → text = some t →
        ∃ token, Token.parse t = some token ∧ Token.validate s token now.toNat = true := by
  cases secret <;> cases text <;> simp [tokenHolds, Option.any_eq_true]

theorem Opens.isSome_eq {svc : Service} {a : Account} {secret : Option Bytes} (h : Opens svc a secret) :
    secret.isSome = a.totpSecret.isSome := by
  cases h with
  | absent h => rw [h]
  | opened h ho =>
    rw [h]
    rfl

theorem Opens.unique {svc : Service} {a : Account} {secret other : Option Bytes} (h : Opens svc a secret)
    (h' : Opens svc a other) : secret = other := by
  cases h with
  | absent hs =>
    cases h' with
    | absent hs' => rfl
    | opened hs' ho' => cases hs.symm.trans hs'
  | opened hs ho =>
    cases h' with
    | absent hs' => cases hs.symm.trans hs'
    | opened hs' ho' =>
      cases hs.symm.trans hs'
      cases ho.symm.trans ho'
      rfl

theorem Opens.congr {svc : Service} {a b : Account} {secret : Option Bytes} (h : Opens svc a secret)
    (hs : b.totpSecret = a.totpSecret) : Opens svc b secret := by
  cases h with
  | absent h => exact .absent (hs.trans h)
  | opened h ho => exact .opened (hs.trans h) ho

theorem refusal?_eq_none_iff {geoip : GeoIp} {ip : Address} {a : Account} :
    refusal? geoip ip a = none ↔ lock? geoip ip a = none ∧ a.isBanned = false := by
  unfold refusal? ban?
  cases lock? geoip ip a with
  | some v => simp
  | none => simp

end RealmLogon.Session
