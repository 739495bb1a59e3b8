import RealmLogon.Proofs.Exchange.Agreement
import RealmLogon.Proofs.Probe.Turn
import RealmLogon.Proofs.Session.Requests
import RealmLogon.Proofs.Text.Canonical
import RealmLogon.Proofs.Token

/-! A client logs on to an account whose password it knows, with the authenticator secret if there is one: both
sides end with one session key, and the directory has it. -/

namespace RealmLogon

open Exchange Text Connection Session

namespace Identity

/-- The identity claims an account, with a build of the generation that it says. -/
structure Suits (i : Identity) (svc : Service) (a : Account) : Prop where
  login : i.canonicalLogin = a.login
  short : (Bytes.ofString a.login).length ≤ Challenge.maxLogin
  expansion : svc.builds.expansion i.build = i.expansion
  valid : i.expansion.isValid = true

/-- The executable that the identity proves passes for the one of its build, or is not looked at. -/
def Vouches (i : Identity) (svc : Service) : Prop :=
  svc.policy.strictVersionCheck = false ∨
    svc.builds.executableHash? i.build (Tag.name (Tag.ofName i.os)) = none ∨
    svc.builds.executableHash? i.build (Tag.name (Tag.ofName i.os)) = some (i.executableHash.getD (.zero 20))

variable {i : Identity} {svc : Service} {a : Account}

theorem Vouches.versionHolds (h : i.Vouches svc) (seed : Bytes) :
    versionHolds svc.policy (svc.builds.executableHash? i.build (Tag.name (Tag.ofName i.os))) seed
      (Exchange.versionProof seed (i.executableHash.getD (.zero 20))) = true := by
  unfold Session.versionHolds
  rcases h with h | h | h
  · rw [h]
    rfl
  · rw [h, Bool.or_true]
  · rw [h]
    simp only [beq_self_eq_true, Bool.or_true]

theorem Suits.short_login (h : i.Suits svc a) (c : Command) :
    (Bytes.ofString (i.challenge c).login).length ≤ Challenge.maxLogin := by
  change (Bytes.ofString i.canonicalLogin).length ≤ _
  rw [h.login]
  exact h.short

theorem Suits.isValid (h : i.Suits svc a) : (svc.builds.expansion i.build).isValid = true := by
  rw [h.expansion]
  exact h.valid

theorem Suits.decode_challenge (h : i.Suits svc a) {c : Command} (hc : Challenge.IsOpening c) :
    Challenge.decode (i.challenge c).encode = .ok (i.challenge c) :=
  Challenge.decode_encode hc (h.short_login c)

theorem Suits.nextFrame_challenge (h : i.Suits svc a) {c : Command} (hc : Challenge.IsOpening c) {s : Session}
    (hs : s.phase = .challenge) :
    s.nextFrame (i.challenge c).encode = .ok (some (c, (i.challenge c).encode.length)) :=
  Session.nextFrame_challenge (c := i.challenge c) hc (h.short_login c) hs

theorem challenge_ne_nil (i : Identity) (c : Command) : (i.challenge c).encode ≠ [] :=
  List.cons_ne_nil _ _

theorem Suits.length_challenge (h : i.Suits svc a) (c : Command) : (i.challenge c).encode.length ≤ bufferLimit := by
  have hl := (i.challenge c).length_encode
  have hs := h.short_login c
  have hb : bufferLimit = 4096 := rfl
  have hh : Challenge.headerSize = 34 := rfl
  have hm : Challenge.maxLogin = 16 := rfl
  omega

theorem Suits.lookup (h : i.Suits svc a) (c : Command) : Latin.upper (i.challenge c).login = a.login := by
  have hl : (i.challenge c).login = Latin.upper i.login := rfl
  rw [hl, Latin.upper_upper]
  exact h.login

end Identity

/-- A client has the secret of an account at hand, if there is one. -/
def TokenSource.Knows (source : TokenSource) (secret : Option Bytes) : Prop :=
  ∀ bytes ∈ secret, source = .secret bytes

def Token.ofSecret (secret : Option Bytes) (clock : Int) : Option String :=
  secret.map fun bytes => typed (generate bytes (clock.toNat / timeStep) typedDigits)

theorem Token.holds_ofSecret (secret : Option Bytes) (now : Int) :
    tokenHolds secret (ofSecret secret now) now = true := by
  cases secret with
  | none => rfl
  | some bytes =>
    have hp := parse_typed (generate_lt bytes (now.toNat / timeStep))
    simp only [tokenHolds, ofSecret, Option.map_some, hp, Option.any_some]
    exact validate_generate bytes now.toNat

theorem Token.length_ofSecret {secret : Option Bytes} {now : Int} :
    ∀ t ∈ ofSecret secret now, (Bytes.ofString t).length < 256 := by
  intro t ht
  obtain ⟨bytes, -, rfl⟩ := Option.map_eq_some_iff.mp ht
  rw [length_ofString_typed (generate_lt bytes _)]
  decide

namespace Talk

structure Authenticates (s : Session) (i : Identity) (peer : Endpoint) (m : Member) : Prop where
  phase : s.phase = .authed
  account : s.account = some m
  peer : s.peer = peer
  build : s.build = i.build
  expansion : s.expansion = i.expansion

theorem flagsFor_and (secret : Option Bytes) : flagsFor secret &&& SecurityFlag.authenticator = flagsFor secret := by
  cases secret with
  | none => rfl
  | some bytes =>
    change SecurityFlag.authenticator &&& SecurityFlag.authenticator = SecurityFlag.authenticator
    decide

section Replies

theorem run_tokenFor {source : TokenSource} {secret : Option Bytes} (hs : source.Knows secret) {o : ChallengeOffer}
    (ho : o.securityFlags = flagsFor secret) (s : Host × World) :
    (tokenFor o source).run s = (.ok (Token.ofSecret secret s.2.clock), s) := by
  cases secret with
  | none =>
    have hf : o.securityFlags &&& SecurityFlag.authenticator = 0 := by
      rw [ho]
      rfl
    rw [tokenFor, if_pos hf]
    rfl
  | some bytes =>
    have hf : ¬o.securityFlags &&& SecurityFlag.authenticator = 0 := by
      rw [ho, flagsFor_and]
      exact (by decide : ¬SecurityFlag.authenticator = 0)
    rw [tokenFor, if_neg hf, hs bytes rfl]
    rfl

theorem decodes_offer (x : Server) (secret : Option Bytes) :
    Decodes ChallengeReply.decode (offerFor x secret).encode (offerFor x secret) := by
  have hd : ChallengeReply.decode (offerFor x secret).encode = .ok (offerFor x secret) := by
    rw [offerFor, ChallengeReply.decode_offer, ChallengeReply.sentFlags, flagsFor_and]
  have hl : (offerFor x secret).encode.length ≤ readSize := by
    simp only [offerFor, ChallengeReply.encode, flagsFor_and, List.length_append, Octets.length_toList,
      List.length_cons, List.length_nil, readSize]
    split <;> simp
  exact decodes_of_short hl rfl hd

theorem decodes_acceptance {e : Expansion} (d : Digest) :
    Decodes (fun b => LogonProofReply.decode b e) (acceptance e d).encode (acceptance e d) := by
  unfold acceptance
  by_cases he : e = .post
  · rw [if_pos he, he]
    refine decodes_of_short ?_ (Reader.decode_command_nil _ _) (LogonProofReply.decode_extended d _ _ _)
    simp [LogonProofReply.encode, readSize]
  · rw [if_neg he]
    refine decodes_of_short ?_ (Reader.decode_command_nil _ _) (LogonProofReply.decode_legacy d 0 he)
    simp [LogonProofReply.encode, readSize]

variable {σ : Type} [Peer σ] {s s' : σ × World}

theorem run_receiveOffer {o : ChallengeOffer}
    (h : (receive ChallengeReply.decode).run s = (.ok (.offer o), s')) : receiveOffer.run s = (.ok o, s') := by
  rw [receiveOffer, run_bind_ok h]
  rfl

theorem run_receiveOffer_failure {v : Verdict}
    (h : (receive ChallengeReply.decode).run s = (.ok (.failure v), s')) :
    receiveOffer.run s = (.error (.rejected .logonChallenge v), s') := by
  rw [receiveOffer, run_bind_ok h]
  rfl

theorem run_receiveServerProof {e : Expansion} {d : Digest}
    (h : (receive fun b => LogonProofReply.decode b e).run s = (.ok (acceptance e d), s')) :
    (receiveServerProof e).run s = (.ok d, s') := by
  rw [receiveServerProof, run_bind_ok h, acceptance]
  by_cases he : e = .post
  · rw [if_pos he]
    rfl
  · rw [if_neg he]
    rfl

end Replies

section Logon

variable {h : Host} {peer : Endpoint} {w : World} {i : Identity} {a : Account}

theorem run_logon_unknown (ha : h.Awaits { peer := peer } w) (hw : w.IsHealthy) (hi : i.Suits h.service a)
    (hf : (w.store.fetchByLogin w.clock a.login).toOption.join = none) (password : String) (source : TokenSource)
    (client : World) :
    ∃ h', (logon i password source).run (h, client) =
      (.error (.rejected .logonChallenge .unknownAccount), (h', client)) := by
  have hc := hi.decode_challenge (.inl rfl)
  have hlookup : (w.store.fetchByLogin w.clock (Latin.upper (i.challenge .logonChallenge).login)).toOption.join =
      none := by
    rw [hi.lookup]
    exact hf
  have hrun := run_logonChallenge_unknown h.service (s := { peer := peer }) hw hc hlookup
  have hserve := serve_of_run_closed (hi.nextFrame_challenge (.inl rfl) rfl) hrun rfl
  have hd : Decodes ChallengeReply.decode (ChallengeReply.failure .unknownAccount).encode
      (.failure .unknownAccount) :=
    decodes_of_short (by decide) rfl (ChallengeReply.decode_failure (by decide))
  obtain ⟨sent, h', hsend, hreceive, -⟩ := turn ha (i.challenge_ne_nil _) (hi.length_challenge _) hserve hd
  refine ⟨h', ?_⟩
  rw [logon, run_bind_ok (hsend client), run_bind_error (run_receiveOffer_failure (hreceive client))]

theorem length_logonProof {p : LogonProof} (h : ∀ t ∈ p.token, (Bytes.ofString t).length < 256) :
    p.encode ≠ [] ∧ p.encode.length ≤ bufferLimit := by
  have ht : p.sentToken.length ≤ 256 := by
    cases ht : p.token with
    | none => simp [LogonProof.sentToken, ht]
    | some t =>
      have hl := h t ht
      simp only [LogonProof.sentToken, ht, List.length_cons]
      omega
  rw [LogonProof.encode_eq]
  refine ⟨List.cons_ne_nil _ _, ?_⟩
  simp only [List.length_append, Octets.length_toList, List.length_cons, List.length_nil, bufferLimit]
  omega

def afterOffer (w : World) (i : Identity) : World := (w.called (lookup (i.challenge .logonChallenge))).drawn 32

def offering (svc : Service) (peer : Endpoint) (i : Identity) (a : Account) (secret : Option Bytes)
    (privateKey : Key) : Session :=
  offered svc { peer := peer } (i.challenge .logonChallenge) a secret (exchangeFor a privateKey)

/-- The first turn of a logon: an account without a lock and without a ban is offered an exchange. -/
theorem run_offer (ha : h.Awaits { peer := peer } w) (hw : w.IsHealthy) (hi : i.Suits h.service a)
    (hf : w.store.fetchByLogin w.clock a.login = .ok (some a))
    (hr : refusal? h.service.geoip peer.ip a = none) {secret : Option Bytes} (ho : Opens h.service a secret) :
    ∃ sent received : Host,
      (∀ client, (send (i.challenge .logonChallenge).encode : Talk Host Unit).run (h, client) =
        (.ok (), (sent, client))) ∧
      (∀ client, (receive ChallengeReply.decode).run (sent, client) =
        (.ok (offerFor (exchangeFor a (w.entropy.peek 32)) secret), (received, client))) ∧
      received.service = h.service ∧ received.client = h.client ∧ received.world = afterOffer w i ∧
      received.Stands (.waiting (offering h.service peer i a secret (w.entropy.peek 32)) []) [] := by
  have hlookup : w.store.fetchByLogin w.clock (Latin.upper (i.challenge .logonChallenge).login) = .ok (some a) := by
    rw [hi.lookup]
    exact hf
  have hrun := run_logonChallenge h.service (s := { peer := peer }) hw rfl (hi.decode_challenge (.inl rfl)) hlookup
    hr ho hi.isValid
  have hserve := serve_of_run (hi.nextFrame_challenge (.inl rfl) rfl) hrun (by simp [offered])
  exact turn ha (i.challenge_ne_nil _) (hi.length_challenge _) hserve (decodes_offer _ secret)

/-- The second turn of a logon: the proof is accepted, and the session key is stored. -/
theorem run_proof {g : Host} {privateKey : Key} {secret : Option Bytes} {client : World}
    (hi : i.Suits h.service a) (hservice : g.service = h.service)
    (hs : g.Stands (.waiting (offering h.service peer i a secret privateKey) []) []) (hw : g.world.IsHealthy)
    (hv : i.Vouches h.service) (hclock : client.clock = g.world.clock) {c : Client}
    (hc : (exchangeFor a privateKey).accept c.publicKey c.proof = some c.sessionKey) :
    ∃ (sent received : Host) (record : LogonRecord) (s : Session),
      (∀ client', (send (LogonProof.encode ⟨c.publicKey, c.proof,
        Exchange.versionProof c.publicKey.toList (i.executableHash.getD (.zero 20)), 0, 0,
        Token.ofSecret secret client.clock⟩) : Talk Host Unit).run (g, client') = (.ok (), (sent, client'))) ∧
      (∀ client', (receive fun b => LogonProofReply.decode b i.expansion).run (sent, client') =
        (.ok (acceptance i.expansion c.expectedProof), (received, client'))) ∧
      received.service = h.service ∧ received.client = g.client ∧ record.login = a.login ∧
      record.sessionKey = c.sessionKey ∧ received.world = g.world.called (.persistLogon record) ∧
      received.Stands (.waiting s []) [] ∧ Authenticates s i peer a.member := by
  let s := offering h.service peer i a secret privateKey
  let p : LogonProof := ⟨c.publicKey, c.proof,
    Exchange.versionProof c.publicKey.toList (i.executableHash.getD (.zero 20)), 0, 0,
    Token.ofSecret secret client.clock⟩
  have hexpansion : s.expansion = i.expansion := hi.expansion
  have hvalid : s.expansion.isValid = true := hi.isValid
  have hvouched : Vouched h.service s { p with securityFlags := p.sentFlags } g.world.clock := by
    refine ⟨?_, hv.versionHolds c.publicKey.toList⟩
    rw [← hclock]
    exact Token.holds_ofSecret secret client.clock
  have hrun := run_logonProof h.service (s := s) hw hvalid rfl rfl
    (LogonProof.decode_encode p Token.length_ofSecret) hc hvouched
  rw [hexpansion] at hrun
  have hframe : s.nextFrame p.encode = .ok (some (.logonProof, p.encode.length)) :=
    nextFrame_logonProof Token.length_ofSecret rfl
  have hserve := serve_of_run hframe hrun (by simp)
  rw [← hservice] at hserve
  obtain ⟨hne, hle⟩ := length_logonProof (p := p) Token.length_ofSecret
  obtain ⟨sent, received, hsend, hreceive, hservice', hclient', hworld', hstands⟩ :=
    turn hs.awaits hne hle hserve (decodes_acceptance _)
  exact ⟨sent, received, _, _, hsend, hreceive, hservice'.trans hservice, hclient', rfl, rfl, hworld', hstands,
    rfl, rfl, rfl, rfl, hexpansion⟩

/-- A client that knows the password of an account, and its secret if there is one, logs on. -/
theorem run_logon (ha : h.Awaits { peer := peer } w) (hw : w.IsHealthy) (hi : i.Suits h.service a)
    (hf : w.store.fetchByLogin w.clock a.login = .ok (some a))
    (hr : refusal? h.service.geoip peer.ip a = none) {secret : Option Bytes} (ho : Opens h.service a secret)
    (hv : i.Vouches h.service) {password : String}
    (hp : a.verifier = verifier a.login (Latin.upper password) a.salt) {source : TokenSource}
    (hs : source.Knows secret) {client : World} (hclock : client.clock = w.clock)
    (hb : number (exchangeFor a (w.entropy.peek 32)).publicKey % prime ≠ 0) :
    ∃ (key : SessionKey) (record : LogonRecord) (h' : Host) (s : Session),
      (logon i password source).run (h, client) =
        (.ok key, (h', { client with entropy := client.entropy.skip 32 })) ∧
      h'.service = h.service ∧ h'.client = h.client ∧ record.login = a.login ∧ record.sessionKey = key ∧
      h'.world = (afterOffer w i).called (.persistLogon record) ∧
      h'.Stands (.waiting s []) [] ∧ Authenticates s i peer a.member := by
  obtain ⟨sent, g, hsend, hreceive, hservice, hclient, hworld, hstands⟩ := run_offer ha hw hi hf hr ho
  obtain ⟨c, hanswer⟩ := Client.exists_answer a.login (Latin.upper password) a.salt (client.entropy.peek 32) hb
  have haccept : (exchangeFor a (w.entropy.peek 32)).accept c.publicKey c.proof = some c.sessionKey := by
    rw [exchangeFor, hp] at hanswer ⊢
    exact accept_answer hanswer
  have hhealthy : g.world.IsHealthy := by
    rw [hworld]
    exact hw
  have hsame : client.clock = g.world.clock := by
    rw [hworld]
    exact hclock
  obtain ⟨sent', h', record, s, hsend', hreceive', hservice', hclient', hlogin, hkey, hworld', hstands', hs'⟩ :=
    run_proof hi hservice hstands hhealthy hv hsame haccept
  refine ⟨c.sessionKey, record, h', s, ?_, hservice', hclient'.trans hclient, hlogin, hkey, ?_, hstands', hs'⟩
  · rw [logon, run_bind_ok (hsend client), run_bind_ok (run_receiveOffer (hreceive client))]
    rw [run_bind_ok (run_draw 32 g client)]
    have hc : Client.answer i.canonicalLogin (Latin.upper password) (exchangeFor a (w.entropy.peek 32)).salt
        (exchangeFor a (w.entropy.peek 32)).publicKey (client.entropy.peek 32) = some c := by
      rw [hi.login]
      exact hanswer
    simp only [hc]
    rw [run_bind_ok (run_tokenFor hs rfl _), run_bind_ok (hsend' _),
      run_bind_ok (run_receiveServerProof (hreceive' _))]
    have hne : ¬c.expectedProof ≠ c.expectedProof := fun hn => hn rfl
    rw [if_neg hne]
    rfl
  · rw [hworld', hworld]

end Logon

end Talk

end RealmLogon
