import RealmLogon.Proofs.Probe.Logon
import RealmLogon.Proofs.Realm.Announcement

/-! After a logon a client reads the realms, and it resumes the logon on a new connection with the session key. -/

namespace RealmLogon

open Exchange Text Connection Session

namespace Host

variable {h : Host} {w : World}

def listed (h : Host) (i : Identity) (m : Member) : List RealmEntry :=
  (RealmList.sent i.expansion
    (Announcement.entries h.service.builds ⟨i.build, i.expansion, m.security, h.client.ip⟩
      ((h.world.store.countsByAccount m.id).toOption.getD []) h.world.realms)).map (·.seen i.expansion)

theorem listed_congr {g : Host} (hs : g.service = h.service) (hc : g.client = h.client)
    (hr : g.world.realms = h.world.realms) (hn : g.world.store.characters = h.world.store.characters) (i : Identity)
    (m : Member) : g.listed i m = h.listed i m := by
  simp only [listed, Store.countsByAccount, hs, hc, hr, hn]

/-- A connection that has come to rest can be left without a trace. -/
theorem leave_of_stands {r : Rest} (hs : h.Stands r []) : h.leave.world = h.world := by
  obtain ⟨l, hl, hs⟩ := hs
  have hadvance : (Link.advance h.service 0 { l with inputClosed := true } h.world).2 = h.world :=
    Link.advance_of_rest (l := { l with inputClosed := true }) hs.rest hs.inbound 0
  simp only [leave, hl, Served.leave, Served.advance, hadvance]

theorem leave_of_none (hs : h.served = none) : h.leave.world = h.world := by
  simp only [leave, hs]

theorem service_leave (h : Host) : h.leave.service = h.service := by
  unfold leave
  split <;> rfl

theorem client_leave (h : Host) : h.leave.client = h.client := by
  unfold leave
  split <;> rfl

theorem dial_eq (hl : h.leave.world = h.world) :
    h.dial = ⟨h.service, h.client, h.world, some (.accept h.service h.client)⟩ := by
  simp only [dial, service_leave, client_leave, hl]

theorem awaits_dial (hl : h.leave.world = h.world) (hshort : 0 < h.service.policy.shortTimeout)
    (hlong : 0 < h.service.policy.longTimeout) (hw : h.world.IsHealthy)
    (hb : h.world.store.isIpBanned h.world.clock h.client.ip = false) :
    h.dial.service = h.service ∧ h.dial.client = h.client ∧
      h.dial.Awaits { peer := h.client } (h.world.called (.isIpBanned h.client.ip)) := by
  rw [dial_eq hl]
  exact ⟨rfl, rfl, _, rfl, Link.awaits_accept hshort hlong hw hb⟩

end Host

namespace Talk

variable {h : Host} {peer : Endpoint} {w : World} {i : Identity} {a : Account} {s : Session} {m : Member}

theorem run_realmList (hs : h.Stands (.waiting s []) []) (ha : Authenticates s i h.client m)
    (hw : h.world.IsHealthy) (hn : ∀ r ∈ h.world.realms, ZeroFree r.name) :
    ∃ h' : Host, (∀ client, (realmList i).run (h, client) = (.ok (h.listed i m), (h', client))) ∧
      h'.service = h.service ∧ h'.client = h.client ∧ h'.world = h.world.called (.countsByAccount m.id) ∧
      ∃ r, h'.Stands r [] := by
  have hrun := Session.run_realmList h.service hw ha.account realmListRequest
  have haudience : s.audience m = ⟨i.build, i.expansion, m.security, h.client.ip⟩ := by
    simp only [audience, ha.build, ha.expansion, ha.peer]
  rw [ha.expansion, haudience] at hrun
  have hserve := serve_of_run (nextFrame_realmList ha.phase) hrun (by simp)
  have hplain := Announcement.isPlain_entries h.service.builds ⟨i.build, i.expansion, m.security, h.client.ip⟩
    ((h.world.store.countsByAccount m.id).toOption.getD []) hn i.expansion
  have hd : Decodes (fun b => RealmList.decode b i.expansion) _ (h.listed i m) :=
    ⟨RealmList.decode_encode i.expansion hplain, fun n => RealmList.decode_take i.expansion i.expansion _⟩
  obtain ⟨sent, h', hsend, hreceive, hservice, hclient, hworld, hstands⟩ :=
    turn hs.awaits (by decide) (by decide) hserve hd
  refine ⟨h', fun client => ?_, hservice, hclient, hworld, _, hstands⟩
  rw [realmList, run_bind_ok (hsend client), hreceive]

theorem decodes_nonce (nonce : Nonce) :
    Decodes ReconnectChallengeReply.decode (ReconnectChallengeReply.nonce nonce versionChallenge).encode
      (.nonce nonce versionChallenge) :=
  decodes_of_short (by simp [ReconnectChallengeReply.encode, readSize]) rfl
    (ReconnectChallengeReply.decode_nonce nonce versionChallenge)

def afterNonce (w : World) (i : Identity) : World := (w.called (lookup (i.challenge .reconnectChallenge))).drawn 16

def nonceSent (svc : Service) (peer : Endpoint) (i : Identity) (a : Account) (key : SessionKey) (nonce : Nonce) :
    Session :=
  resuming svc { peer := peer } (i.challenge .reconnectChallenge) a key nonce

/-- The first turn of a reconnect: the server sends a nonce. -/
theorem run_nonce (ha : h.Awaits { peer := peer } w) (hw : w.IsHealthy) (hi : i.Suits h.service a)
    (hf : w.store.fetchByLogin w.clock a.login = .ok (some a))
    (hr : refusal? h.service.geoip peer.ip a = none) {key : SessionKey} (hk : a.sessionKey = some key) :
    ∃ sent received : Host,
      (∀ client, (send (i.challenge .reconnectChallenge).encode : Talk Host Unit).run (h, client) =
        (.ok (), (sent, client))) ∧
      (∀ client, (receive ReconnectChallengeReply.decode).run (sent, client) =
        (.ok (.nonce (w.entropy.peek 16) versionChallenge), (received, client))) ∧
      received.service = h.service ∧ received.client = h.client ∧ received.world = afterNonce w i ∧
      received.Stands (.waiting (nonceSent h.service peer i a key (w.entropy.peek 16)) []) [] := by
  have hlookup : w.store.fetchByLogin w.clock (Latin.upper (i.challenge .reconnectChallenge).login) =
      .ok (some a) := by
    rw [hi.lookup]
    exact hf
  have hrun := run_reconnectChallenge h.service (s := { peer := peer }) hw (hi.decode_challenge (.inr rfl)) hlookup
    hr hi.isValid hk
  have hserve := serve_of_run (hi.nextFrame_challenge (.inr rfl) rfl) hrun (by simp [resuming])
  exact turn ha (i.challenge_ne_nil _) (hi.length_challenge _) hserve (decodes_nonce _)

/-- The second turn of a reconnect: the proof of the session key is accepted. -/
theorem run_resume {g : Host} {key : SessionKey} {nonce : Nonce} (hi : i.Suits h.service a)
    (hservice : g.service = h.service) (hs : g.Stands (.waiting (nonceSent h.service peer i a key nonce) []) [])
    (clientRandom : Nonce) :
    ∃ (sent received : Host) (s : Session),
      (∀ client, (send (ReconnectProof.encode ⟨clientRandom,
        Exchange.reconnectProof i.canonicalLogin clientRandom nonce key,
        Exchange.versionProof clientRandom.toList (.zero 20), 0⟩) : Talk Host Unit).run (g, client) =
          (.ok (), (sent, client))) ∧
      (∀ client, (receive ReconnectProofReply.decode).run (sent, client) = (.ok .success, (received, client))) ∧
      received.service = h.service ∧ received.client = g.client ∧ received.world = g.world ∧
      received.Stands (.waiting s []) [] ∧ Authenticates s i peer a.member := by
  let s := nonceSent h.service peer i a key nonce
  let p : ReconnectProof := ⟨clientRandom, Exchange.reconnectProof i.canonicalLogin clientRandom nonce key,
    Exchange.versionProof clientRandom.toList (.zero 20), 0⟩
  have hproof : Exchange.reconnectProof a.member.login p.clientRandom nonce key = p.proof := by
    have hl : a.member.login = i.canonicalLogin := hi.login.symm
    rw [hl]
  have hversion : versionHolds h.service.policy (some (.zero 20)) p.clientRandom.toList p.versionProof = true := by
    simp only [versionHolds, p, beq_self_eq_true, Bool.or_true]
  have hrun := Session.run_reconnectProof h.service (s := s) rfl rfl rfl (ReconnectProof.decode_encode p) hproof
    hversion g.world
  have hserve := serve_of_run (nextFrame_reconnectProof p (rfl : s.phase = .reconnectProof)) hrun (by simp)
  rw [← hservice] at hserve
  have hne : p.encode ≠ [] := List.cons_ne_nil _ _
  have hle : p.encode.length ≤ bufferLimit := by
    simp [ReconnectProof.encode, bufferLimit]
  have hd : Decodes ReconnectProofReply.decode ReconnectProofReply.success.encode .success :=
    decodes_of_short (by decide) rfl ReconnectProofReply.decode_success
  obtain ⟨sent, received, hsend, hreceive, hservice', hclient', hworld', hstands⟩ :=
    turn hs.awaits hne hle hserve hd
  exact ⟨sent, received, _, hsend, hreceive, hservice'.trans hservice, hclient', hworld', hstands,
    rfl, rfl, rfl, rfl, hi.expansion⟩

theorem run_reconnect (ha : h.Awaits { peer := peer } w) (hw : w.IsHealthy) (hi : i.Suits h.service a)
    (hf : w.store.fetchByLogin w.clock a.login = .ok (some a))
    (hr : refusal? h.service.geoip peer.ip a = none) {key : SessionKey} (hk : a.sessionKey = some key)
    (client : World) :
    ∃ (h' : Host) (s : Session),
      (reconnect i key).run (h, client) = (.ok (), (h', { client with entropy := client.entropy.skip 16 })) ∧
      h'.service = h.service ∧ h'.client = h.client ∧ h'.world = afterNonce w i ∧
      h'.Stands (.waiting s []) [] ∧ Authenticates s i peer a.member := by
  obtain ⟨sent, g, hsend, hreceive, hservice, hclient, hworld, hstands⟩ := run_nonce ha hw hi hf hr hk
  obtain ⟨sent', h', s, hsend', hreceive', hservice', hclient', hworld', hstands', hs'⟩ :=
    run_resume hi hservice hstands (client.entropy.peek 16)
  refine ⟨h', s, ?_, hservice', hclient'.trans hclient, hworld'.trans hworld, hstands', hs'⟩
  rw [reconnect, run_bind_ok (hsend client), run_bind_ok (run_receiveNonce (hreceive client)),
    run_bind_ok (run_draw 16 g client), run_bind_ok (hsend' _), run_bind_ok (hreceive' _)]
  rfl

end Talk

end RealmLogon
