import RealmLogon.Proofs.Exchange.Binding
import RealmLogon.Proofs.Session.Coherence
import RealmLogon.Proofs.Wire.Messages

/-! Which proofs of an earlier session key a server accepts. It compares the digest that a client sends with the one of
its own four fields, so that a digest which was accepted for some fields is refused for all others, unless the two
messages collide. -/

namespace RealmLogon

open Exchange

namespace Session

/-- The fields that the server puts together when a proof comes: its own ones, and the random bytes of the client. -/
structure Resumes (s : Session) (frame : Bytes) (r : ReconnectTerms) (p : ReconnectProof) : Prop where
  account : s.account.map (·.login) = some r.login
  sessionKey : s.sessionKey = some r.key
  reconnectNonce : s.reconnectNonce = some r.serverNonce
  decode : ReconnectProof.decode frame = .ok p
  clientRandom : p.clientRandom = r.clientRandom

/-- The proof is accepted, and the client is logged on again. -/
def AcceptsProof (svc : Service) (s : Session) (frame : Bytes) : Prop :=
  ∃ t : Session, Session.reconnectProof svc s frame = .done (t, .ok ReconnectProofReply.success.encode) ∧
    t.phase = .authed

/-- The proof is refused: there is no reply, and the session is closed. -/
def RefusesProof (svc : Service) (s : Session) (frame : Bytes) (login : String) : Prop :=
  Session.reconnectProof svc s frame = .done (resumed s, .error (.invalidReconnectProof login))

variable {svc : Service} {s : Session} {frame : Bytes} {r : ReconnectTerms} {p : ReconnectProof}

theorem exists_resumes (hs : s.Coherent) (hp : s.phase = .reconnectProof) (hd : ReconnectProof.decode frame = .ok p) :
    ∃ r, s.Resumes frame r p := by
  obtain ⟨m, hm⟩ := Option.isSome_iff_exists.mp (hs.member (.inr (.inl hp))).1
  obtain ⟨key, hk⟩ := Option.isSome_iff_exists.mp (hs.keyed (.inl hp))
  obtain ⟨nonce, hn⟩ := Option.isSome_iff_exists.mp (hs.reconnectNonce.mpr hp)
  exact ⟨⟨m.login, p.clientRandom, nonce, key⟩, congrArg (Option.map _) hm, hk, hn, hd, rfl⟩

/-- The digest decides before the proof of the executable is looked at. -/
theorem Resumes.reconnectProof_eq (h : s.Resumes frame r p) :
    Session.reconnectProof svc s frame =
      if r.proof = p.proof then
        if versionHolds svc.policy (some (.zero 20)) p.clientRandom.toList p.versionProof then
          .done ({ resumed s with phase := .authed }, .ok ReconnectProofReply.success.encode)
        else .done (resumed s, .ok (ReconnectProofReply.failure .versionInvalid).encode)
      else .done (resumed s, .error (.invalidReconnectProof r.login)) := by
  obtain ⟨login, clientRandom, nonce, key⟩ := r
  obtain ⟨m, hm, rfl⟩ := Option.map_eq_some_iff.mp h.account
  obtain rfl : p.clientRandom = clientRandom := h.clientRandom
  have hk : s.sessionKey = some key := h.sessionKey
  have hn : s.reconnectNonce = some nonce := h.reconnectNonce
  simp only [Session.reconnectProof, h.decode, hm, hk, hn, ReconnectTerms.proof, resumed, reply, fail]

theorem Resumes.acceptsProof (h : s.Resumes frame r p) (hp : r.proof = p.proof)
    (hv : versionHolds svc.policy (some (.zero 20)) p.clientRandom.toList p.versionProof = true) :
    AcceptsProof svc s frame := by
  refine ⟨{ resumed s with phase := .authed }, ?_, rfl⟩
  rw [h.reconnectProof_eq, if_pos hp, if_pos hv]

theorem Resumes.proof_eq_of_acceptsProof (h : s.Resumes frame r p) (ha : AcceptsProof svc s frame) :
    r.proof = p.proof := by
  obtain ⟨t, ht, hphase⟩ := ha
  rw [h.reconnectProof_eq] at ht
  by_contra hne
  rw [if_neg hne] at ht
  cases ht

theorem Resumes.refusesProof (h : s.Resumes frame r p) (hne : r.proof ≠ p.proof) :
    RefusesProof svc s frame r.login := by
  rw [RefusesProof, h.reconnectProof_eq, if_neg hne]

end Session

namespace Exchange

open Session

/-- The proofs of an exchange bind all that they cover: one digest for different terms makes their messages collide. So,
collisions apart, a server that accepted the proof of an earlier session key refuses the same digest as soon as the
login, the random bytes of the client, its own nonce or the session key is another one. -/
theorem proofs_bind_terms :
    (∀ r r' : ReconnectTerms, r.proof = r'.proof ↔ r = r' ∨ Sha1.Collision r.message r'.message) ∧
    (∀ t t' : ClientTerms, t.clientProof = t'.clientProof ↔ t = t' ∨ Sha1.Collision t.message t'.message) ∧
    (∀ t t' : ServerTerms, t.serverProof = t'.serverProof ↔ t = t' ∨ Sha1.Collision t.message t'.message) ∧
    (∀ t t' : VersionTerms, t.versionProof = t'.versionProof ↔ t = t' ∨ Sha1.Collision t.message t'.message) ∧
    (∀ (s : Session) (frame : Bytes) (p : ReconnectProof), s.Coherent → s.phase = .reconnectProof →
      ReconnectProof.decode frame = .ok p → ∃ r, s.Resumes frame r p) ∧
    ∀ (svc svc' : Service) (s s' : Session) (frame frame' : Bytes) (r r' : ReconnectTerms) (p p' : ReconnectProof),
      s.Resumes frame r p → s'.Resumes frame' r' p' → AcceptsProof svc s frame → p'.proof = p.proof → r' ≠ r →
      RefusesProof svc' s' frame' r'.login ∨ Sha1.Collision r'.message r.message := by
  refine ⟨fun _ _ => ReconnectTerms.proof_eq_iff, fun _ _ => ClientTerms.clientProof_eq_iff,
    fun _ _ => ServerTerms.serverProof_eq_iff, fun _ _ => VersionTerms.versionProof_eq_iff, fun s frame p hs hp hd => exists_resumes hs hp hd, ?_⟩
  intro svc svc' s s' frame frame' r r' p p' h h' ha hproof hne
  by_cases heq : r'.proof = p'.proof
  · have hsame : r'.proof = r.proof := by rw [heq, hproof, h.proof_eq_of_acceptsProof ha]
    exact .inr ((ReconnectTerms.proof_eq_iff.mp hsame).resolve_left hne)
  · exact .inl (h'.refusesProof heq)

namespace Resuming

def terms (nonce : Nonce) : ReconnectTerms := ⟨"A", .zero 16, nonce, .zero 40⟩

def session (nonce : Nonce) : Session :=
  { peer := ⟨.v4 0x7F000001, 4000⟩, phase := .reconnectProof, account := some ⟨1, "A", 0⟩,
    sessionKey := some (.zero 40), reconnectNonce := some nonce }

/-- A proof for the nonce of zeros. -/
def request : ReconnectProof := ⟨.zero 16, (terms (.zero 16)).proof, .zero 20, 0⟩

def service : Service := ⟨⟨false, 0, 600, .account, 10, 60⟩, ⟨⟨1, 2⟩, ⟨3, 4⟩, []⟩, .empty, none⟩

theorem resumes (nonce : Nonce) : (session nonce).Resumes request.encode (terms nonce) request where
  account := rfl
  sessionKey := rfl
  reconnectNonce := rfl
  decode := ReconnectProof.decode_encode request
  clientRandom := rfl

theorem accepts : AcceptsProof service (session (.zero 16)) request.encode := (resumes (.zero 16)).acceptsProof rfl rfl

/-- The proof that is accepted for one nonce is refused for another. -/
theorem refuses_other_nonce : AcceptsProof service (session (.zero 16)) request.encode ∧
    RefusesProof service (session (.replicate 16 1)) request.encode "A" := by
  have hdiffer : ¬Sha1.Collision (terms (.replicate 16 1)).message (terms (.zero 16)).message := by decide +kernel
  refine ⟨accepts, Or.resolve_right ?_ hdiffer⟩
  exact proofs_bind_terms.2.2.2.2.2 service service _ _ _ _ _ _ _ _ (resumes (.zero 16)) (resumes (.replicate 16 1))
    accepts rfl (by decide)

end Resuming

end Exchange

end RealmLogon
