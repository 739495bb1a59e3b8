import RealmLogon.Probe.Talk
import RealmLogon.Proofs.Exchange.Agreement
import RealmLogon.Proofs.Session.Handlers
import RealmLogon.Proofs.Text.Canonical
import RealmLogon.Proofs.Wire.Messages

/-! A login and a password count in upper case. They are brought into this form when an account is registered, by the
client and by the server, each on its own; none of them is misled by a login or a password that has already been brought
into it. -/

namespace RealmLogon

open Exchange Text

namespace Exchange

variable (login password : String) (salt : Salt)

theorem register_upper_login : register (Latin.upper login) password salt = register login password salt := by
  rw [register, Latin.upper_upper, register]

theorem register_upper_password : register login (Latin.upper password) salt = register login password salt := by
  rw [register, Latin.upper_upper, register]

variable {login password salt} {login' password' : String}

/-- Whoever types a registered login and its password, in letters of either case, is given a session key by the server
that holds the verifier. -/
theorem accept_of_same_upper (hl : Latin.upper login' = Latin.upper login)
    (hp : Latin.upper password' = Latin.upper password) {a b : Key}
    (hb : number (Server.start (Latin.upper login) salt (register login password salt) b).publicKey % prime ≠ 0) :
    ∃ c, Client.answer (Latin.upper login') (Latin.upper password') salt
        (Server.start (Latin.upper login) salt (register login password salt) b).publicKey a = some c ∧
      (Server.start (Latin.upper login) salt (register login password salt) b).accept c.publicKey c.proof =
        some c.sessionKey := by
  rw [hl, hp]
  obtain ⟨c, hc⟩ := Client.exists_answer (Latin.upper login) (Latin.upper password) salt a hb
  exact ⟨c, hc, accept_answer hc⟩

end Exchange

theorem Store.createAccount_upper (s : Store) (salt : Salt) (login password : String) (security : UInt8)
    (sealedSecret : Option Bytes) :
    s.createAccount salt (Latin.upper login) (Latin.upper password) security sealedSecret =
      s.createAccount salt login password security sealedSecret := by
  simp only [createAccount, Latin.upper_upper, register_upper_password]

def Identity.canonical (i : Identity) : Identity := { i with login := i.canonicalLogin }

@[simp] theorem Identity.canonicalLogin_canonical (i : Identity) : i.canonical.canonicalLogin = i.canonicalLogin :=
  Latin.upper_upper i.login

theorem Identity.challenge_canonical (i : Identity) (c : Command) : i.canonical.challenge c = i.challenge c := by
  simp only [challenge, canonicalLogin_canonical]
  rfl

namespace Talk

variable {σ : Type} [Peer σ] (i : Identity)

theorem logon_canonical (password : String) (source : TokenSource) :
    (logon i.canonical (Latin.upper password) source : Talk σ SessionKey) = logon i password source := by
  simp only [logon, Identity.challenge_canonical, Identity.canonicalLogin_canonical, Latin.upper_upper]
  rfl

theorem reconnect_canonical (key : SessionKey) :
    (reconnect i.canonical key : Talk σ Unit) = reconnect i key := by
  simp only [reconnect, Identity.challenge_canonical, Identity.canonicalLogin_canonical]

end Talk

namespace Session

variable {frame frame' : Bytes} {c : Challenge} {login : String} (svc : Service) (s : Session)

theorem logonChallenge_of_same_upper (hd : Challenge.decode frame = .ok c)
    (hd' : Challenge.decode frame' = .ok { c with login := login }) (hl : Latin.upper login = Latin.upper c.login) :
    logonChallenge svc s frame' = logonChallenge svc s frame := by
  rw [logonChallenge_eq hd, logonChallenge_eq hd', hl]
  rfl

theorem reconnectChallenge_of_same_upper (hd : Challenge.decode frame = .ok c)
    (hd' : Challenge.decode frame' = .ok { c with login := login }) (hl : Latin.upper login = Latin.upper c.login) :
    reconnectChallenge svc s frame' = reconnectChallenge svc s frame := by
  rw [reconnectChallenge_eq hd, reconnectChallenge_eq hd', hl]
  rfl

theorem dispatch_of_same_upper {k : Command} (hk : Challenge.IsOpening k) (hd : Challenge.decode frame = .ok c)
    (hd' : Challenge.decode frame' = .ok { c with login := login }) (hl : Latin.upper login = Latin.upper c.login) :
    s.dispatch svc k frame' = s.dispatch svc k frame := by
  rcases hk with rfl | rfl
  · exact logonChallenge_of_same_upper svc s hd hd' hl
  · exact reconnectChallenge_of_same_upper svc s hd hd' hl

end Session

/-- Upper case is reached at once, keeps the number of characters, touches no character outside of the two Latin blocks,
and is that of the parts of a text put together. A verifier is that of login and password in upper case, so it is the
same for either of them and for its upper case, and so is what a registration leaves in a store. A client says the same
to a server and takes the same answers from it, and a server treats a challenge for a login and one for its upper case
alike. Whoever types login and password in letters of either case can prove to know the verifier. -/
theorem canonical_form_stable :
    (∀ s : String, Latin.upper (Latin.upper s) = Latin.upper s ∧ (Latin.upper s).length = s.length ∧
      ∀ (i : Nat) (c : Char), s.toList[i]? = some c →
        ¬(c.toNat ≤ 0x24F ∨ 0x1E00 ≤ c.toNat ∧ c.toNat ≤ 0x1EFF) → (Latin.upper s).toList[i]? = some c) ∧
    (∀ s t : String, Latin.upper (s ++ t) = Latin.upper s ++ Latin.upper t) ∧
    (∀ (login password : String) (salt : Salt),
      register login password salt = verifier (Latin.upper login) (Latin.upper password) salt ∧
      register (Latin.upper login) password salt = register login password salt ∧
      register login (Latin.upper password) salt = register login password salt) ∧
    (∀ (store : Store) (salt : Salt) (login password : String) (security : UInt8) (sealedSecret : Option Bytes),
      store.createAccount salt (Latin.upper login) (Latin.upper password) security sealedSecret =
        store.createAccount salt login password security sealedSecret) ∧
    (∀ (σ : Type) [Peer σ] (i : Identity) (password : String) (source : TokenSource) (key : SessionKey),
      (Talk.logon i.canonical (Latin.upper password) source : Talk σ SessionKey) = Talk.logon i password source ∧
      (Talk.reconnect i.canonical key : Talk σ Unit) = Talk.reconnect i key) ∧
    (∀ (svc : Service) (s : Session) (k : Command) (frame frame' : Bytes) (c : Challenge), Challenge.IsOpening k →
      Challenge.decode frame = .ok c → Challenge.decode frame' = .ok { c with login := Latin.upper c.login } →
      s.dispatch svc k frame' = s.dispatch svc k frame) ∧
    ∀ (login login' password password' : String) (salt : Salt) (a b : Key),
      let server := Server.start (Latin.upper login) salt (register login password salt) b
      Latin.upper login' = Latin.upper login → Latin.upper password' = Latin.upper password →
      number server.publicKey % prime ≠ 0 →
      ∃ c, Client.answer (Latin.upper login') (Latin.upper password') salt server.publicKey a = some c ∧
        server.accept c.publicKey c.proof = some c.sessionKey := by
  refine ⟨fun s => ⟨Latin.upper_upper s, Latin.length_upper s, fun i c hc hn => ?_⟩, Latin.upper_append,
    fun login password salt => ⟨rfl, register_upper_login login password salt, register_upper_password login password salt⟩,
    Store.createAccount_upper, fun σ _ i password source key => ?_, ?_, ?_⟩
  · refine Latin.getElem?_upper_of_not_latin hc ?_
    simpa [Latin.isLatin] using hn
  · exact ⟨Talk.logon_canonical i password source, Talk.reconnect_canonical i key⟩
  · intro svc s k frame frame' c hk hd hd'
    exact Session.dispatch_of_same_upper svc s hk hd hd' (Latin.upper_upper c.login)
  · intro login login' password password' salt a b server hl hp hb
    exact accept_of_same_upper hl hp hb

/-! A player that was registered in small letters, and types the login in mixed case. -/

namespace Typist

theorem upper_login : Latin.upper "player" = "PLAYER" := Latin.upper_eq (by decide +kernel)

theorem upper_password : Latin.upper "secret" = "SECRET" := Latin.upper_eq (by decide +kernel)

theorem upper_typed : Latin.upper "Player" = Latin.upper "player" :=
  (Latin.upper_eq (by decide +kernel)).trans upper_login.symm

def challenge : Challenge :=
  ⟨.logonChallenge, 0, .zero 4, .zero 3, 12340, .zero 4, .zero 4, .zero 4, 0, .zero 4, "player"⟩

def server : Server := Server.start (Latin.upper "player") (.zero 32) (register "player" "secret" (.zero 32)) (.zero 32)

theorem regular : number server.publicKey % prime ≠ 0 := by
  have h : number (Server.start "PLAYER" (.zero 32) (verifier "PLAYER" "SECRET" (.zero 32)) (.zero 32)).publicKey %
      prime ≠ 0 := by decide +kernel
  rw [server, register, upper_login, upper_password]
  exact h

/-- A Cyrillic letter stays, a challenge in capitals is answered like one in small letters, and the login in mixed case
is proved to know the verifier. -/
theorem typed_in_any_case :
    (Latin.upper "игрок").toList[0]? = some 'и' ∧
    (∀ (svc : Service) (s : Session), s.dispatch svc .logonChallenge { challenge with login := "PLAYER" }.encode =
      s.dispatch svc .logonChallenge challenge.encode) ∧
    ∃ c, Client.answer (Latin.upper "Player") (Latin.upper "secret") (.zero 32) server.publicKey (.zero 32) = some c ∧
      server.accept c.publicKey c.proof = some c.sessionKey := by
  obtain ⟨htext, -, -, -, -, hserver, hproof⟩ := canonical_form_stable
  refine ⟨(htext "игрок").2.2 0 'и' rfl (by decide), fun svc s => ?_,
    hproof "player" "Player" "secret" "secret" (.zero 32) (.zero 32) (.zero 32) upper_typed rfl regular⟩
  refine hserver svc s .logonChallenge _ _ challenge (.inl rfl) (Challenge.decode_encode (.inl rfl) (by decide)) ?_
  have hc : { challenge with login := Latin.upper challenge.login } = { challenge with login := "PLAYER" } := by
    rw [challenge, upper_login]
  rw [hc]
  exact Challenge.decode_encode (.inl rfl) (by decide)

end Typist

end RealmLogon
