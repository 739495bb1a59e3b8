import RealmLogon.Program.Service
import RealmLogon.Proofs.Cipher.Sealing
import RealmLogon.Proofs.Directory.Registration
import RealmLogon.Proofs.Probe.Reconnect

/-! From registration to reconnect: an account that has been registered can be logged on to with what it was
registered with, provided that its number is one of 32 bits. -/

namespace RealmLogon

open Exchange Text Connection Session

/-- What an account is registered with. The authenticator secret, if there is one, is spelt in hexadecimal. -/
structure Enrolment where
  name : String
  password : String
  security : UInt8
  secret : Option String
  salt : Salt

namespace Enrolment

/-- A registration under the key of a service: the secret is prepared for storage, and the account is created. -/
structure Enters (e : Enrolment) (svc : Service) (before after : Store) (sealedSecret : Option Bytes) (id : UInt32) :
    Prop where
  prepared : ∃ drawn left, ServiceCommand.prepareSecret e.secret svc.masterKey drawn = (.ok sealedSecret, left)
  created : before.createAccount e.salt e.name e.password e.security sealedSecret = (.ok id, after)

/-- The number that the next account of a store gets, as the database counts. -/
def number (before : Store) : Int := before.accounts.last + 1

def account (e : Enrolment) (before : Store) (sealedSecret : Option Bytes) (now : Int) : Account :=
  .fresh (number before) e.name e.password e.salt e.security sealedSecret before.accountBans now

variable {e : Enrolment} {svc : Service} {before after : Store} {sealedSecret : Option Bytes} {id : UInt32}

theorem Enters.opens (h : e.Enters svc before after sealedSecret id) (now : Int) :
    ∃ secret, Opens svc (e.account before sealedSecret now) secret ∧
      ∀ bytes ∈ secret, ∃ text ∈ e.secret, Hex.decode text = .ok bytes := by
  obtain ⟨drawn, left, hp⟩ := h.prepared
  unfold ServiceCommand.prepareSecret at hp
  cases ht : e.secret with
  | none =>
    simp only [ht, Prod.mk.injEq, Except.ok.injEq] at hp
    exact ⟨none, .absent hp.1.symm, by simp⟩
  | some text =>
    rcases hr : StoredSecret.prepare text svc.masterKey drawn with ⟨stored, left'⟩
    cases stored with
    | error x => simp [ht, hr, Except.map] at hp
    | ok stored =>
      simp only [ht, hr, Except.map, Prod.mk.injEq, Except.ok.injEq] at hp
      obtain ⟨secret, hd, ho⟩ := StoredSecret.reveal_prepare hr
      refine ⟨some secret, .opened hp.1.symm ho, ?_⟩
      intro bytes hb
      cases hb
      exact ⟨text, rfl, hd⟩

end Enrolment

/-- A host over the store after a registration that keeps out neither the client nor the account, whose directory
works, and that waits for its clients. Its next private value makes a public value that is no multiple of the
prime. -/
structure Host.Admits (h : Host) (e : Enrolment) (before : Store) (sealedSecret : Option Bytes) (id : UInt32) : Prop
    where
  entered : e.Enters h.service before h.world.store sealedSecret id
  unconnected : h.served = none
  healthy : h.world.IsHealthy
  address : h.world.store.isIpBanned h.world.clock h.client.ip = false
  account : before.accountBans.any (·.covers (Enrolment.number before) h.world.clock) = false
  short : 0 < h.service.policy.shortTimeout
  long : 0 < h.service.policy.longTimeout
  names : ∀ r ∈ h.world.realms, ZeroFree r.name
  regular : Exchange.number (Server.start (Latin.upper e.name) e.salt
    (verifier (Latin.upper e.name) (Latin.upper e.password) e.salt) (h.world.entropy.peek 32)).publicKey % prime ≠ 0

/-- An identity, a password and a source of tokens that agree with what an account was registered with. -/
structure Identity.Presents (i : Identity) (svc : Service) (e : Enrolment) (password : String)
    (source : TokenSource) : Prop where
  login : Latin.upper i.login = Latin.upper e.name
  short : (Bytes.ofString (Latin.upper e.name)).length ≤ Challenge.maxLogin
  password : Latin.upper password = Latin.upper e.password
  secret : ∀ text ∈ e.secret, ∃ bytes, Hex.decode text = .ok bytes ∧ source = .secret bytes
  expansion : svc.builds.expansion i.build = i.expansion
  valid : i.expansion.isValid = true
  vouches : i.Vouches svc

theorem Session.refusal?_eq_none {a : Account} (hl : a.ipLocked = false) (hc : a.lockCountry = "00")
    (hb : a.isBanned = false) (geoip : GeoIp) (ip : Address) : refusal? geoip ip a = none := by
  have hlock : lock? geoip ip a = none := by
    simp only [lock?, hl, lockCountry?, hc, Bool.false_eq_true, if_false, or_true, if_true]
  simp only [refusal?, hlock, ban?, hb, Bool.false_eq_true, if_false]

section Registered

variable {h : Host} {e : Enrolment} {before : Store} {sealedSecret : Option Bytes} {id : UInt32} {i : Identity}
  {password : String} {source : TokenSource}

theorem Identity.Presents.suits (hi : i.Presents h.service e password source) (now : Int) :
    i.Suits h.service (e.account before sealedSecret now) :=
  ⟨hi.login, hi.short, hi.expansion, hi.valid⟩

theorem Identity.Presents.knows (hi : i.Presents h.service e password source) {secret : Option Bytes}
    (hs : ∀ bytes ∈ secret, ∃ text ∈ e.secret, Hex.decode text = .ok bytes) : source.Knows secret := by
  intro bytes hb
  obtain ⟨text, ht, hd⟩ := hs bytes hb
  obtain ⟨bytes', hd', hsource⟩ := hi.secret text ht
  rw [hd] at hd'
  cases hd'
  exact hsource

theorem Host.Admits.fetch (hh : h.Admits e before sealedSecret id)
    (hn : 0 ≤ Enrolment.number before ∧ Enrolment.number before < UInt32.size) :
    h.world.store.fetchByLogin h.world.clock (Latin.upper e.name) =
      .ok (some (e.account before sealedSecret h.world.clock)) := by
  rw [Store.fetchByLogin_createAccount hh.entered.created]
  exact if_pos hn

theorem Host.Admits.fetch_of_large (hh : h.Admits e before sealedSecret id)
    (hn : ¬(0 ≤ Enrolment.number before ∧ Enrolment.number before < UInt32.size)) :
    h.world.store.fetchByLogin h.world.clock (Latin.upper e.name) = .error .database := by
  rw [Store.fetchByLogin_createAccount hh.entered.created]
  exact if_neg hn

theorem Host.Admits.refusal? (hh : h.Admits e before sealedSecret id) (key : Option SessionKey) (lastIp : String)
    (failed : UInt32) :
    Session.refusal? h.service.geoip h.client.ip { e.account before sealedSecret h.world.clock with
      sessionKey := key, lastIp := lastIp, failedLogins := failed } = none :=
  refusal?_eq_none rfl rfl hh.account _ _

/-- The first connection: the new account is logged on to. -/
theorem Host.Admits.run_logon (hh : h.Admits e before sealedSecret id)
    (hi : i.Presents h.service e password source)
    (hn : 0 ≤ Enrolment.number before ∧ Enrolment.number before < UInt32.size) {client : World}
    (hclock : client.clock = h.world.clock) :
    ∃ (key : SessionKey) (record : LogonRecord) (h' : Host) (s : Session),
      (Talk.logon i password source).run (h.dial, client) =
        (.ok key, (h', { client with entropy := client.entropy.skip 32 })) ∧
      h'.service = h.service ∧ h'.client = h.client ∧ record.login = Latin.upper e.name ∧ record.sessionKey = key ∧
      h'.world.store = h.world.store.persistLogon h.world.clock record ∧ h.world.Keeps h'.world ∧
      h'.Stands (.waiting s []) [] ∧
      Talk.Authenticates s i h.client (e.account before sealedSecret h.world.clock).member := by
  obtain ⟨hservice, hclient, ha⟩ :=
    Host.awaits_dial (Host.leave_of_none hh.unconnected) hh.short hh.long hh.healthy hh.address
  let a := e.account before sealedSecret h.world.clock
  let w := h.world.called (.isIpBanned h.client.ip)
  have hf : w.store.fetchByLogin w.clock a.login = .ok (some a) := hh.fetch hn
  have hr : Session.refusal? h.dial.service.geoip h.client.ip a = none := by
    rw [hservice]
    exact hh.refusal? _ _ _
  obtain ⟨secret, ho, hs⟩ := hh.entered.opens h.world.clock
  have hp : a.verifier = verifier a.login (Latin.upper password) a.salt := by
    have hv : a.verifier = verifier (Latin.upper (Latin.upper e.name)) (Latin.upper e.password) e.salt := rfl
    rw [hv, Latin.upper_upper, hi.password]
    rfl
  have hb : Exchange.number (exchangeFor a (w.entropy.peek 32)).publicKey % prime ≠ 0 := by
    rw [exchangeFor, hp, hi.password]
    exact hh.regular
  obtain ⟨key, record, h', s, hrun, hservice', hclient', hlogin, hkey, hworld, hstands, hauth⟩ :=
    Talk.run_logon ha hh.healthy (hservice ▸ hi.suits h.world.clock) hf hr (hservice ▸ ho) (hservice ▸ hi.vouches)
      hp (hi.knows hs) hclock hb
  refine ⟨key, record, h', s, hrun, hservice'.trans hservice, hclient'.trans hclient, hlogin, hkey, ?_, ?_, hstands,
    hauth⟩
  · rw [hworld]
    rfl
  · rw [hworld]
    exact ⟨rfl, rfl, rfl⟩

/-- The second connection: the logon is resumed. -/
theorem Host.Admits.run_reconnect (hh : h.Admits e before sealedSecret id)
    (hi : i.Presents h.service e password source)
    (hn : 0 ≤ Enrolment.number before ∧ Enrolment.number before < UInt32.size) {record : LogonRecord}
    (hlogin : record.login = Latin.upper e.name) {g : Host} (hservice : g.service = h.service)
    (hclient : g.client = h.client) (hstore : g.world.store = h.world.store.persistLogon h.world.clock record)
    (hkeeps : h.world.Keeps g.world) {r : Rest} (hs : g.Stands r []) (client : World) :
    ∃ (h' : Host) (s : Session),
      (Talk.reconnect i record.sessionKey).run (g.dial, client) =
        (.ok (), (h', { client with entropy := client.entropy.skip 16 })) ∧
      h'.service = h.service ∧ h'.client = h.client ∧ h'.world.store = g.world.store ∧ h.world.Keeps h'.world ∧
      h'.Stands (.waiting s []) [] ∧
      Talk.Authenticates s i h.client (e.account before sealedSecret h.world.clock).member := by
  have hhealthy : g.world.IsHealthy := hkeeps.isHealthy hh.healthy
  have hban : g.world.store.isIpBanned g.world.clock g.client.ip = false := by
    rw [hstore, hkeeps.clock, hclient]
    exact hh.address
  obtain ⟨hdial, hdialled, ha⟩ :=
    Host.awaits_dial (Host.leave_of_stands hs) (hservice ▸ hh.short) (hservice ▸ hh.long) hhealthy hban
  rw [hclient] at ha
  let a : Account := { e.account before sealedSecret h.world.clock with
    sessionKey := some record.sessionKey, lastIp := record.ip.print, failedLogins := 0 }
  let w := g.world.called (.isIpBanned h.client.ip)
  have hf : w.store.fetchByLogin w.clock a.login = .ok (some a) := by
    have hw : w.store.fetchByLogin w.clock a.login =
        (h.world.store.persistLogon h.world.clock record).fetchByLogin h.world.clock record.login := by
      rw [hlogin, ← hstore, ← hkeeps.clock]
      rfl
    rw [hw]
    exact Store.fetchByLogin_persistLogon (hlogin ▸ hh.fetch hn)
  have hsuits : i.Suits h.service a := ⟨hi.login, hi.short, hi.expansion, hi.valid⟩
  have hr : Session.refusal? h.service.geoip h.client.ip a = none := hh.refusal? _ _ _
  obtain ⟨h', s, hrun, hservice', hclient', hworld, hstands, hauth⟩ :=
    Talk.run_reconnect ha hhealthy ((hdial.trans hservice) ▸ hsuits) hf ((hdial.trans hservice) ▸ hr) rfl client
  refine ⟨h', s, hrun, hservice'.trans (hdial.trans hservice), hclient'.trans (hdialled.trans hclient), ?_, ?_,
    hstands, hauth⟩
  · rw [hworld]
    rfl
  · rw [hworld]
    exact ⟨hkeeps.clock, hkeeps.realms, hkeeps.fails⟩

/-- An account whose number has more than 32 bits is unknown. -/
theorem Host.Admits.run_logon_unknown (hh : h.Admits e before sealedSecret id)
    (hi : i.Presents h.service e password source)
    (hn : ¬(0 ≤ Enrolment.number before ∧ Enrolment.number before < UInt32.size)) (client : World) :
    ∃ h' : Host, (Talk.logon i password source).run (h.dial, client) =
      (.error (.rejected .logonChallenge .unknownAccount), (h', client)) := by
  obtain ⟨hservice, -, ha⟩ :=
    Host.awaits_dial (Host.leave_of_none hh.unconnected) hh.short hh.long hh.healthy hh.address
  let a := e.account before sealedSecret h.world.clock
  let w := h.world.called (.isIpBanned h.client.ip)
  have hf : (w.store.fetchByLogin w.clock a.login).toOption.join = none := by
    have hw : w.store.fetchByLogin w.clock a.login = .error .database := hh.fetch_of_large hn
    rw [hw]
    rfl
  exact Talk.run_logon_unknown ha hh.healthy (hservice ▸ hi.suits h.world.clock) hf password source client

theorem Host.Admits.id_eq (hh : h.Admits e before sealedSecret id)
    (hn : 0 ≤ Enrolment.number before ∧ Enrolment.number before < UInt32.size) (now : Int) :
    (e.account before sealedSecret now).id = id := by
  have hid : id = UInt32.ofInt (Enrolment.number before) := (Store.createAccount_eq_ok hh.entered.created).1
  have hm : Enrolment.number before % 2 ^ 32 = Enrolment.number before := Int.emod_eq_of_lt hn.1 hn.2
  rw [hid, UInt32.ofInt, hm]
  rfl

end Registered

/-- An account that was registered can be logged on to, and the logon can be resumed, by everyone who presents what
it was registered with: both sides have one session key, which the directory keeps, and the client reads the
realms on either connection. This holds for numbers of 32 bits. An account with a larger number is created all
the same, and is unknown from then on. -/
theorem registered_account_logs_on (h : Host) (e : Enrolment) (before : Store) (sealedSecret : Option Bytes)
    (id : UInt32) (hh : h.Admits e before sealedSecret id) (i : Identity) (password : String) (source : TokenSource)
    (hi : i.Presents h.service e password source) (client : World) (hclock : client.clock = h.world.clock) :
    (0 ≤ Enrolment.number before ∧ Enrolment.number before < UInt32.size →
      ∃ (key : SessionKey) (h₁ h₂ h₃ h₄ : Host) (client₁ client₂ : World) (a : Account),
        (Talk.logon i password source).run (h.dial, client) = (.ok key, (h₁, client₁)) ∧
        h₁.world.store.fetchByLogin h₁.world.clock (Latin.upper e.name) = .ok (some a) ∧
        a.id = id ∧ a.sessionKey = some key ∧ a.failedLogins = 0 ∧
        (Talk.realmList i).run (h₁, client₁) = (.ok (h.listed i a.member), (h₂, client₁)) ∧
        (Talk.reconnect i key).run (h₂.dial, client₁) = (.ok (), (h₃, client₂)) ∧
        (Talk.realmList i).run (h₃, client₂) = (.ok (h.listed i a.member), (h₄, client₂))) ∧
    (¬(0 ≤ Enrolment.number before ∧ Enrolment.number before < UInt32.size) →
      ∃ h₁ : Host, (Talk.logon i password source).run (h.dial, client) =
        (.error (.rejected .logonChallenge .unknownAccount), (h₁, client))) := by
  refine ⟨fun hn => ?_, fun hn => hh.run_logon_unknown hi hn client⟩
  obtain ⟨key, record, h₁, s₁, hlogon, hservice₁, hclient₁, hlogin, rfl, hstore₁, hkeeps₁, hstands₁, hauth₁⟩ :=
    hh.run_logon hi hn hclock
  have hnames : ∀ {g : Host}, h.world.Keeps g.world → ∀ r ∈ g.world.realms, ZeroFree r.name := by
    intro g hg
    rw [hg.realms]
    exact hh.names
  have hfetch : h₁.world.store.fetchByLogin h₁.world.clock (Latin.upper e.name) =
      .ok (some { e.account before sealedSecret h.world.clock with
        sessionKey := some record.sessionKey, lastIp := record.ip.print, failedLogins := 0 }) := by
    rw [hstore₁, hkeeps₁.clock, ← hlogin]
    exact Store.fetchByLogin_persistLogon (hlogin ▸ hh.fetch hn)
  obtain ⟨h₂, hlist₁, hservice₂, hclient₂, hworld₂, r₂, hstands₂⟩ :=
    Talk.run_realmList hstands₁ (hclient₁ ▸ hauth₁) (hkeeps₁.isHealthy hh.healthy) (hnames hkeeps₁)
  have hkeeps₂ : h.world.Keeps h₂.world := by
    rw [hworld₂]
    exact ⟨hkeeps₁.clock, hkeeps₁.realms, hkeeps₁.fails⟩
  have hstore₂ : h₂.world.store = h.world.store.persistLogon h.world.clock record := by
    rw [hworld₂, ← hstore₁]
    rfl
  obtain ⟨h₃, s₃, hreconnect, hservice₃, hclient₃, hstore₃, hkeeps₃, hstands₃, hauth₃⟩ :=
    hh.run_reconnect hi hn hlogin (hservice₂.trans hservice₁) (hclient₂.trans hclient₁) hstore₂ hkeeps₂ hstands₂
      { client with entropy := client.entropy.skip 32 }
  obtain ⟨h₄, hlist₃, -⟩ :=
    Talk.run_realmList hstands₃ (hclient₃ ▸ hauth₃) (hkeeps₃.isHealthy hh.healthy) (hnames hkeeps₃)
  have hcharacters₁ : h₁.world.store.characters = h.world.store.characters := by
    rw [hstore₁]
    rfl
  have hcharacters₃ : h₃.world.store.characters = h.world.store.characters := by
    rw [hstore₃, hstore₂]
    rfl
  have hid : (e.account before sealedSecret h.world.clock).id = id := hh.id_eq hn h.world.clock
  refine ⟨record.sessionKey, h₁, h₂, h₃, h₄, _, _, _, hlogon, hfetch, hid, rfl, rfl, ?_, hreconnect, ?_⟩
  · rw [hlist₁, Host.listed_congr hservice₁ hclient₁ hkeeps₁.realms hcharacters₁]
    rfl
  · rw [hlist₃, Host.listed_congr hservice₃ hclient₃ hkeeps₃.realms hcharacters₃]
    rfl

/-! A tester is registered in an empty store. -/

namespace Tester

def enrolment : Enrolment := ⟨"tester", "secret", 0, none, .zero 32⟩

def identity : Identity := ⟨"Tester", 12340, ⟨[3, 3, 5], rfl⟩, "x86", "Win", "enUS", .post, none⟩

/-- A store that has no account, and that has given so many numbers. -/
def before (last : Int) : Store := { Store.empty with accounts := ⟨[], last⟩ }

def host (last : Int) : Host where
  service := ⟨⟨true, 0, 0, .account, 10, 60⟩, ⟨⟨1, 0⟩, ⟨12340, 12340⟩, []⟩, .empty, none⟩
  client := ⟨.v4 0x7F000001, 4000⟩
  world :=
    ⟨((before last).createAccount enrolment.salt enrolment.name enrolment.password enrolment.security none).2,
      0, ⟨fun _ => 0, 0⟩, [], fun _ _ => false, []⟩
  served := none

theorem upper_name : Latin.upper enrolment.name = "TESTER" := Latin.upper_eq (by decide +kernel)

theorem upper_login : Latin.upper identity.login = "TESTER" := Latin.upper_eq (by decide +kernel)

theorem upper_password : Latin.upper enrolment.password = "SECRET" := Latin.upper_eq (by decide +kernel)

theorem regular (last : Int) : number (Server.start (Latin.upper enrolment.name) enrolment.salt
    (verifier (Latin.upper enrolment.name) (Latin.upper enrolment.password) enrolment.salt)
    ((host last).world.entropy.peek 32)).publicKey % prime ≠ 0 := by
  rw [upper_name, upper_password]
  have h : number (Server.start "TESTER" (.zero 32) (verifier "TESTER" "SECRET" (.zero 32))
      (Entropy.peek ⟨fun _ => 0, 0⟩ 32)).publicKey % prime ≠ 0 := by decide +kernel
  exact h

theorem admits {last : Int} {id : UInt32}
    (h : enrolment.Enters (host last).service (before last) (host last).world.store none id) :
    (host last).Admits enrolment (before last) none id where
  entered := h
  unconnected := rfl
  healthy := fun _ _ => rfl
  address := by
    obtain ⟨-, -, hstore⟩ := Store.createAccount_eq_ok h.created
    rw [hstore]
    rfl
  account := rfl
  short := show 0 < 10 by decide
  long := show 0 < 60 by decide
  names := by
    intro r hr
    cases hr
  regular := regular last

theorem presents (last : Int) : identity.Presents (host last).service enrolment "secret" .absent where
  login := upper_login.trans upper_name.symm
  short := by
    rw [upper_name]
    decide +kernel
  password := rfl
  secret := by simp [enrolment]
  expansion := rfl
  valid := rfl
  vouches := .inr (.inl rfl)

/-- The tester logs on to its account if the account has the first number, and does not if it has the first number
that has more than 32 bits. -/
theorem logs_on_first_account :
    (∃ (key : SessionKey) (h : Host) (client : World),
      (Talk.logon identity "secret" .absent).run ((host 0).dial, (host 0).world) = (.ok key, (h, client))) ∧
    (∃ h : Host, (Talk.logon identity "secret" .absent).run ((host 4294967295).dial, (host 4294967295).world) =
      (.error (.rejected .logonChallenge .unknownAccount), (h, (host 4294967295).world))) := by
  constructor
  · have hh : (host 0).Admits enrolment (before 0) none 1 := admits ⟨⟨⟨fun _ => 0, 0⟩, _, rfl⟩, rfl⟩
    obtain ⟨key, h, _, _, _, client, _, _, hlogon, -⟩ :=
      (registered_account_logs_on _ _ _ _ _ hh _ _ _ (presents 0) _ rfl).1 (by decide)
    exact ⟨key, h, client, hlogon⟩
  · have hh : (host 4294967295).Admits enrolment (before 4294967295) none 0 :=
      admits ⟨⟨⟨fun _ => 0, 0⟩, _, rfl⟩, rfl⟩
    exact (registered_account_logs_on _ _ _ _ _ hh _ _ _ (presents 4294967295) _ rfl).2 (by decide)

end Tester

end RealmLogon
