import RealmLogon.Proofs.Connection.Attempt
import RealmLogon.Proofs.Connection.Lockout
import RealmLogon.Proofs.Directory.Reports

/-! Wrong proofs one after the other, for one account and from one address. The one that comes to the limit bans, and
while the ban lasts nobody gets as far as another proof. -/

namespace RealmLogon

open Directory Exchange

namespace Connection

open Session

def isBan : Call → Bool
  | .autoBan .. => true
  | _ => false

def tallied (account : Account) (n : Nat) : Account := { account with failedLogins := .ofNat n }

variable {svc : Service} {ip : Address} {login : String} {w w' : World} {a : Attempt} {account : Account}
  {secret : Option Bytes} {during : Int → Prop} {banned : Bool} {t : List Event} {s : Session} {n : Nat}

/-- An account that may log on is refused as suspended when it is banned for a while. -/
theorem suspended_of_allowed (h : refusal? svc.geoip ip account = none) :
    refusal? svc.geoip ip { account with isBanned := true, isPermanentlyBanned := false } = some .suspended := by
  obtain ⟨hlock, -⟩ := refusal?_eq_none_iff.mp h
  have hlock : lock? svc.geoip ip { account with isBanned := true, isPermanentlyBanned := false } = none := hlock
  simp only [refusal?, hlock]
  rfl

/-- For a while, a directory bars whom the policy bans. -/
def Bars (svc : Service) (s : Store) (during : Int → Prop) (login : String) (ip : Address) (secret : Option Bytes) :
    Prop :=
  match svc.policy.banScope with
  | .account => ∃ account, s.Reports during login ip account false ∧
      refusal? svc.geoip ip account = some .suspended ∧ Opens svc account secret
  | .ip => ∃ account, s.Reports during login ip account true

theorem bars_ban {s : Store} {now : Int} (hr : s.Reports (now ≤ ·) login ip account false)
    (hv : refusal? svc.geoip ip account = none) (ho : Opens svc account secret) (hT : 1 ≤ svc.policy.banTime) :
    Bars svc (s.ban (banTarget svc.policy account.member ip) now (now + svc.policy.banTime))
      (Store.During now svc.policy.banTime) login ip secret := by
  unfold Bars banTarget
  cases svc.policy.banScope with
  | account =>
    obtain ⟨-, hbanned⟩ := refusal?_eq_none_iff.mp hv
    refine ⟨_, hr.ban_account hbanned hT, suspended_of_allowed hv, ?_⟩
    exact ho.congr rfl
  | ip => exact ⟨_, hr.ban_ip hT⟩

/-- Whenever it begins until some time, an automatic ban has an end that can be stored. -/
def HasTime (p : Policy) (start finish : Int) : Prop :=
  ∀ t, start ≤ t → t ≤ finish → Store.timeAfter? t p.banTime = some (t + p.banTime)

theorem reports_recorded {store : Store} {now : Int} (hr : store.Reports during login ip (tallied account n) banned)
    (hd : during now) (hn : n + 1 < UInt32.size) :
    (store.recordFailedLogin login).1 = .ok (.ofNat (n + 1)) ∧
      (store.recordFailedLogin login).2.Reports during login ip (tallied account (n + 1)) banned := by
  have hless : (tallied account n).failedLogins.toNat < UInt32.size - 1 := by
    rw [tallied, UInt32.toNat_ofNat_of_lt' (by omega)]
    omega
  have hnext : (tallied account n).failedLogins + 1 = .ofNat (n + 1) := (UInt32.ofNat_add n 1).symm
  have hcounted := hr.recordFailedLogin hd hless
  rw [hnext] at hcounted
  exact hcounted

namespace Attempt

def Lasts (a : Attempt) (w : World) (during : Int → Prop) : Prop := ∀ t, w.clock ≤ t → t ≤ a.world.clock → during t

theorem Lasts.passed {w₁ : World} (hl : a.Lasts w during) (hp : w.Passes w₁) (hc : w₁.Consulted t a.world) :
    during w₁.clock := hl _ hp.clock hc.clock_le

theorem Lasts.of_passes {w₁ : World} (hl : a.Lasts w during) (hp : w.Passes w₁) : a.Lasts w₁ during :=
  fun t ht => hl t (Int.le_trans hp.clock ht)

theorem admission_eq (hw : w.IsHealthy) (hr : w.store.Reports during login ip account banned)
    (hl : a.Lasts w during) {r : Except DirectoryError Bool} (hc : w.Consulted (.called (.isIpBanned ip) r :: t) a.world) :
    r = .ok banned ∧ ∃ w₁, w.Passes w₁ ∧ w₁.Consulted t a.world := by
  obtain ⟨w₁, hp, hanswer, hc⟩ := hc.read hw fun _ _ => rfl
  refine ⟨?_, w₁, hp, hc⟩
  rw [← hr.address _ (hl.passed hp hc)]
  exact hanswer

theorem lookup_eq (hw : w.IsHealthy) (hr : w.store.Reports during login ip account banned)
    (hl : a.Lasts w during) {r : Except DirectoryError (Option Account)}
    (hc : w.Consulted (.called (.fetchByLogin login) r :: t) a.world) :
    r = .ok (some account) ∧ ∃ w₁, w.Passes w₁ ∧ w₁.Consulted t a.world := by
  obtain ⟨w₁, hp, hanswer, hc⟩ := hc.read hw fun _ _ => rfl
  refine ⟨?_, w₁, hp, hc⟩
  rw [← hr.account _ (hl.passed hp hc)]
  exact hanswer

theorem Course.of_banned (h : Course svc a t s) (hs : s.phase = .closed) (hw : w.IsHealthy)
    (hr : w.store.Reports during login a.peer.ip account true) (hl : a.Lasts w during) (hc : w.Consulted t a.world) :
    t = [.called (.isIpBanned a.peer.ip) (.ok true), .replied bannedReply] ∧ a.world.store = w.store := by
  cases h with
  | turnedAway hb =>
    obtain ⟨rfl, w₁, hp, hc⟩ := admission_eq hw hr hl hc
    obtain rfl := World.consulted_nil_iff.mp (World.consulted_replied_iff.mp hc)
    exact ⟨rfl, hp.store⟩
  | opened hb => cases hs
  | offered o ho hf => cases hs
  | refused hb h hs =>
    obtain ⟨rfl, -⟩ := admission_eq hw hr hl hc
    cases hb
  | rejected o ho hf hcount =>
    obtain ⟨hbanned, -⟩ := admission_eq hw hr hl hc
    have hadmitted := ho.admitted
    rw [hbanned] at hadmitted
    cases hadmitted

theorem recording_eq (hw : w.IsHealthy) (hr : w.store.Reports (w.clock ≤ ·) login ip (tallied account n) banned)
    (hn : n + 1 < UInt32.size) {r : Except DirectoryError UInt32}
    (hc : w.Consulted (.called (.recordFailedLogin login) r :: t) w') :
    r = .ok (.ofNat (n + 1)) ∧ ∃ w₁ : World, w₁.IsHealthy ∧ w.clock ≤ w₁.clock ∧
      w₁.store.Reports (w.clock ≤ ·) login ip (tallied account (n + 1)) banned ∧ w₁.Consulted t w' := by
  obtain ⟨w₁, hp, hanswer, hc⟩ := hc.performed hw
  obtain ⟨hcount, hafter⟩ := reports_recorded (hp.store.symm ▸ hr) hp.clock hn
  refine ⟨?_, w₁.called (.recordFailedLogin login), hp.isHealthy hw, hp.clock, hafter, hc⟩
  rw [← hcount, hp.store]
  exact hanswer

/-- What comes after the look-up of an account. -/
inductive Fate (svc : Service) (a : Attempt) (account : Account) (secret : Option Bytes) : List Event → Prop
  | refused {v : Verdict} (hv : refusal? svc.geoip a.peer.ip account = some v) :
      Fate svc a account secret [.replied (ChallengeReply.failure v).encode]
  | rejected (hv : refusal? svc.geoip a.peer.ip account = none) (key : Key) {es : List Event}
      (hc : PasswordCounted svc account.member a.peer.ip es) :
      Fate svc a account secret (.asked (.draw 32) key :: .replied (offerFor (exchangeFor account key) secret).encode ::
        .taken .logonProof .logonProof a.proofFrame :: es ++ closing es)

theorem fate_of_challenged (ha : a.Framed) (hb : (svc.builds.expansion a.challenge.build).isValid = true)
    (ho : Opens svc account secret) (hw : w.IsHealthy)
    (hr : w.store.Reports during (Text.Latin.upper a.challenge.login) a.peer.ip account false) (hl : a.Lasts w during)
    {es : List Event} {reply : Bytes}
    (h : LogonChallenged svc { peer := a.peer } a.challengeFrame es (s, .ok reply)) (hs : s.phase = .closed)
    (hc : w.Consulted (es ++ [.replied reply]) a.world) :
    ∃ rest w₁, es ++ [.replied reply] = .called (lookup a.challenge) (.ok (some account)) :: rest ∧
      w.Passes w₁ ∧ w₁.Consulted rest a.world ∧ Fate svc a account secret rest := by
  have hlook {r : Except DirectoryError (Option Account)} {c : Challenge} {u : List Event}
      (hd : Challenge.decode a.challengeFrame = .ok c) (he : es = .called (lookup c) r :: u) :
      c = a.challenge ∧ r = .ok (some account) ∧ ∃ w₁, w.Passes w₁ ∧ w₁.Consulted (u ++ [.replied reply]) a.world := by
    obtain rfl := Except.ok.inj (ha.readsChallenge.symm.trans hd)
    rw [he] at hc
    obtain ⟨haccount, w₁, hp, hc⟩ := lookup_eq hw hr hl hc
    exact ⟨rfl, haccount, w₁, hp, hc⟩
  cases h with
  | unknown hd hnone =>
    obtain ⟨-, rfl, -⟩ := hlook hd rfl
    cases hnone
  | refused hd hv =>
    obtain ⟨rfl, haccount, w₁, hp, hrest⟩ := hlook hd rfl
    cases haccount
    exact ⟨_, w₁, rfl, hp, hrest, .refused hv⟩
  | unopened hd hv hsealed hfail =>
    obtain ⟨-, haccount, -⟩ := hlook hd rfl
    cases haccount
    cases ho with
    | absent hn => cases hsealed.symm.trans hn
    | opened hn hreveal =>
      cases hsealed.symm.trans hn
      cases hfail.symm.trans hreveal
  | unsupported hd hv hopens hinvalid =>
    obtain ⟨rfl, -⟩ := hlook hd rfl
    rw [hb] at hinvalid
    cases hinvalid
  | offered hd hv hopens hvalid key => cases hs

theorem Course.fate (h : Course svc a t s) (hs : s.phase = .closed) (ha : a.Framed)
    (hb : (svc.builds.expansion a.challenge.build).isValid = true) (ho : Opens svc account secret) (hw : w.IsHealthy)
    (hr : w.store.Reports during (Text.Latin.upper a.challenge.login) a.peer.ip account false) (hl : a.Lasts w during)
    (hc : w.Consulted t a.world) :
    ∃ rest w₁, t = [.called (.isIpBanned a.peer.ip) (.ok false), .taken .challenge .logonChallenge a.challengeFrame,
      .called (lookup a.challenge) (.ok (some account))] ++ rest ∧
      w.Passes w₁ ∧ w₁.Consulted rest a.world ∧ Fate svc a account secret rest := by
  cases h with
  | opened hbanned => cases hs
  | offered o hg hf => cases hs
  | turnedAway hbanned =>
    obtain ⟨rfl, -⟩ := admission_eq hw hr hl hc
    cases hbanned
  | refused hbanned h hs =>
    obtain ⟨rfl, w₁, hp, hc⟩ := admission_eq hw hr hl hc
    obtain ⟨rest, w₂, he, hp₂, hrest, hfate⟩ := fate_of_challenged ha hb ho (hp.isHealthy hw) (hp.store.symm ▸ hr)
      (hl.of_passes hp) h hs (World.consulted_taken_iff.mp hc)
    refine ⟨rest, w₂, ?_, hp.trans hp₂, hrest, hfate⟩
    rw [List.cons_append, List.cons_append, he]
    rfl
  | rejected o hg hf hcount =>
    rename_i es
    obtain ⟨banned, frame, challenge, account', secret', key⟩ := o
    obtain rfl : frame = a.challengeFrame := hf
    obtain rfl := Except.ok.inj (ha.readsChallenge.symm.trans hg.decodes)
    obtain ⟨rfl, w₁, hp, hc⟩ := admission_eq hw hr hl hc
    obtain ⟨haccount, w₂, hp₂, hc⟩ := lookup_eq (hp.isHealthy hw) (hp.store.symm ▸ hr) (hl.of_passes hp)
      (World.consulted_taken_iff.mp hc)
    cases haccount
    obtain rfl := ho.unique hg.opens
    exact ⟨_, w₂, rfl, hp.trans hp₂, hc, .rejected hg.allowed key hcount⟩

theorem counted_tallied (h : PasswordCounted svc account.member ip t) (hn : n < svc.policy.maxWrongPasswords)
    (hsize : svc.policy.maxWrongPasswords < UInt32.size) (hw : w.IsHealthy)
    (hr : w.store.Reports (w.clock ≤ ·) login ip (tallied account n) false)
    (htime : HasTime svc.policy w.clock w'.clock) (hc : w.Consulted (t ++ closing t) w') :
    t ++ closing t = penalty svc account.member ip (.ofNat (n + 1)) (.ok ()) ∧
    ∃ s : Store, s.Reports (w'.clock ≤ ·) login ip (tallied account (n + 1)) false ∧
      w'.store = if n + 1 < svc.policy.maxWrongPasswords then s
        else s.ban (banTarget svc.policy account.member ip) w'.clock (w'.clock + svc.policy.banTime) := by
  have hlogin : account.member.login = login :=
    Store.login_of_fetchByLogin (a := tallied account n) (hr.account _ (Int.le_refl _))
  have hnumber : (UInt32.ofNat (n + 1)).toNat = n + 1 := UInt32.toNat_ofNat_of_lt' (by omega)
  cases h with
  | uncounted hm => omega
  | uncountable hm e =>
    obtain ⟨he, -⟩ := recording_eq hw hr (by omega) (hlogin ▸ hc)
    cases he
  | counted hm hless =>
    obtain ⟨he, w₁, hw₁, hle, hr₁, hrest⟩ := recording_eq hw hr (by omega) (hlogin ▸ hc)
    cases he
    obtain rfl := World.consulted_nil_iff.mp (World.consulted_replied_iff.mp hrest)
    rw [hnumber] at hless
    rw [penalty, hnumber, if_pos hless]
    refine ⟨rfl, _, hr₁.mono fun u hu => Int.le_trans hle hu, ?_⟩
    rw [if_pos hless]
  | banned hm hmany r =>
    obtain ⟨he, w₁, hw₁, hle, hr₁, hrest⟩ := recording_eq hw hr (by omega) (hlogin ▸ hc)
    cases he
    obtain ⟨w₂, hp, rfl, hlast⟩ := World.Consulted.performed hrest hw₁
    -- The ban has an end, so the program goes on.
    have hban : (Call.autoBan (banTarget svc.policy account.member ip) svc.policy.banTime).perform w₁.store w₂.clock =
        (.ok (), w₁.store.ban (banTarget svc.policy account.member ip) w₂.clock (w₂.clock + svc.policy.banTime)) :=
      Store.autoBan_of_some _ _ (htime _ (Int.le_trans hle hp.clock) hlast.clock_le)
    rw [hban] at hlast ⊢
    obtain rfl := World.consulted_nil_iff.mp (World.consulted_replied_iff.mp hlast)
    rw [hnumber] at hmany
    rw [penalty, hnumber, if_neg hmany]
    refine ⟨rfl, _, hr₁.mono fun u hu => ?_, ?_⟩
    · exact Int.le_trans hle (Int.le_trans hp.clock hu)
    · rw [if_neg hmany]
      have hstore := congrArg Prod.snd hban
      rw [← hp.store] at hstore ⊢
      exact hstore

/-- An attempt that is offered an exchange and fails at it, as one of a number of wrong passwords. The one that comes to
the limit bans. -/
structure Rejected (svc : Service) (ip : Address) (login : String) (account : Account) (secret : Option Bytes) (n : Nat)
    (a : Attempt) : Prop where
  replied : ∃ key, replies a.history =
    [(offerFor (exchangeFor account key) secret).encode, [0x01, 0x04, 0x00, 0x00]]
  written : a.out = (replies a.history).flatten
  tried : .taken .logonProof .logonProof a.proofFrame ∈ a.history
  asked : calls a.history = [.isIpBanned ip, .fetchByLogin login, .recordFailedLogin login] ++
    if n = svc.policy.maxWrongPasswords then [.autoBan (banTarget svc.policy account.member ip) svc.policy.banTime]
    else []

/-- An attempt that does not get as far as its proof: it is suspended at the challenge, or it is turned away before
anything is read. -/
structure Barred (svc : Service) (ip : Address) (login : String) (a : Attempt) : Prop where
  replied : replies a.history = match svc.policy.banScope with
    | .account => [[0x00, 0x00, 0x0C]]
    | .ip => [[0x00, 0x00, 0x03]]
  written : a.out = (replies a.history).flatten
  untried : Untried a.history
  unread : svc.policy.banScope = .ip → input a.history a.connection = []
  asked : calls a.history = match svc.policy.banScope with
    | .account => [.isIpBanned ip, .fetchByLogin login]
    | .ip => [.isIpBanned ip]

def mistake (a : Attempt) (account : Account) (secret : Option Bytes) (key : Key) : Mistake :=
  ⟨⟨.ok false, a.challengeFrame, a.challenge, account, secret, key⟩, a.proofFrame, a.proof⟩

/-- On an account that may log on an attempt is a wrong password, and the penalty follows. -/
theorem Made.failed (h : a.Made svc ip login w) (hw : w.IsHealthy)
    (hr : w.store.Reports (w.clock ≤ ·) login ip (tallied account n) false)
    (hv : refusal? svc.geoip ip account = none) (ho : Opens svc account secret)
    (hn : n < svc.policy.maxWrongPasswords) (hsize : svc.policy.maxWrongPasswords < UInt32.size)
    (htime : HasTime svc.policy w.clock a.world.clock) :
    (∃ key, a.history = (a.mistake (tallied account n) secret key).history a.peer ++
      penalty svc account.member ip (.ofNat (n + 1)) (.ok ())) ∧
    ∃ s : Store, s.Reports (a.world.clock ≤ ·) login ip (tallied account (n + 1)) false ∧
      a.world.store = if n + 1 < svc.policy.maxWrongPasswords then s
        else s.ban (banTarget svc.policy account.member ip) a.world.clock (a.world.clock + svc.policy.banTime) := by
  obtain ⟨hcourse, hp, -⟩ := h.closed
  obtain rfl := h.address
  obtain rfl := h.named
  have ho : Opens svc (tallied account n) secret := ho.congr rfl
  obtain ⟨rest, w₁, ht, hp₁, hc, hfate⟩ := hcourse.fate hp h.framed h.supported ho hw hr (fun u hu _ => hu)
    h.paid.consulted
  cases hfate with
  | refused hv' => cases hv.symm.trans hv'
  | rejected hv' key hcount =>
    rename_i es
    have hcount : PasswordCounted svc account.member a.peer.ip es := hcount
    obtain ⟨w₂, hp₂, hc⟩ := World.Consulted.drawn hc
    have hp := hp₁.trans hp₂
    have hr₂ : w₂.store.Reports (w₂.clock ≤ ·) (Text.Latin.upper a.challenge.login) a.peer.ip (tallied account n) false :=
      hp.store.symm ▸ hr.mono fun u hu => Int.le_trans hp.clock hu
    have htime₂ : HasTime svc.policy w₂.clock a.world.clock := fun u hu => htime u (Int.le_trans hp.clock hu)
    obtain ⟨hes, hstore⟩ := counted_tallied hcount hn hsize (hp.isHealthy hw) hr₂ htime₂
      (World.consulted_taken_iff.mp (World.consulted_replied_iff.mp hc))
    refine ⟨⟨key, ?_⟩, hstore⟩
    rw [← hes]
    exact ht

theorem Made.written (h : a.Made svc ip login w) : a.out = (replies a.history).flatten := by
  rw [h.out_eq, flatMap_sent]

theorem Made.rejected (h : a.Made svc ip login w) (hlogin : account.login = login)
    (hsize : n + 1 < UInt32.size) (hn : n < svc.policy.maxWrongPasswords) {key : Key}
    (hhistory : a.history = (a.mistake (tallied account n) secret key).history a.peer ++
      penalty svc account.member ip (.ofNat (n + 1)) (.ok ())) : a.Rejected svc ip login account secret (n + 1) := by
  have hnumber : (UInt32.ofNat (n + 1)).toNat = n + 1 := UInt32.toNat_ofNat_of_lt' hsize
  refine ⟨⟨key, ?_⟩, h.written, ?_, ?_⟩
  · rw [hhistory, replies_append, replies_penalty _ _ _ _ rfl]
    rfl
  · rw [hhistory]
    exact List.mem_append_left _ (mem_history a.peer _)
  · obtain rfl := h.address
    obtain rfl := h.named
    have hmember : account.member.login = Text.Latin.upper a.challenge.login := hlogin
    rw [hhistory, calls_append, calls_history, calls_penalty, hnumber, hmember]
    by_cases hlast : n + 1 = svc.policy.maxWrongPasswords
    · rw [if_neg (by omega), if_pos hlast]
      rfl
    · rw [if_pos (by omega), if_neg hlast]
      rfl

/-- Where there is a ban of the address or of the account, there is no attempt at a proof. -/
theorem Made.barred (h : a.Made svc ip login w) (hw : w.IsHealthy) (hb : Bars svc w.store during login ip secret)
    (hl : a.Lasts w during) : a.Barred svc ip login ∧ a.world.store = w.store := by
  obtain ⟨hcourse, hp, hunread⟩ := h.closed
  have hwritten := h.written
  obtain rfl := h.address
  obtain rfl := h.named
  unfold Bars at hb
  split at hb
  · rename_i hscope
    obtain ⟨account, hr, hv, ho⟩ := hb
    obtain ⟨rest, w₁, ht, hp₁, hc, hfate⟩ := hcourse.fate hp h.framed h.supported ho hw hr hl h.paid.consulted
    cases hfate with
    | rejected hv' key hcount => cases hv.symm.trans hv'
    | refused hv' =>
      cases hv.symm.trans hv'
      have hlast := World.consulted_nil_iff.mp (World.consulted_replied_iff.mp hc)
      refine ⟨⟨?_, hwritten, ?_, ?_, ?_⟩, by rw [hlast, hp₁.store]⟩
      · rw [ht, hscope]
        rfl
      · rw [ht]
        simp [Untried]
      · rw [hscope]
        rintro ⟨⟩
      · rw [ht, hscope]
        rfl
  · rename_i hscope
    obtain ⟨account, hr⟩ := hb
    obtain ⟨ht, hstore⟩ := hcourse.of_banned hp hw hr hl h.paid.consulted
    refine ⟨⟨?_, hwritten, ?_, fun _ => ?_, ?_⟩, hstore⟩
    · rw [ht, hscope]
      rfl
    · rw [ht]
      simp [Untried]
    · have hnone : Unheard a.history := by
        rw [ht]
        simp [Unheard]
      rw [input, hunread hnone, ht]
      rfl
    · rw [ht, hscope]
      rfl

def bans (as : List Attempt) : Nat := (as.flatMap fun a => calls a.history).countP isBan

@[simp] theorem bans_nil : bans [] = 0 := rfl

theorem bans_cons (a : Attempt) (as : List Attempt) : bans (a :: as) = bans [a] + bans as := by
  simp [bans]

theorem Rejected.bans_eq (h : a.Rejected svc ip login account secret n) :
    bans [a] = if n = svc.policy.maxWrongPasswords then 1 else 0 := by
  rw [bans, List.flatMap_singleton, h.asked]
  by_cases hn : n = svc.policy.maxWrongPasswords <;> simp [isBan, hn]

theorem Barred.bans_eq (h : a.Barred svc ip login) : bans [a] = 0 := by
  rw [bans, List.flatMap_singleton, h.asked]
  cases svc.policy.banScope <;> simp [isBan]

end Attempt

/-- Attempts one after the other. Each begins in the world that the one before it has left. -/
inductive Siege (svc : Service) (ip : Address) (login : String) : World → List Attempt → World → Prop
  | nil (w : World) : Siege svc ip login w [] w
  | cons {w w' : World} {a : Attempt} {as : List Attempt} (h : a.Made svc ip login w)
      (hs : Siege svc ip login a.world as w') : Siege svc ip login w (a :: as) w'

variable {as : List Attempt}

theorem Siege.clock_le (h : Siege svc ip login w as w') : w.clock ≤ w'.clock := by
  induction h with
  | nil w => exact Int.le_refl _
  | cons h hs ih => exact Int.le_trans h.paid.consulted.clock_le ih

/-- While a ban lasts, nobody gets as far as a proof. -/
theorem Siege.barred (h : Siege svc ip login w as w') (hw : w.IsHealthy)
    (hb : Bars svc w.store during login ip secret) (hd : ∀ t, w.clock ≤ t → t ≤ w'.clock → during t) :
    (∀ a ∈ as, a.Barred svc ip login) ∧ Attempt.bans as = 0 := by
  induction h with
  | nil w => exact ⟨List.forall_mem_nil _, Attempt.bans_nil⟩
  | cons h hs ih =>
    have hle := h.paid.consulted.clock_le
    obtain ⟨ha, hstore⟩ := h.barred hw hb fun t ht hu => hd t ht (Int.le_trans hu hs.clock_le)
    obtain ⟨has, hbans⟩ := ih (h.paid.consulted.isHealthy hw) (hstore.symm ▸ hb)
      fun t ht => hd t (Int.le_trans hle ht)
    refine ⟨?_, ?_⟩
    · rw [List.forall_mem_cons]
      exact ⟨ha, has⟩
    · rw [Attempt.bans_cons, ha.bans_eq, hbans]

/-- A policy that bans for some time after some wrong passwords. -/
structure LocksOut (p : Policy) : Prop where
  counts : 1 ≤ p.maxWrongPasswords
  bounded : p.maxWrongPasswords < UInt32.size
  lasts : 1 ≤ p.banTime
  ends : p.banTime ≤ 0x80000000

theorem LocksOut.hasTime {p : Policy} (h : LocksOut p) {start finish : Int} (hstart : 0 ≤ start)
    (hend : finish ≤ 0x10000000000) : HasTime p start finish := by
  intro t ht hle
  have hends := h.ends
  have hin : Cell.inRange (t + p.banTime) = true := by
    rw [Cell.inRange_iff]
    omega
  rw [Store.timeAfter?_eq (by omega), if_pos hin]

/-- The ban at the limit ends a siege for a while. -/
theorem Siege.barred_of_ban (h : Siege svc ip login w as w') (hp : LocksOut svc.policy) (hw : w.IsHealthy)
    {s : Store} (hr : s.Reports (w.clock ≤ ·) login ip account false)
    (hstore : w.store = s.ban (banTarget svc.policy account.member ip) w.clock (w.clock + svc.policy.banTime))
    (hv : refusal? svc.geoip ip account = none) (ho : Opens svc account secret)
    (hlasts : w'.clock < w.clock + svc.policy.banTime) :
    (∀ a ∈ as, a.Barred svc ip login) ∧ Attempt.bans as = 0 := by
  have hbars : Bars svc w.store (Store.During w.clock svc.policy.banTime) login ip secret :=
    hstore ▸ bars_ban hr hv ho hp.lasts
  exact h.barred hw hbars fun t ht hle => ⟨ht, Int.lt_of_le_of_lt hle hlasts⟩

/-- The wrong passwords are counted up to the limit, and those that follow are not heard. -/
theorem Siege.counted (h : Siege svc ip login w as w') (hp : LocksOut svc.policy) (hw : w.IsHealthy)
    (hr : w.store.Reports (w.clock ≤ ·) login ip (tallied account n) false)
    (hv : refusal? svc.geoip ip account = none) (ho : Opens svc account secret)
    (hn : n < svc.policy.maxWrongPasswords) (hstart : 0 ≤ w.clock) (hend : w'.clock ≤ 0x10000000000)
    (hlasts : ∀ a, as[svc.policy.maxWrongPasswords - 1 - n]? = some a → w'.clock < a.world.clock + svc.policy.banTime) :
    (∀ j a, as[j]? = some a →
      (n + j < svc.policy.maxWrongPasswords → a.Rejected svc ip login account secret (n + j + 1)) ∧
      (svc.policy.maxWrongPasswords ≤ n + j → a.Barred svc ip login)) ∧
    Attempt.bans as = if svc.policy.maxWrongPasswords ≤ n + as.length then 1 else 0 := by
  -- Along the attempts; with the count so far it is known which of them comes to the limit.
  induction h generalizing n with
  | nil w =>
    refine ⟨fun j a hj => ?_, ?_⟩
    · cases hj
    · rw [Attempt.bans_nil, List.length_nil, if_neg (by omega)]
  | cons h hs ih =>
    rename_i w w' a as
    obtain ⟨⟨key, hhistory⟩, s, hreports, hstore⟩ := h.failed hw hr hv ho hn hp.bounded
      (hp.hasTime hstart (Int.le_trans hs.clock_le hend))
    have hlogin : account.login = login :=
      Store.login_of_fetchByLogin (a := tallied account n) (hr.account _ (Int.le_refl _))
    have ha := h.rejected hlogin (Nat.lt_of_le_of_lt hn hp.bounded) hn hhistory
    have hw' := h.paid.consulted.isHealthy hw
    have hafter := Int.le_trans hstart h.paid.consulted.clock_le
    rw [Attempt.bans_cons, ha.bans_eq, List.length_cons]
    by_cases hnext : n + 1 < svc.policy.maxWrongPasswords
    · rw [if_pos hnext] at hstore
      have hindex : svc.policy.maxWrongPasswords - 1 - n = svc.policy.maxWrongPasswords - 1 - (n + 1) + 1 := by omega
      rw [hindex] at hlasts
      obtain ⟨has, hbans⟩ := ih hw' (hstore ▸ hreports) hnext hafter hend hlasts
      refine ⟨?_, ?_⟩
      · rintro (_ | j) b hb
        · cases hb
          exact ⟨fun _ => ha, fun hle => by omega⟩
        · rw [show n + (j + 1) = n + 1 + j by omega]
          exact has j b hb
      · rw [hbans, if_neg (by omega), Nat.zero_add, show n + (as.length + 1) = n + 1 + as.length by omega]
    · -- This was the last one that was heard.
      rw [if_neg hnext] at hstore
      have hindex : svc.policy.maxWrongPasswords - 1 - n = 0 := by omega
      rw [hindex] at hlasts
      have ho : Opens svc (tallied account (n + 1)) secret := ho.congr rfl
      obtain ⟨has, hbans⟩ := hs.barred_of_ban hp hw' hreports hstore hv ho (hlasts a rfl)
      refine ⟨?_, ?_⟩
      · rintro (_ | j) b hb
        · cases hb
          exact ⟨fun _ => ha, fun hle => by omega⟩
        · exact ⟨fun hlt => by omega, fun _ => has b (List.mem_of_getElem? hb)⟩
      · rw [hbans, if_pos (by omega), if_pos (by omega)]

/-- An account that a client may log on to from an address, if it knows the password; it has no failed logons. -/
structure Untouched (svc : Service) (ip : Address) (login : String) (account : Account) (secret : Option Bytes)
    (w : World) : Prop where
  healthy : w.IsHealthy
  fetch : w.store.fetchByLogin w.clock login = .ok (some account)
  unfailed : account.failedLogins = 0
  allowed : refusal? svc.geoip ip account = none
  opens : Opens svc account secret
  unbanned : w.store.isIpBanned w.clock ip = false

/-- Wrong proofs for one account and from one address, one after the other. Up to the limit each of them is offered an
exchange, rejected and counted, and the one that comes to the limit bans; nobody else does. As long as this ban lasts,
the attempts that follow do not get as far as a proof: they are suspended at the challenge, or turned away before
anything is read. -/
theorem lockout_fires_once (svc : Service) (hp : LocksOut svc.policy) {ip : Address} {login : String}
    {account : Account} {secret : Option Bytes} {w w' : World} {as : List Attempt}
    (hu : Untouched svc ip login account secret w) (h : Siege svc ip login w as w') (hstart : 0 ≤ w.clock)
    (hend : w'.clock ≤ 0x10000000000)
    (hlasts : ∀ a, as[svc.policy.maxWrongPasswords - 1]? = some a → w'.clock < a.world.clock + svc.policy.banTime) :
    (∀ j a, as[j]? = some a →
      (j < svc.policy.maxWrongPasswords → a.Rejected svc ip login account secret (j + 1)) ∧
      (svc.policy.maxWrongPasswords ≤ j → a.Barred svc ip login)) ∧
    Attempt.bans as = if svc.policy.maxWrongPasswords ≤ as.length then 1 else 0 := by
  have hzero : tallied account 0 = account := by
    rw [tallied, show UInt32.ofNat 0 = account.failedLogins from hu.unfailed.symm]
  have hr : w.store.Reports (w.clock ≤ ·) login ip (tallied account 0) false := by
    rw [hzero]
    exact Store.reports_of_le hu.fetch (refusal?_eq_none_iff.mp hu.allowed).2 hu.unbanned
  have hcounted := h.counted hp hu.healthy hr hu.allowed hu.opens hp.counts hstart hend hlasts
  simp only [Nat.zero_add] at hcounted
  exact hcounted

/-! The intruder tries twice where one wrong password is too many. -/

namespace Intruder

theorem untouched : Untouched service client.ip "TESTER" Intruder.account none world :=
  ⟨isHealthy, fetch, rfl, refusal?_account, .absent rfl, rfl⟩

theorem attempts (chunks : List Bytes) (hchunks : chunks.flatten = challenge.encode ++ proof.encode) (w : World) :
    ∃ a : Attempt, a.Made service client.ip "TESTER" w ∧ a.world.clock = w.clock := by
  have hshort : 0 < service.policy.shortTimeout := by decide
  have hlong : 0 < service.policy.longTimeout := by decide
  obtain ⟨a, -, hw, hp, ha⟩ := Attempt.made_of_run hshort hlong client rfl short_login rfl (by simp [proof]) hchunks w
  rw [upper_login] at ha
  refine ⟨a, ha fun o ho => ?_, by rw [hw, clock_run]⟩
  rw [hp]
  exact accept_proof o.exchange

/-- The first attempt bans the account, and the second one is told so at the challenge. -/
theorem suspended : ∃ a b w, LocksOut service.policy ∧ Untouched service client.ip "TESTER" Intruder.account none world ∧
    Siege service client.ip "TESTER" world [a, b] w ∧ w.clock < a.world.clock + service.policy.banTime ∧
    a.Rejected service client.ip "TESTER" Intruder.account none 1 ∧ b.Barred service client.ip "TESTER" ∧
    b.out = [0x00, 0x00, 0x0C] ∧ Attempt.bans [a, b] = 1 := by
  obtain ⟨a, ha, hclock⟩ := attempts [challenge.encode ++ proof.encode] (List.append_nil _) world
  obtain ⟨b, hb, hclock'⟩ := attempts [challenge.encode, proof.encode] (congrArg _ (List.append_nil _)) a.world
  have hp : LocksOut service.policy := ⟨by decide, by decide, by decide, by decide⟩
  have hs : Siege service client.ip "TESTER" world [a, b] b.world := .cons ha (.cons hb (.nil _))
  have hstart : world.clock = 0 := rfl
  have hlasts : b.world.clock < a.world.clock + service.policy.banTime := by
    have hT : service.policy.banTime = 60 := rfl
    omega
  obtain ⟨hattempts, hbans⟩ := lockout_fires_once service hp untouched hs (by omega) (by omega) fun x hx => by
    cases hx
    exact hlasts
  have hbarred := (hattempts 1 b rfl).2 (by decide)
  refine ⟨a, b, b.world, hp, untouched, hs, hlasts, (hattempts 0 a rfl).1 (by decide), hbarred, ?_, hbans⟩
  rw [hbarred.written, hbarred.replied]
  rfl

end Intruder

end Connection

end RealmLogon
