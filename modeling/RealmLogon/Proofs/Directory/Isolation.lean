import RealmLogon.Proofs.Directory.Operations

/-! Accounts do not get in each other's way. What a look-up of an account gives is not changed by operations on other
accounts, on addresses and on realms, however many there are and at whatever times; and the operations on the account
itself change nothing in it but what they are for. Accounts are added under names and numbers that no other has. -/

namespace RealmLogon

open Exchange Text Directory

namespace Store

def after (s : Store) (ops : List (Int × Operation)) : Store :=
  ops.foldl (fun s op => (op.2.perform s op.1).2) s

def keys (s : Store) : List (Int × String) := s.accounts.rows.map fun r => (r.id, r.username)

end Store

namespace Directory

/-- An operation does not name an account, neither by its login nor by its number. -/
def Operation.Spares (a : Account) : Operation → Prop
  | .call (.persistLogon record) => record.login ≠ a.login
  | .call (.recordFailedLogin login) => login ≠ a.login
  | .call (.autoBan (.account id) _) => id ≠ a.id
  | _ => True

/-- Keys that come from others as accounts are added, each under a canonical name and with a name and a number that no
account had before. -/
inductive Grown (keys : List (Int × String)) : List (Int × String) → Prop where
  | start : Grown keys keys
  | add {more : List (Int × String)} {id : Int} {name : String} (hg : Grown keys more)
    (hname : Latin.upper name = name) (hfree : ∀ k ∈ more, k.1 ≠ id ∧ k.2 ≠ name) :
    Grown keys (more ++ [(id, name)])

end Directory

namespace Store

variable {s s' : Store} {now t t₀ : Int} {login : String} {a x : Account}

/-- A look-up reads the row of the account and the bans of accounts, and nothing else. -/
theorem fetchByLogin_congr (hn : s'.accountNamed? login = s.accountNamed? login) (hb : s'.accountBans = s.accountBans)
    (t : Int) : s'.fetchByLogin t login = s.fetchByLogin t login := by
  unfold fetchByLogin
  rw [hn, hb]

theorem fetchByLogin_changeAccount (s : Store) {name : String} (h : name ≠ login) (change : AccountRow → AccountRow)
    (hc : ∀ r, (change r).username = r.username) (t : Int) :
    (s.changeAccount name change).fetchByLogin t login = s.fetchByLogin t login := by
  have hn : (s.changeAccount name change).accountNamed? login = s.accountNamed? login := by
    rw [accountNamed?_changeAccount_eq s name login hc]
    simp only [if_neg h, Option.map_id']
  exact fetchByLogin_congr hn rfl t

theorem fetchByLogin_ban (h : s.fetchByLogin t login = .ok (some a)) {target : BanTarget}
    (htarget : target.key ≠ (BanTarget.account a.id).key) (now last : Int) :
    (s.ban target now last).fetchByLogin t login = s.fetchByLogin t login := by
  have hterms : (s.ban target now last).terms (.account a.id) = s.terms (.account a.id) := by
    rw [terms_ban, if_neg htarget]
  rw [fetchByLogin_judged (accounts_ban s target now last), h]
  have hj : a.judged (s.ban target now last) t = a.judged s t := by
    simp only [Account.judged, isBanned, isPermanentlyBanned, hterms]
  simp only [Except.map, Option.map_some, hj, ← judged_of_fetchByLogin h]

theorem fetchByLogin_addAccount {row : AccountRow} (hadd : s.addAccount row = some s')
    (h : s.fetchByLogin t₀ login = .ok (some a)) (t : Int) : s'.fetchByLogin t login = s.fetchByLogin t login := by
  obtain ⟨-, rfl⟩ := addAccount_eq_some hadd
  obtain ⟨r, hr, -⟩ := row_of_fetchByLogin h
  have hn : ({ s with accounts := append s.accounts row.id row } : Store).accountNamed? login =
      s.accountNamed? login := by
    rw [hr]
    unfold accountNamed? at hr ⊢
    simp only [append, List.find?_append, hr, Option.some_or]
  exact fetchByLogin_congr hn rfl t

theorem keys_changeAccount (s : Store) (login : String) (change : AccountRow → AccountRow)
    (hc : ∀ r, (change r).id = r.id ∧ (change r).username = r.username) :
    (s.changeAccount login change).keys = s.keys := by
  simp only [keys, changeAccount, List.map_map]
  refine List.map_congr_left fun r _ => ?_
  simp only [Function.comp_apply]
  split
  · rw [(hc r).1, (hc r).2]
  · rfl

theorem keys_addAccount {row : AccountRow} (hadd : s.addAccount row = some s') :
    s'.keys = s.keys ++ [(row.id, row.username)] := by
  obtain ⟨-, rfl⟩ := addAccount_eq_some hadd
  exact List.map_append

end Store

namespace Directory.Operation

variable {s : Store} {t₀ : Int} {login : String} {x : Account}

/-- An operation that spares an account is not seen by those who look it up. -/
theorem fetchByLogin_perform (op : Operation) (h : s.fetchByLogin t₀ login = .ok (some x)) (hop : op.Spares x)
    (now t : Int) : (op.perform s now).2.fetchByLogin t login = s.fetchByLogin t login := by
  obtain rfl : x.login = login := Store.login_of_fetchByLogin h
  have heffect := op.effect_perform s now
  generalize (op.perform s now).2 = s' at heffect ⊢
  cases heffect with
  | added row hname hadd => exact Store.fetchByLogin_addAccount hadd h t
  | changed name change hnames hc =>
    have hne : name ≠ x.login := by
      rcases hnames with rfl | ⟨record, rfl, rfl⟩ <;> exact hop
    exact s.fetchByLogin_changeAccount hne change (fun r => (hc r).2) t
  | banned target seconds last hban =>
    subst hban
    refine Store.fetchByLogin_ban (Store.fetchByLogin_at h t) ?_ now last
    cases target with
    | account id => exact fun he => hop (Sum.inl.inj he)
    | ip ip => exact Sum.inr_ne_inl
  | elsewhere ha hb => exact Store.fetchByLogin_congr (congrArg (·.rows.find? (·.username == x.login)) ha) hb t

theorem grown_perform (op : Operation) (s : Store) (now : Int) {keys : List (Int × String)} (hg : Grown keys s.keys) :
    Grown keys (op.perform s now).2.keys := by
  have heffect := op.effect_perform s now
  generalize (op.perform s now).2 = s' at heffect ⊢
  cases heffect with
  | added row hname hadd =>
    rw [Store.keys_addAccount hadd]
    refine hg.add hname fun k hk => ?_
    obtain ⟨r, hr, rfl⟩ := List.mem_map.mp hk
    obtain ⟨hrn, hri⟩ := (Store.addAccount_eq_some hadd).1 r hr
    exact ⟨hri, hrn⟩
  | changed name change hnames hc =>
    rw [s.keys_changeAccount name change hc]
    exact hg
  | banned target seconds last hban =>
    rw [Store.keys, s.accounts_ban]
    exact hg
  | elsewhere ha hb =>
    rw [Store.keys, ha]
    exact hg

end Directory.Operation

namespace Store

variable {s : Store} {t₀ : Int} {login : String} {x : Account}

theorem fetchByLogin_after {ops : List (Int × Operation)} (h : s.fetchByLogin t₀ login = .ok (some x))
    (hops : ∀ op ∈ ops, op.2.Spares x) (t : Int) : (s.after ops).fetchByLogin t login = s.fetchByLogin t login := by
  induction ops generalizing s with
  | nil => rfl
  | cons op ops ih =>
    have hop : op.2.Spares x := hops op List.mem_cons_self
    have hstep := op.2.fetchByLogin_perform h hop op.1
    have hrest := ih ((hstep t₀).trans h) fun o ho => hops o (List.mem_cons_of_mem op ho)
    exact hrest.trans (hstep t)

theorem grown_after (s : Store) (ops : List (Int × Operation)) {keys : List (Int × String)} (hg : Grown keys s.keys) :
    Grown keys (s.after ops).keys := by
  induction ops generalizing s with
  | nil => exact hg
  | cons op ops ih => exact ih _ (op.2.grown_perform s op.1 hg)

/-- An account that can be looked up is found unchanged at all times after any operations that spare it, whatever they
answer. A logon of the account that is stored changes its session key, its address and its counter to what the logon
leaves, and an automatic ban of it no more than whether it is banned. Accounts are only ever added under canonical names
that no account has, and with new numbers; a registration that succeeds adds one account and changes nothing else. -/
theorem accounts_isolated (s : Store) :
    (∀ (t₀ : Int) (login : String) (x : Account), s.fetchByLogin t₀ login = .ok (some x) →
      (∀ ops : List (Int × Operation), (∀ op ∈ ops, op.2.Spares x) → ∀ t, ∃ a,
        s.fetchByLogin t login = .ok (some a) ∧ (s.after ops).fetchByLogin t login = .ok (some a)) ∧
      ∀ (now t : Int) (a : Account), s.fetchByLogin t login = .ok (some a) →
        (∀ record : LogonRecord, record.login = login → (s.persistLogon now record).fetchByLogin t login =
          .ok (some { a with
            sessionKey := some record.sessionKey, lastIp := record.ip.print, failedLogins := 0 })) ∧
        ∀ seconds, ∃ banned permanent, (s.autoBan now (.account x.id) seconds).2.fetchByLogin t login =
          .ok (some { a with isBanned := banned, isPermanentlyBanned := permanent })) ∧
    (∀ ops, Grown s.keys (s.after ops).keys) ∧
    ∀ (salt : Salt) (name password : String) (security : UInt8) (sealedSecret : Option Bytes) (n : UInt32)
      (s' : Store), s.createAccount salt name password security sealedSecret = (.ok n, s') →
      ∃ row : AccountRow, s' = { s with accounts := ⟨s.accounts.rows ++ [row], max s.accounts.last row.id⟩ } ∧
        row.username = Latin.upper name ∧ Latin.upper row.username = row.username ∧ n = UInt32.ofInt row.id ∧
        ∀ r ∈ s.accounts.rows, r.username ≠ row.username ∧ r.id ≠ row.id := by
  refine ⟨fun t₀ login x h => ⟨fun ops hops t => ?_, fun now t a ha => ⟨?_, fun seconds => ?_⟩⟩,
    fun ops => s.grown_after ops .start, fun salt name password security sealedSecret n s' h => ?_⟩
  · have ha := fetchByLogin_at h t
    exact ⟨_, ha, (fetchByLogin_after h hops t).trans ha⟩
  · rintro record rfl
    exact fetchByLogin_persistLogon ha
  · let s' := (s.autoBan now (.account x.id) seconds).2
    refine ⟨s'.isBanned (.account a.id) t, s'.isPermanentlyBanned (.account a.id), ?_⟩
    rw [fetchByLogin_judged (s.accounts_autoBan now (.account x.id) seconds), ha]
    rfl
  · obtain ⟨hn, hadd⟩ := addAccount_of_createAccount h
    obtain ⟨hfree, hs⟩ := addAccount_eq_some hadd
    exact ⟨_, hs, rfl, Latin.upper_upper name, hn, hfree⟩

namespace Neighbours

def store : Store where
  accounts :=
    ⟨[{ id := 1, username := "TESTER", salt := .blob (.replicate 32 0), verifier := .blob (.replicate 32 1) },
      { id := 2, username := "OTHER", salt := .blob (.replicate 32 0), verifier := .blob (.replicate 32 1) }], 2⟩
  accountBans := []
  ipBans := []
  realms := .empty
  characters := []

def tester : Account where
  id := 1
  login := "TESTER"
  salt := .zero 32
  verifier := ⟨.replicate 32 1, rfl⟩
  ipLocked := false
  lockCountry := "00"
  lastIp := "127.0.0.1"
  failedLogins := 0
  isBanned := false
  isPermanentlyBanned := false
  security := 0
  totpSecret := none
  sessionKey := none

/-- What happens to the second account, to an address and under a new name. -/
def ops : List (Int × Operation) :=
  [(100, .call (.recordFailedLogin "OTHER")), (101, .call (.autoBan (.account 2) 60)),
    (102, .call (.autoBan (.ip (.v4 2130706433)) 60)), (103, .createAccount (.zero 32) "third" "secret" 0 none),
    (104, .call (.persistLogon ⟨"OTHER", .zero 40, .v4 2130706433, 0, "Win", 0⟩))]

theorem upper_third : Latin.upper "third" = "THIRD" := Latin.upper_eq (by decide +kernel)

/-- None of that is seen by the first account. A ban of the account itself leaves its session key alone, and a logon of
it leaves the ban flags alone. -/
theorem first_account_spared :
    store.fetchByLogin 110 "TESTER" = .ok (some tester) ∧
    (store.after ops).fetchByLogin 110 "TESTER" = .ok (some tester) ∧
    (∃ banned permanent, (store.autoBan 100 (.account 1) 60).2.fetchByLogin 110 "TESTER" =
      .ok (some { tester with isBanned := banned, isPermanentlyBanned := permanent })) ∧
    (store.persistLogon 100 ⟨"TESTER", .zero 40, .v4 2130706433, 0, "Win", 0⟩).fetchByLogin 110 "TESTER" =
      .ok (some { tester with sessionKey := some (.zero 40), lastIp := "127.0.0.1", failedLogins := 0 }) ∧
    ∃ row s', store.createAccount (.zero 32) "third" "secret" 0 none = (.ok 3, s') ∧
      s'.accounts.rows = store.accounts.rows ++ [row] ∧ Latin.upper row.username = row.username := by
  have hx : store.fetchByLogin 110 "TESTER" = .ok (some tester) := rfl
  obtain ⟨hspared, -, hcreated⟩ := accounts_isolated store
  obtain ⟨hothers, hown⟩ := hspared 110 "TESTER" tester hx
  obtain ⟨hpersist, hban⟩ := hown 100 110 tester hx
  refine ⟨hx, ?_, hban 60, hpersist ⟨"TESTER", .zero 40, .v4 2130706433, 0, "Win", 0⟩ rfl, ?_⟩
  · have hops : ∀ op ∈ ops, op.2.Spares tester := by simp [ops, Operation.Spares, tester]
    obtain ⟨a, ha, hafter⟩ := hothers ops hops 110
    rw [hafter, ← ha, hx]
  · have hnumber : UInt32.ofInt 3 = 3 := rfl
    obtain ⟨s', hs⟩ : ∃ s', store.createAccount (.zero 32) "third" "secret" 0 none = (.ok 3, s') := by
      rw [createAccount_eq]
      simp [store, nextNumber, addAccount, AccountRow.fresh, upper_third, hnumber]
    obtain ⟨row, rfl, -, hrow, -, -⟩ := hcreated _ _ _ _ _ _ _ hs
    exact ⟨row, _, hs, rfl, hrow⟩

end Neighbours

end Store

end RealmLogon
