import RealmLogon.Proofs.Directory.Reports

/-! Everything that can be asked of a directory: the calls of a service, and the registration of accounts and realms.
An operation that fails has changed nothing, with one exception. A failed logon is counted first, and the new count is
read after that; if it is no number of 32 bits, the operation fails and the count stays. -/

namespace RealmLogon

open Exchange Text

namespace Directory

inductive Operation where
  | createAccount (salt : Salt) (login password : String) (security : UInt8) (sealedSecret : Option Bytes)
  | addRealm (realm : Realm)
  | call (c : Call)

namespace Operation

def Answer : Operation → Type
  | createAccount .. => UInt32
  | addRealm _ => UInt32
  | call c => c.Answer

def perform (op : Operation) (s : Store) (now : Int) : Written op.Answer :=
  match op with
  | createAccount salt login password security sealedSecret =>
    s.createAccount salt login password security sealedSecret
  | addRealm realm => s.addRealm realm
  | call c => c.perform s now

end Operation

end Directory

namespace Store

variable {s : Store} {login : String} {t : Int} {a : Account} {e : DirectoryError}

theorem createAccount_of_error {salt : Salt} {password : String} {security : UInt8} {sealedSecret : Option Bytes}
    (h : (s.createAccount salt login password security sealedSecret).1 = .error e) :
    (s.createAccount salt login password security sealedSecret).2 = s := by
  rw [createAccount_eq] at h ⊢
  split at h
  · cases h
  · rfl

theorem store_recordFailedLogin (s : Store) (login : String) :
    (s.recordFailedLogin login).2 = s.changeAccount login AccountRow.afterFailure := by
  unfold recordFailedLogin
  cases hn : s.accountNamed? login with
  | some row => rfl
  | none =>
    have hrows : s.accounts.rows.map (fun r => if r.username = login then r.afterFailure else r) = s.accounts.rows := by
      refine (List.map_congr_left fun r hr => ?_).trans (List.map_id _)
      exact if_neg fun he => (List.find?_eq_none.mp hn) r hr (beq_iff_eq.mpr he)
    simp only [changeAccount, hrows]

theorem createAccount_cases (s : Store) (salt : Salt) (name password : String) (security : UInt8)
    (sealedSecret : Option Bytes) :
    (s.createAccount salt name password security sealedSecret).2 = s ∨
      s.addAccount (.fresh (s.accounts.last + 1) name password salt security sealedSecret) =
        some (s.createAccount salt name password security sealedSecret).2 := by
  rcases h : s.createAccount salt name password security sealedSecret with ⟨_ | n, s'⟩
  · have he := createAccount_of_error (congrArg Prod.fst h)
    rw [h] at he
    exact .inl he
  · exact .inr (addAccount_of_createAccount h).2

theorem store_addRealm (s : Store) (realm : Realm) :
    (s.addRealm realm).2.accounts = s.accounts ∧ (s.addRealm realm).2.accountBans = s.accountBans := by
  unfold addRealm
  dsimp only
  split
  · rename_i hr
    obtain ⟨row, -, hadd⟩ := Option.bind_eq_some_iff.mp hr
    obtain ⟨s', hs, he⟩ := Option.map_eq_some_iff.mp hadd
    cases he
    unfold addRealmRow at hs
    split at hs
    · cases hs
    · cases hs
      exact ⟨rfl, rfl⟩
  · exact ⟨rfl, rfl⟩

end Store

namespace Directory.Operation

/-- What an operation can do to a store at a time: add an account under a canonical name, change the account that it
names, ban a target, or something that concerns neither accounts nor their bans. -/
inductive Effect (op : Operation) (s : Store) (now : Int) : Store → Prop where
  | added {s' : Store} (row : AccountRow) (hname : Latin.upper row.username = row.username)
    (hadd : s.addAccount row = some s') : Effect op s now s'
  | changed (login : String) (change : AccountRow → AccountRow)
    (hop : op = call (.recordFailedLogin login) ∨ ∃ record, op = call (.persistLogon record) ∧ record.login = login)
    (hc : ∀ r, (change r).id = r.id ∧ (change r).username = r.username) :
    Effect op s now (s.changeAccount login change)
  | banned (target : BanTarget) (seconds : Nat) (last : Int) (hop : op = call (.autoBan target seconds)) :
    Effect op s now (s.ban target now last)
  | elsewhere {s' : Store} (ha : s'.accounts = s.accounts) (hb : s'.accountBans = s.accountBans) : Effect op s now s'

theorem effect_perform (op : Operation) (s : Store) (now : Int) : op.Effect s now (op.perform s now).2 := by
  cases op with
  | createAccount salt login password security sealedSecret =>
    rcases s.createAccount_cases salt login password security sealedSecret with hs | hadd
    · change Effect _ s now (s.createAccount salt login password security sealedSecret).2
      rw [hs]
      exact .elsewhere rfl rfl
    · exact .added _ (Latin.upper_upper login) hadd
  | addRealm realm =>
    obtain ⟨ha, hb⟩ := s.store_addRealm realm
    exact .elsewhere ha hb
  | call c =>
    cases c with
    | recordFailedLogin login =>
      change Effect _ s now (s.recordFailedLogin login).2
      rw [s.store_recordFailedLogin]
      exact .changed login AccountRow.afterFailure (.inl rfl) fun _ => ⟨rfl, rfl⟩
    | persistLogon record =>
      exact .changed record.login (·.afterLogon record now) (.inr ⟨record, rfl, rfl⟩) fun _ => ⟨rfl, rfl⟩
    | autoBan target seconds =>
      change Effect _ s now (s.autoBan now target seconds).2
      rcases s.store_autoBan now target seconds with he | ⟨last, he⟩
      · rw [he]
        exact .elsewhere rfl rfl
      · rw [he]
        exact .banned target seconds last rfl
    | isIpBanned ip => exact .elsewhere rfl rfl
    | fetchByLogin login => exact .elsewhere rfl rfl
    | countsByAccount account => exact .elsewhere rfl rfl
    | listRealms => exact .elsewhere rfl rfl

end Directory.Operation

open Directory

namespace Brim

def store : Store where
  accounts :=
    ⟨[{ id := 1, username := "TESTER", salt := .blob (.replicate 32 0), verifier := .blob (.replicate 32 1),
        failedLogins := .integer 4294967295 }], 1⟩
  accountBans := []
  ipBans := []
  realms := .empty
  characters := []

theorem upper_name : Latin.upper "TESTER" = "TESTER" := Latin.upper_eq (by decide +kernel)

end Brim

end RealmLogon
