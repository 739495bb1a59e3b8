import RealmLogon.Directory.Call
import RealmLogon.Proofs.Text.Canonical

/-! An account from its registration on: a new name gives a row of its own, the row reads as an account if its
number is one of 32 bits, and a logon changes nothing in it but what a logon leaves behind. -/

namespace RealmLogon

open Exchange Text

namespace AccountRow

def fresh (id : Int) (login password : String) (salt : Salt) (security : UInt8) (sealedSecret : Option Bytes) :
    AccountRow where
  id := id
  username := Latin.upper login
  salt := .blob salt.toList
  verifier := .blob (register (Latin.upper login) password salt).toList
  security := .integer security.toNat
  totpSecret := match sealedSecret with
    | some b => .blob b
    | none => .null

def HasNumber (r : AccountRow) : Prop := 0 ≤ r.id ∧ r.id < UInt32.size

instance (r : AccountRow) : Decidable r.HasNumber := inferInstanceAs (Decidable (_ ∧ _))

theorem fixed_toList {n : Nat} (column : String) (o : Octets n) : fixed n column o.toList = .ok o := by
  simp [fixed]

theorem bind_eq_ok {ε α β : Type} {x : Except ε α} {f : α → Except ε β} {b : β} (h : x >>= f = .ok b) :
    ∃ a, x = .ok a ∧ f a = .ok b := by
  cases x with
  | error e => cases h
  | ok a => exact ⟨a, rfl, h⟩

end AccountRow

def Account.fresh (id : Int) (login password : String) (salt : Salt) (security : UInt8)
    (sealedSecret : Option Bytes) (bans : List AccountBan) (now : Int) : Account where
  id := UInt32.ofNat id.toNat
  login := Latin.upper login
  salt := salt
  verifier := register (Latin.upper login) password salt
  ipLocked := false
  lockCountry := "00"
  lastIp := "127.0.0.1"
  failedLogins := 0
  isBanned := bans.any (·.covers id now)
  isPermanentlyBanned := bans.any (·.isPermanent id)
  security := security
  totpSecret := sealedSecret
  sessionKey := none

namespace AccountRow

section Fresh

variable {id : Int} {login password : String} {salt : Salt} {security : UInt8} {sealedSecret : Option Bytes}

theorem toAccount_fresh (h : (fresh id login password salt security sealedSecret).HasNumber)
    (bans : List AccountBan) (now : Int) :
    (fresh id login password salt security sealedSecret).toAccount bans now =
      .ok (Account.fresh id login password salt security sealedSecret bans now) := by
  have hid : (Cell.integer id).toUInt32? = some (UInt32.ofNat id.toNat) := by
    have hn : 0 ≤ id ∧ id < UInt32.size := h
    simp only [Cell.toUInt32?, Cell.toNat?, if_pos hn, Option.map_some]
  have hsecret : (fresh id login password salt security sealedSecret).totpSecret.toOptionalBytes? =
      some sealedSecret := by
    cases sealedSecret <;> rfl
  have hzero : (Cell.integer 0).toUInt32? = some 0 := rfl
  unfold toAccount
  rw [hsecret]
  simp only [fresh, hid, Cell.toUInt8?_toNat, column, Cell.toBytes?, Cell.toBool?, Cell.toOptionalBytes?, hzero, bind,
    Except.bind, fixed_toList]
  rfl

theorem toAccount_of_not_hasNumber {r : AccountRow} (h : ¬r.HasNumber) (bans : List AccountBan) (now : Int) :
    r.toAccount bans now = .error .database := by
  have hid : (Cell.integer r.id).toUInt32? = none := by
    have hn : ¬(0 ≤ r.id ∧ r.id < UInt32.size) := h
    simp only [Cell.toUInt32?, Cell.toNat?, if_neg hn, Option.map_none]
  unfold toAccount
  rw [hid]
  rfl

end Fresh

/-- After a logon a row reads as the same account, with the new session key, without failed logons and bound to
the address of that logon. -/
theorem toAccount_afterLogon {r : AccountRow} {bans : List AccountBan} {now : Int} {a : Account}
    (h : r.toAccount bans now = .ok a) (record : LogonRecord) (time : Int) :
    (r.afterLogon record time).toAccount bans now =
      .ok { a with sessionKey := some record.sessionKey, lastIp := record.ip.print, failedLogins := 0 } := by
  unfold toAccount at h
  obtain ⟨id, hid, h⟩ := bind_eq_ok h
  obtain ⟨salt, hsalt, h⟩ := bind_eq_ok h
  obtain ⟨verifier, hverifier, h⟩ := bind_eq_ok h
  obtain ⟨ipLocked, hlocked, h⟩ := bind_eq_ok h
  obtain ⟨failedLogins, -, h⟩ := bind_eq_ok h
  obtain ⟨security, hsecurity, h⟩ := bind_eq_ok h
  obtain ⟨totpSecret, htotp, h⟩ := bind_eq_ok h
  obtain ⟨sessionKey, -, h⟩ := bind_eq_ok h
  obtain ⟨salt', hsalt', h⟩ := bind_eq_ok h
  obtain ⟨verifier', hverifier', h⟩ := bind_eq_ok h
  obtain ⟨sessionKey', -, h⟩ := bind_eq_ok h
  cases h
  have hkey : (some record.sessionKey.toList).mapM (fixed 40 "session_key") = .ok (some record.sessionKey) := by
    have hm : (some record.sessionKey.toList).mapM (fixed 40 "session_key") =
        some <$> fixed 40 "session_key" record.sessionKey.toList := rfl
    rw [hm, fixed_toList]
    rfl
  have hblob : column (Cell.blob record.sessionKey.toList).toOptionalBytes? =
    .ok (some record.sessionKey.toList) := rfl
  have hzero : column (Cell.integer 0).toUInt32? = .ok 0 := rfl
  unfold toAccount
  simp only [afterLogon, hid, hsalt, hverifier, hlocked, hsecurity, htotp, hzero, hblob, bind, Except.bind, hsalt',
    hverifier', hkey]
  rfl

end AccountRow

namespace Store

theorem nextNumber_eq_some {α : Type} {t : Numbered α} {n : Int} (h : nextNumber t = some n) : n = t.last + 1 := by
  unfold nextNumber at h
  split at h
  · cases h
    rfl
  · cases h

/-- A registration adds the row of a new account, if there is a number for it and its name is free. -/
theorem createAccount_eq (s : Store) (salt : Salt) (login password : String) (security : UInt8)
    (sealedSecret : Option Bytes) :
    s.createAccount salt login password security sealedSecret =
      match (nextNumber s.accounts).bind fun id =>
        (s.addAccount (.fresh id login password salt security sealedSecret)).map fun t => (id, t) with
      | some (id, t) => (.ok (UInt32.ofInt id), t)
      | none => (.error .database, s) := by
  unfold createAccount
  cases nextNumber s.accounts <;> rfl

theorem addAccount_eq_some {s s' : Store} {row : AccountRow} (h : s.addAccount row = some s') :
    (∀ r ∈ s.accounts.rows, r.username ≠ row.username ∧ r.id ≠ row.id) ∧
      s' = { s with accounts := append s.accounts row.id row } := by
  unfold addAccount at h
  split at h
  · cases h
  · rename_i hfree
    cases h
    refine ⟨fun r hr => ?_, rfl⟩
    simp only [List.any_eq_true, Bool.or_eq_true, beq_iff_eq, not_exists, not_and, not_or] at hfree
    exact hfree r hr

theorem addAccount_of_createAccount {s s' : Store} {salt : Salt} {login password : String} {security : UInt8}
    {sealedSecret : Option Bytes} {n : UInt32}
    (h : s.createAccount salt login password security sealedSecret = (.ok n, s')) :
    n = UInt32.ofInt (s.accounts.last + 1) ∧
      s.addAccount (.fresh (s.accounts.last + 1) login password salt security sealedSecret) = some s' := by
  rw [createAccount_eq] at h
  cases hn : nextNumber s.accounts with
  | none => simp [hn] at h
  | some id =>
    obtain rfl := nextNumber_eq_some hn
    rw [hn, Option.bind_some] at h
    cases ha : s.addAccount (.fresh (s.accounts.last + 1) login password salt security sealedSecret) with
    | none => simp [ha] at h
    | some t =>
      simp only [ha, Option.map_some, Prod.mk.injEq, Except.ok.injEq] at h
      exact ⟨h.1.symm, congrArg some h.2⟩

theorem createAccount_eq_ok {s s' : Store} {salt : Salt} {login password : String} {security : UInt8}
    {sealedSecret : Option Bytes} {n : UInt32}
    (h : s.createAccount salt login password security sealedSecret = (.ok n, s')) :
    n = UInt32.ofInt (s.accounts.last + 1) ∧
      s.accountNamed? (Latin.upper login) = none ∧
      s' = { s with
        accounts := append s.accounts (s.accounts.last + 1)
          (.fresh (s.accounts.last + 1) login password salt security sealedSecret) } := by
  obtain ⟨hn, ha⟩ := addAccount_of_createAccount h
  obtain ⟨hfree, hs⟩ := addAccount_eq_some ha
  refine ⟨hn, ?_, hs⟩
  rw [accountNamed?, List.find?_eq_none]
  intro r hr
  rw [beq_iff_eq]
  exact (hfree r hr).1

theorem accountNamed?_createAccount {s s' : Store} {salt : Salt} {login password : String} {security : UInt8}
    {sealedSecret : Option Bytes} {n : UInt32}
    (h : s.createAccount salt login password security sealedSecret = (.ok n, s')) :
    s'.accountNamed? (Latin.upper login) =
      some (.fresh (s.accounts.last + 1) login password salt security sealedSecret) := by
  obtain ⟨-, hfree, rfl⟩ := createAccount_eq_ok h
  have hname : (AccountRow.fresh (s.accounts.last + 1) login password salt security sealedSecret).username =
    Latin.upper login := rfl
  unfold accountNamed? at hfree ⊢
  simp only [append, List.find?_append, hfree, Option.none_or, List.find?_singleton, hname, beq_self_eq_true, if_true]

theorem accountNamed?_changeAccount (s : Store) (login : String) {change : AccountRow → AccountRow}
    (hc : ∀ r, (change r).username = r.username) :
    (s.changeAccount login change).accountNamed? login = (s.accountNamed? login).map change := by
  unfold accountNamed? changeAccount
  rw [List.find?_map]
  have hp : ((fun r : AccountRow => r.username == login) ∘ fun r => if r.username = login then change r else r) =
      fun r => r.username == login := by
    funext r
    simp only [Function.comp_apply]
    split
    · rw [hc]
    · rfl
  rw [hp]
  cases hf : s.accounts.rows.find? (fun r => r.username == login) with
  | none => rfl
  | some r =>
    have hr : r.username = login := by simpa using List.find?_some hf
    simp only [Option.map_some, if_pos hr]

theorem row_of_fetchByLogin {s : Store} {now : Int} {login : String} {a : Account}
    (h : s.fetchByLogin now login = .ok (some a)) :
    ∃ r, s.accountNamed? login = some r ∧ r.toAccount s.accountBans now = .ok a := by
  unfold fetchByLogin at h
  cases hn : s.accountNamed? login with
  | none => simp [hn] at h
  | some r =>
    cases hr : r.toAccount s.accountBans now with
    | error e => simp [hn, hr, Except.map] at h
    | ok b =>
      simp only [hn, hr, Except.map, Except.ok.injEq, Option.some.injEq] at h
      exact ⟨r, rfl, h ▸ hr⟩

/-- After a logon the account is as it was at all times, but for what the logon leaves behind. -/
theorem fetchByLogin_persistLogon {s : Store} {now t : Int} {record : LogonRecord} {a : Account}
    (h : s.fetchByLogin t record.login = .ok (some a)) :
    (s.persistLogon now record).fetchByLogin t record.login =
      .ok (some { a with sessionKey := some record.sessionKey, lastIp := record.ip.print, failedLogins := 0 }) := by
  have hc : ∀ r : AccountRow, (r.afterLogon record now).username = r.username := fun _ => rfl
  have hb : (s.changeAccount record.login (·.afterLogon record now)).accountBans = s.accountBans := rfl
  obtain ⟨r, hn, hr⟩ := row_of_fetchByLogin h
  unfold fetchByLogin
  rw [persistLogon, accountNamed?_changeAccount s record.login hc, hn]
  simp only [Option.map_some, hb, AccountRow.toAccount_afterLogon hr record now, Except.map]

theorem fetchByLogin_createAccount {s s' : Store} {salt : Salt} {login password : String} {security : UInt8}
    {sealedSecret : Option Bytes} {n : UInt32}
    (h : s.createAccount salt login password security sealedSecret = (.ok n, s')) (now : Int) :
    s'.fetchByLogin now (Latin.upper login) =
      if (AccountRow.fresh (s.accounts.last + 1) login password salt security sealedSecret).HasNumber then
        .ok (some (.fresh (s.accounts.last + 1) login password salt security sealedSecret s.accountBans now))
      else .error .database := by
  have hn := accountNamed?_createAccount h
  obtain ⟨-, -, hs⟩ := createAccount_eq_ok h
  have hb : s'.accountBans = s.accountBans := by rw [hs]
  unfold fetchByLogin
  simp only [hn, hb]
  by_cases hid : (AccountRow.fresh (s.accounts.last + 1) login password salt security sealedSecret).HasNumber
  · rw [if_pos hid, AccountRow.toAccount_fresh hid]
    rfl
  · rw [if_neg hid, AccountRow.toAccount_of_not_hasNumber hid]
    rfl

end Store

end RealmLogon
