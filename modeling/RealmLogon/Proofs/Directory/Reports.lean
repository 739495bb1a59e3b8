import RealmLogon.Proofs.Directory.Bans
import RealmLogon.Proofs.Directory.Locks

/-! What the directory reports of an account and an address as time passes. Without a call that writes, a report changes
only because a ban ends; a failed logon is counted, and an automatic ban is reported until it is over. -/

namespace RealmLogon

namespace AccountRow

theorem toAccount_failedLogins {r : AccountRow} {bans : List AccountBan} {t : Int} {a : Account}
    (h : r.toAccount bans t = .ok a) :
    r.failedLogins.toUInt32? = some a.failedLogins ∧
      ∀ (c : Cell) (n : UInt32), c.toUInt32? = some n →
        ({ r with failedLogins := c } : AccountRow).toAccount bans t = .ok { a with failedLogins := n } := by
  unfold toAccount at h
  obtain ⟨id, hid, h⟩ := bind_eq_ok h
  obtain ⟨salt, hsalt, h⟩ := bind_eq_ok h
  obtain ⟨verifier, hverifier, h⟩ := bind_eq_ok h
  obtain ⟨ipLocked, hlocked, h⟩ := bind_eq_ok h
  obtain ⟨failedLogins, hfailed, h⟩ := bind_eq_ok h
  obtain ⟨security, hsecurity, h⟩ := bind_eq_ok h
  obtain ⟨totpSecret, htotp, h⟩ := bind_eq_ok h
  obtain ⟨sessionKey, hkey, h⟩ := bind_eq_ok h
  obtain ⟨salt', hsalt', h⟩ := bind_eq_ok h
  obtain ⟨verifier', hverifier', h⟩ := bind_eq_ok h
  obtain ⟨sessionKey', hkey', h⟩ := bind_eq_ok h
  cases h
  refine ⟨?_, fun c n hc => ?_⟩
  · unfold column at hfailed
    split at hfailed
    · cases hfailed
      assumption
    · cases hfailed
  · have hn : column c.toUInt32? = .ok n := by rw [hc, column]
    unfold toAccount
    simp only [hid, hsalt, hverifier, hlocked, hn, hsecurity, htotp, hkey, bind, Except.bind, hsalt', hverifier', hkey']
    rfl

theorem integer_of_toUInt32? {c : Cell} {n : UInt32} (h : c.toUInt32? = some n) : c = .integer n.toNat := by
  cases c with
  | integer k =>
    have hs : UInt32.size = 4294967296 := rfl
    by_cases hk : 0 ≤ k ∧ k < UInt32.size
    · simp only [Cell.toUInt32?, Cell.toNat?, if_pos hk, Option.map_some, Option.some.injEq] at h
      rw [← h, UInt32.toNat_ofNat_of_lt' (by omega), Int.toNat_of_nonneg hk.1]
    · simp only [Cell.toUInt32?, Cell.toNat?, if_neg hk] at h
      cases h
  | _ => cases h

end AccountRow

namespace Store

/-- What a store reports of an account and an address, at all times of a kind. -/
structure Reports (s : Store) (during : Int → Prop) (login : String) (ip : Address) (a : Account) (banned : Bool) :
    Prop where
  account : ∀ t, during t → s.fetchByLogin t login = .ok (some a)
  address : ∀ t, during t → s.isIpBanned t ip = banned

variable {s s' : Store} {during later : Int → Prop} {now t u : Int} {login : String} {ip : Address} {a : Account}
  {banned : Bool} {target : BanTarget} {seconds : Nat}

theorem Reports.mono (h : s.Reports during login ip a banned) (hd : ∀ t, later t → during t) :
    s.Reports later login ip a banned :=
  ⟨fun t ht => h.account t (hd t ht), fun t ht => h.address t (hd t ht)⟩

/-- At another time a look-up gives the same account, but for the bans. -/
theorem fetchByLogin_at (h : s.fetchByLogin now login = .ok (some a)) (t : Int) :
    s.fetchByLogin t login = .ok (some (a.judged s t)) := by
  obtain ⟨r, hr, ha⟩ := row_of_fetchByLogin h
  rw [AccountRow.toAccount_eq_judged] at ha
  unfold fetchByLogin
  simp only [hr, AccountRow.toAccount_eq_judged r s t]
  cases hb : r.toAccount [] 0 with
  | error e =>
    rw [hb] at ha
    cases ha
  | ok b =>
    rw [hb] at ha
    cases ha
    rfl

theorem isBanned_of_le (h : s.isBanned target t = false) (hle : t ≤ u) : s.isBanned target u = false := by
  rw [Bool.eq_false_iff] at h ⊢
  intro hu
  obtain ⟨b, hb, hforce⟩ := List.any_eq_true.mp hu
  exact h (List.any_eq_true.mpr ⟨b, hb, BanTerm.inForce_of_le hforce hle⟩)

theorem isPermanentlyBanned_eq_false (h : s.isBanned target t = false) : s.isPermanentlyBanned target = false := by
  rw [Bool.eq_false_iff] at h ⊢
  intro hp
  obtain ⟨b, hb, hendless⟩ := List.any_eq_true.mp hp
  exact h (List.any_eq_true.mpr ⟨b, hb, BanTerm.inForce_of_isEndless hendless t⟩)

theorem isBanned_eq_false (ha : s.fetchByLogin t login = .ok (some a)) (hb : a.isBanned = false) :
    s.isBanned (.account a.id) t = false := by
  rw [judged_of_fetchByLogin ha] at hb
  exact hb

theorem reports_of_le (ha : s.fetchByLogin now login = .ok (some a)) (hb : a.isBanned = false)
    (hip : s.isIpBanned now ip = false) : s.Reports (now ≤ ·) login ip a false := by
  refine ⟨fun t ht => ?_, fun t ht => ?_⟩
  · have hnow := isBanned_eq_false ha hb
    have hj : a.judged s t = a := by
      rw [Account.judged, isBanned_of_le hnow ht, ← hnow]
      exact (judged_of_fetchByLogin ha).symm
    rw [fetchByLogin_at ha t, hj]
  · rw [isIpBanned_eq] at hip ⊢
    exact isBanned_of_le hip ht

theorem Reports.recordFailedLogin (h : s.Reports during login ip a banned) (ht : during t)
    (hn : a.failedLogins.toNat < UInt32.size - 1) :
    (s.recordFailedLogin login).1 = .ok (a.failedLogins + 1) ∧
      (s.recordFailedLogin login).2.Reports during login ip { a with failedLogins := a.failedLogins + 1 } banned := by
  obtain ⟨r, hr, hrow⟩ := row_of_fetchByLogin (h.account t ht)
  have hcell := AccountRow.integer_of_toUInt32? (AccountRow.toAccount_failedLogins hrow).1
  have hnext := failedLogins_afterFailure hcell hn
  have hs : UInt32.size = 4294967296 := rfl
  have hread : r.afterFailure.failedLogins.toUInt32? = some (a.failedLogins + 1) := by
    rw [hnext, toUInt32?_integer (by omega), UInt32.ofNat_add, UInt32.ofNat_toNat]
    rfl
  have he : s.recordFailedLogin login = (.ok (a.failedLogins + 1), s.changeAccount login AccountRow.afterFailure) := by
    simp only [Store.recordFailedLogin, hr, hread, AccountRow.column]
  rw [he]
  refine ⟨rfl, fun u hu => ?_, h.address⟩
  obtain ⟨r', hr', hrow'⟩ := row_of_fetchByLogin (h.account u hu)
  obtain rfl : r = r' := Option.some.inj (hr.symm.trans hr')
  have hafter : r.afterFailure.toAccount s.accountBans u = .ok { a with failedLogins := a.failedLogins + 1 } :=
    (AccountRow.toAccount_failedLogins hrow').2 _ _ hread
  have hc : ∀ r : AccountRow, r.afterFailure.username = r.username := fun _ => rfl
  have hb : (s.changeAccount login AccountRow.afterFailure).accountBans = s.accountBans := rfl
  unfold fetchByLogin
  rw [accountNamed?_changeAccount s login hc, hr]
  simp only [Option.map_some, hb, hafter, Except.map]

/-- The time of an automatic ban. -/
def During (now : Int) (seconds : Nat) (t : Int) : Prop := now ≤ t ∧ t < now + seconds

theorem isBanned_ban_self (hs : 1 ≤ seconds) (ht : During now seconds t) (target : BanTarget) :
    (s.ban target now (now + seconds)).isBanned target t = true := by
  rw [isBanned, terms_ban, if_pos rfl, List.any_append, List.any_cons, ← BanTerm.automatic, BanTerm.inForce_automatic hs,
    decide_eq_true ht.2, Bool.true_or, Bool.or_true]

theorem isPermanentlyBanned_ban_self (hs : 1 ≤ seconds) (h : s.isPermanentlyBanned target = false) :
    (s.ban target now (now + seconds)).isPermanentlyBanned target = false := by
  rw [isPermanentlyBanned, List.any_eq_false] at h
  rw [isPermanentlyBanned, terms_ban, if_pos rfl, List.any_eq_false]
  intro b hb
  rw [List.mem_append, List.mem_singleton, List.mem_filter] at hb
  obtain ⟨hb, -⟩ | rfl := hb
  · exact h b hb
  · rw [← BanTerm.automatic, BanTerm.isEndless_automatic hs]
    exact Bool.false_ne_true

/-- A ban of the account is reported until it is over, and it is not one for ever. -/
theorem Reports.ban_account (h : s.Reports (now ≤ ·) login ip a false) (hb : a.isBanned = false) (hs : 1 ≤ seconds) :
    (s.ban (.account a.id) now (now + seconds)).Reports (During now seconds) login ip
      { a with isBanned := true, isPermanentlyBanned := false } false := by
  refine ⟨fun t ht => ?_, fun t ht => h.address t ht.1⟩
  have ha := h.account t ht.1
  have hp := isPermanentlyBanned_eq_false (isBanned_eq_false ha hb)
  rw [fetchByLogin_judged (accounts_ban s _ now _), ha]
  simp only [Except.map, Option.map_some, Account.judged, isBanned_ban_self hs ht (.account a.id),
    isPermanentlyBanned_ban_self hs hp]

theorem Reports.ban_ip (h : s.Reports (now ≤ ·) login ip a false) (hs : 1 ≤ seconds) :
    (s.ban (.ip ip) now (now + seconds)).Reports (During now seconds) login ip a true := by
  refine ⟨fun t ht => h.account t ht.1, fun t ht => ?_⟩
  rw [isIpBanned_eq]
  exact isBanned_ban_self hs ht (.ip ip)

end Store

end RealmLogon
