import RealmLogon.Proofs.Directory.FailedLogons

/-! The lock that binds an account to its last address, in the directory. No call sets a lock or lifts one, and only a
stored logon writes an address. -/

namespace RealmLogon

namespace AccountRow

theorem lock_of_toAccount {r : AccountRow} {bans : List AccountBan} {t : Int} {a : Account}
    (h : r.toAccount bans t = .ok a) :
    a.login = r.username ∧ a.lastIp = r.lastIp ∧ r.locked.toBool? = some a.ipLocked := by
  unfold toAccount at h
  iterate 3 obtain ⟨_, -, h⟩ := bind_eq_ok h
  obtain ⟨locked, hl, h⟩ := bind_eq_ok h
  iterate 7 obtain ⟨_, -, h⟩ := bind_eq_ok h
  cases h
  refine ⟨rfl, rfl, ?_⟩
  unfold column at hl
  split at hl
  · cases hl
    assumption
  · cases hl

end AccountRow

namespace Store

/-- The account may log on from this address only. -/
def LockedTo (s : Store) (login address : String) : Prop :=
  ∃ row, s.accountNamed? login = some row ∧ row.locked.toBool? = some true ∧ row.lastIp = address

variable {s s' : Store} {login name address other : String} {t : Int} {a : Account}

theorem LockedTo.unique (h : s.LockedTo login address) (h' : s.LockedTo login other) : address = other := by
  obtain ⟨row, hr, -, rfl⟩ := h
  obtain ⟨row', hr', -, rfl⟩ := h'
  rw [Option.some.inj (hr.symm.trans hr')]

theorem LockedTo.congr (h : s.LockedTo login address) (ha : s'.accounts = s.accounts) : s'.LockedTo login address := by
  unfold LockedTo accountNamed? at h ⊢
  rw [ha]
  exact h

theorem login_of_fetchByLogin (h : s.fetchByLogin t login = .ok (some a)) : a.login = login := by
  obtain ⟨r, hr, ha⟩ := row_of_fetchByLogin h
  rw [(AccountRow.lock_of_toAccount ha).1]
  simpa using List.find?_some hr

theorem LockedTo.fetched (h : s.LockedTo login address) (hf : s.fetchByLogin t name = .ok (some a))
    (ha : a.login = login) : a.ipLocked = true ∧ a.lastIp = address := by
  obtain ⟨row, hrow, hlocked, rfl⟩ := h
  obtain ⟨r, hr, hb⟩ := row_of_fetchByLogin hf
  obtain ⟨-, hip, hl⟩ := AccountRow.lock_of_toAccount hb
  rw [← login_of_fetchByLogin hf, ha, hrow] at hr
  cases hr
  exact ⟨Option.some.inj (hl.symm.trans hlocked), hip⟩

end Store

namespace Directory.Call

variable {s : Store} {login address : String}

/-- A call leaves the lock of an account as it is, and the address too unless it stores a logon of the account. -/
theorem accountNamed?_perform (c : Directory.Call) (s : Store) (now : Int) (login : String) :
    ∃ f : AccountRow → AccountRow, (c.perform s now).2.accountNamed? login = (s.accountNamed? login).map f ∧
      ∀ r, (f r).locked = r.locked ∧
        ((f r).lastIp = r.lastIp ∨
          ∃ record, c = .persistLogon record ∧ record.login = login ∧ (f r).lastIp = record.ip.print) := by
  have hid : s.accountNamed? login = (s.accountNamed? login).map id := by rw [Option.map_id, id]
  cases c with
  | persistLogon record =>
    refine ⟨_, Store.accountNamed?_changeAccount_eq s record.login login fun _ => rfl, fun r => ?_⟩
    by_cases hr : record.login = login
    · rw [if_pos hr]
      exact ⟨rfl, .inr ⟨record, rfl, hr, rfl⟩⟩
    · rw [if_neg hr]
      exact ⟨rfl, .inl rfl⟩
  | recordFailedLogin name =>
    cases hn : s.accountNamed? name with
    | none =>
      simp only [perform, Store.recordFailedLogin, hn]
      exact ⟨id, hid, fun r => ⟨rfl, .inl rfl⟩⟩
    | some row =>
      simp only [perform, Store.recordFailedLogin, hn]
      refine ⟨_, Store.accountNamed?_changeAccount_eq s name login fun _ => rfl, fun r => ?_⟩
      split <;> exact ⟨rfl, .inl rfl⟩
  | autoBan target seconds =>
    refine ⟨id, ?_, fun r => ⟨rfl, .inl rfl⟩⟩
    rw [Option.map_id, id]
    exact congrArg (·.rows.find? (·.username == login)) (s.accounts_autoBan now target seconds)
  | isIpBanned ip => exact ⟨id, hid, fun r => ⟨rfl, .inl rfl⟩⟩
  | fetchByLogin name => exact ⟨id, hid, fun r => ⟨rfl, .inl rfl⟩⟩
  | countsByAccount account => exact ⟨id, hid, fun r => ⟨rfl, .inl rfl⟩⟩
  | listRealms => exact ⟨id, hid, fun r => ⟨rfl, .inl rfl⟩⟩

/-- An account stays with its address if no logon of it is stored from elsewhere. -/
theorem lockedTo_perform (h : s.LockedTo login address) (c : Directory.Call) (now : Int)
    (hc : ∀ record, c = .persistLogon record → record.login = login → record.ip.print = address) :
    (c.perform s now).2.LockedTo login address := by
  obtain ⟨row, hrow, hlocked, rfl⟩ := h
  obtain ⟨f, hf, hr⟩ := c.accountNamed?_perform s now login
  obtain ⟨hl, hip⟩ := hr row
  refine ⟨f row, by rw [hf, hrow, Option.map_some], hl ▸ hlocked, ?_⟩
  obtain hip | ⟨record, hcall, hlogin, hip⟩ := hip
  · exact hip
  · rw [hip, hc record hcall hlogin]

theorem lockedTo_of_perform {c : Directory.Call} {now : Int} (h : (c.perform s now).2.LockedTo login address) :
    ∃ before, s.LockedTo login before := by
  obtain ⟨row, hrow, hlocked, -⟩ := h
  obtain ⟨f, hf, hr⟩ := c.accountNamed?_perform s now login
  rw [hf] at hrow
  obtain ⟨r, hs, rfl⟩ := Option.map_eq_some_iff.mp hrow
  exact ⟨_, r, hs, (hr r).1 ▸ hlocked, rfl⟩

end Directory.Call

end RealmLogon
