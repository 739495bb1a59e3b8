import RealmLogon.Proofs.Directory.Bans

/-! The counter of an account's failed logons in the directory. A failed logon adds one to it and answers the new
value in the same call, a successful one sets it to zero, and no other call touches it. -/

namespace RealmLogon

namespace Store

def Counts (s : Store) (login : String) (n : Nat) : Prop :=
  ∃ row, s.accountNamed? login = some row ∧ row.failedLogins = .integer n

/-- All counters are numbers below the highest one of 32 bits. -/
def Modest (s : Store) : Prop :=
  ∀ row ∈ s.accounts.rows, ∃ n : Nat, row.failedLogins = .integer n ∧ n < UInt32.size - 1

def HasRoom (s : Store) (k : Nat) : Prop :=
  ∀ row ∈ s.accounts.rows, ∃ n : Nat, row.failedLogins = .integer n ∧ n + k < UInt32.size - 1

variable {s : Store} {login : String} {n : Nat}

theorem HasRoom.less {k : Nat} (h : s.HasRoom (k + 1)) : s.HasRoom k := by
  intro row hr
  obtain ⟨n, hn, hk⟩ := h row hr
  exact ⟨n, hn, by omega⟩

theorem HasRoom.modest {k : Nat} (h : s.HasRoom k) : s.Modest := by
  intro row hr
  obtain ⟨n, hn, hk⟩ := h row hr
  exact ⟨n, hn, by omega⟩

theorem Counts.lt (h : s.Counts login n) (hs : s.Modest) : n < UInt32.size - 1 := by
  obtain ⟨row, hr, hn⟩ := h
  obtain ⟨m, hm, hlt⟩ := hs row (List.mem_of_find?_eq_some hr)
  have he : (m : Int) = n := by
    rw [hm] at hn
    exact Cell.integer.inj hn
  omega

theorem accountNamed?_changeAccount_eq (s : Store) (name login : String) {change : AccountRow → AccountRow}
    (hc : ∀ r, (change r).username = r.username) :
    (s.changeAccount name change).accountNamed? login =
      (s.accountNamed? login).map fun r => if name = login then change r else r := by
  by_cases hn : name = login
  · subst hn
    simp only [if_true]
    exact accountNamed?_changeAccount s name hc
  · simp only [if_neg hn, Option.map_id']
    unfold accountNamed? changeAccount
    rw [List.find?_map]
    have hp : ((fun r : AccountRow => r.username == login) ∘ fun r => if r.username = name then change r else r) =
        fun r => r.username == login := by
      funext r
      simp only [Function.comp_apply]
      split
      · rw [hc]
      · rfl
    rw [hp]
    cases hf : s.accounts.rows.find? (fun r => r.username == login) with
    | none => rfl
    | some r =>
      have hr : r.username = login := by simpa using List.find?_some hf
      rw [Option.map_some, if_neg (hr ▸ Ne.symm hn)]

theorem counts_changeAccount (h : s.Counts login n) (name : String) (change : AccountRow → AccountRow)
    (hc : ∀ r, (change r).username = r.username) {m : Nat}
    (hm : ∀ r, r.failedLogins = .integer n → (change r).failedLogins = .integer m) :
    (s.changeAccount name change).Counts login (if name = login then m else n) := by
  obtain ⟨row, hr, hn⟩ := h
  refine ⟨if name = login then change row else row, ?_, ?_⟩
  · rw [accountNamed?_changeAccount_eq s name login hc, hr, Option.map_some]
  · by_cases he : name = login
    · rw [if_pos he, if_pos he]
      exact hm row hn
    · rw [if_neg he, if_neg he]
      exact hn

theorem failedLogins_afterFailure {r : AccountRow} (hr : r.failedLogins = .integer n) (hn : n < UInt32.size - 1) :
    r.afterFailure.failedLogins = .integer (n + 1 : Nat) := by
  have hs : UInt32.size = 4294967296 := rfl
  have hi : Cell.inRange ((n : Int) + 1) = true := by
    rw [Cell.inRange_iff]
    omega
  simp only [AccountRow.afterFailure, hr, Cell.next_integer hi, Cell.asInteger_integer]
  rfl

theorem toUInt32?_integer (hn : n < UInt32.size) : (Cell.integer n).toUInt32? = some (UInt32.ofNat n) := by
  rw [Cell.toUInt32?, Cell.toNat?_natCast hn, Option.map_some]

theorem recordFailedLogin_counts (h : s.Counts login n) (hn : n < UInt32.size - 1) :
    (s.recordFailedLogin login).1 = .ok (UInt32.ofNat (n + 1)) := by
  obtain ⟨row, hr, hf⟩ := h
  have hs : UInt32.size = 4294967296 := rfl
  have hlt : n + 1 < UInt32.size := by omega
  simp only [recordFailedLogin, hr, failedLogins_afterFailure hf hn, toUInt32?_integer hlt]
  rfl

theorem hasRoom_changeAccount {k : Nat} (h : s.HasRoom (k + 1)) (name : String) (change : AccountRow → AccountRow)
    (hc : ∀ (r : AccountRow) (n : Nat), r.failedLogins = .integer n → n < UInt32.size - 1 →
      ∃ m ≤ n + 1, (change r).failedLogins = .integer (m : Nat)) :
    (s.changeAccount name change).HasRoom k := by
  intro row hr
  obtain ⟨r, hm, rfl⟩ := List.mem_map.mp hr
  obtain ⟨n, hn, hk⟩ := h r hm
  split
  · obtain ⟨m, hm, hf⟩ := hc r n hn (by omega)
    exact ⟨m, hf, by omega⟩
  · exact ⟨n, hn, by omega⟩

theorem recordFailedLogin_ok (hs : s.Modest) (login : String) : ∃ n, (s.recordFailedLogin login).1 = .ok n := by
  cases hr : s.accountNamed? login with
  | none =>
    simp only [recordFailedLogin, hr]
    exact ⟨0, rfl⟩
  | some row =>
    obtain ⟨n, hf, hn⟩ := hs row (List.mem_of_find?_eq_some hr)
    exact ⟨_, recordFailedLogin_counts ⟨row, hr, hf⟩ hn⟩

end Store

namespace Directory.Call

/-- What a call makes of the number of failed logons of an account. -/
def tallied (login : String) (n : Nat) : Directory.Call → Nat
  | .recordFailedLogin name => if name = login then n + 1 else n
  | .persistLogon record => if record.login = login then 0 else n
  | _ => n

def tally (login : String) (n : Nat) (cs : List Directory.Call) : Nat := cs.foldl (tallied login) n

def Unstored (login : String) (cs : List Directory.Call) : Prop :=
  ∀ record, .persistLogon record ∈ cs → record.login ≠ login

variable {s : Store} {login : String} {n : Nat} {cs : List Directory.Call}

@[simp] theorem tally_append (login : String) (n : Nat) (cs ds : List Directory.Call) :
    tally login n (cs ++ ds) = tally login (tally login n cs) ds := List.foldl_append

/-- As long as no logon of the account is stored, the tally is what there was and the failed logons since. -/
theorem tally_of_unstored (hc : Unstored login cs) :
    tally login n cs = n + cs.count (.recordFailedLogin login) := by
  induction cs generalizing n with
  | nil => rfl
  | cons c cs ih =>
    have hcs : Unstored login cs := fun record hr => hc record (List.mem_cons_of_mem _ hr)
    change tally login (tallied login n c) cs = _
    rw [ih hcs, List.count_cons]
    cases c with
    | recordFailedLogin name =>
      by_cases hn : name = login
      · simp [tallied, hn]
        omega
      · simp [tallied, hn]
    | persistLogon record => simp [tallied, hc record List.mem_cons_self]
    | _ => simp [tallied]

theorem tally_of_stored {before after : List Directory.Call} {record : LogonRecord} (hr : record.login = login)
    (ha : Unstored login after) :
    tally login n (before ++ .persistLogon record :: after) = after.count (.recordFailedLogin login) := by
  rw [tally_append]
  change tally login (if record.login = login then 0 else _) after = _
  rw [if_pos hr, tally_of_unstored ha, Nat.zero_add]

/-- A call changes the counter of an account as it is tallied. -/
theorem counts_perform (h : s.Counts login n) (hn : n < UInt32.size - 1) (c : Directory.Call) (now : Int) :
    (c.perform s now).2.Counts login (c.tallied login n) := by
  cases c with
  | recordFailedLogin name =>
    cases hr : s.accountNamed? name with
    | none =>
      have hne : name ≠ login := by
        rintro rfl
        obtain ⟨row, hrow, -⟩ := h
        rw [hr] at hrow
        cases hrow
      simp only [perform, Store.recordFailedLogin, hr, tallied, if_neg hne]
      exact h
    | some row =>
      simp only [perform, Store.recordFailedLogin, hr]
      exact Store.counts_changeAccount h name AccountRow.afterFailure (fun _ => rfl)
        fun r hf => Store.failedLogins_afterFailure hf hn
  | persistLogon record =>
    exact Store.counts_changeAccount (m := 0) h record.login (·.afterLogon record now) (fun _ => rfl) fun _ _ => rfl
  | autoBan target seconds =>
    change (s.autoBan now target seconds).2.Counts login n
    unfold Store.Counts Store.accountNamed?
    rw [s.accounts_autoBan now target seconds]
    exact h
  | isIpBanned ip => exact h
  | fetchByLogin name => exact h
  | countsByAccount account => exact h
  | listRealms => exact h

theorem hasRoom_perform {k : Nat} (h : s.HasRoom (k + 1)) (c : Directory.Call) (now : Int) :
    (c.perform s now).2.HasRoom k := by
  have hs := h.less
  cases c with
  | recordFailedLogin name =>
    cases hr : s.accountNamed? name with
    | none =>
      simp only [perform, Store.recordFailedLogin, hr]
      exact hs
    | some row =>
      simp only [perform, Store.recordFailedLogin, hr]
      exact Store.hasRoom_changeAccount h name AccountRow.afterFailure fun r n hn hlt =>
        ⟨n + 1, Nat.le_refl _, Store.failedLogins_afterFailure hn hlt⟩
  | persistLogon record =>
    exact Store.hasRoom_changeAccount h record.login (·.afterLogon record now) fun r n hn hlt =>
      ⟨0, Nat.zero_le _, rfl⟩
  | autoBan target seconds =>
    change (s.autoBan now target seconds).2.HasRoom k
    unfold Store.HasRoom
    rw [s.accounts_autoBan now target seconds]
    exact hs
  | isIpBanned ip => exact hs
  | fetchByLogin name => exact hs
  | countsByAccount account => exact hs
  | listRealms => exact hs

end Directory.Call

end RealmLogon
