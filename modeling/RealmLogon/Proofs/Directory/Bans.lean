import RealmLogon.Directory.Call
import RealmLogon.Proofs.Directory.Registration

/-! Automatic bans in the directory. A ban is kept under its target and the second in which it begins, so an
automatic ban takes the place of one that began in the same second, and all others stay as they are. No report of a
ban is weakened by that, unless the ban that is lost would have lasted longer. -/

namespace RealmLogon

theorem Cell.isAbove_of_le {c : Cell} {t u : Int} (h : c.isAbove u = true) (hle : t ≤ u) : c.isAbove t = true := by
  cases c with
  | null => exact h
  | integer n =>
    simp only [isAbove_integer, decide_eq_true_eq] at h ⊢
    omega
  | real d =>
    simp only [isAbove, decide_eq_true_eq] at h ⊢
    exact Int.lt_of_le_of_lt (Int.mul_le_mul_of_nonneg_right hle (Int.natCast_nonneg _)) h
  | text s => rfl
  | blob b => rfl

structure BanTerm where
  start : Cell
  finish : Cell

namespace BanTerm

def inForce (b : BanTerm) (t : Int) : Bool := b.finish.isAbove t || b.finish == b.start

/-- A ban whose two times are equal never ends. -/
def isEndless (b : BanTerm) : Bool := b.finish == b.start

theorem inForce_eq (b : BanTerm) (t : Int) : b.inForce t = (b.finish.isAbove t || b.isEndless) := rfl

def automatic (now : Int) (seconds : Nat) : BanTerm := ⟨.integer now, .integer (now + seconds)⟩

variable {b : BanTerm} {now t u : Int} {seconds : Nat}

theorem inForce_of_le (h : b.inForce u = true) (hle : t ≤ u) : b.inForce t = true := by
  simp only [inForce, Bool.or_eq_true] at h ⊢
  exact h.imp_left fun ha => Cell.isAbove_of_le ha hle

theorem inForce_of_isEndless (h : b.isEndless = true) (t : Int) : b.inForce t = true := by
  simp only [inForce, Bool.or_eq_true]
  exact .inr h

theorem isEndless_automatic (hs : 1 ≤ seconds) : (automatic now seconds).isEndless = false := by
  rw [Bool.eq_false_iff]
  intro h
  have he := Cell.integer.inj (eq_of_beq h)
  omega

theorem inForce_automatic (hs : 1 ≤ seconds) (t : Int) :
    (automatic now seconds).inForce t = decide (t < now + seconds) := by
  rw [inForce_eq, isEndless_automatic hs, Bool.or_false, automatic, Cell.isAbove_integer]

end BanTerm

/-- What a ban of a target is kept under: the number of an account, or the text of an address. -/
def BanTarget.key : BanTarget → UInt32 ⊕ String
  | account id => .inl id
  | ip a => .inr a.print

variable {s : Store} {now t : Int} {target : BanTarget} {seconds : Nat}

namespace Store

/-- The terms of the bans of a target; a ban of an account counts only as long as it is active. -/
def terms (s : Store) : BanTarget → List BanTerm
  | .account id =>
    (s.accountBans.filter fun b => b.account == .integer id.toNat && b.active == .integer 1).map
      fun b => ⟨b.start, b.finish⟩
  | .ip a => (s.ipBans.filter (·.ip == a.print)).map fun b => ⟨b.start, b.finish⟩

def isBanned (s : Store) (target : BanTarget) (t : Int) : Bool := (s.terms target).any (·.inForce t)

def isPermanentlyBanned (s : Store) (target : BanTarget) : Bool := (s.terms target).any (·.isEndless)

theorem isIpBanned_eq (s : Store) (t : Int) (ip : Address) : s.isIpBanned t ip = s.isBanned (.ip ip) t := by
  simp only [isIpBanned, isBanned, terms, List.any_map, List.any_filter]
  rfl

end Store

/-- An account with the bans that a store has for it. -/
def Account.judged (a : Account) (s : Store) (t : Int) : Account :=
  { a with isBanned := s.isBanned (.account a.id) t, isPermanentlyBanned := s.isPermanentlyBanned (.account a.id) }

namespace AccountRow

theorem id_of_toAccount {r : AccountRow} {bans : List AccountBan} {t : Int} {a : Account}
    (h : r.toAccount bans t = .ok a) : r.id = a.id.toNat := by
  unfold toAccount at h
  obtain ⟨id, hid, h⟩ := bind_eq_ok h
  -- The other columns do not matter here, but they come before the account does.
  iterate 10 obtain ⟨_, -, h⟩ := bind_eq_ok h
  cases h
  by_cases hn : 0 ≤ r.id ∧ r.id < UInt32.size
  · simp only [Cell.toUInt32?, Cell.toNat?, if_pos hn, Option.map_some, column, Except.ok.injEq] at hid
    have hsize : UInt32.size = 4294967296 := rfl
    rw [← hid, UInt32.toNat_ofNat']
    omega
  · simp only [Cell.toUInt32?, Cell.toNat?, if_neg hn, Option.map_none, column] at hid
    cases hid

/-- The bans of a store enter an account by its two flags only. -/
theorem toAccount_eq_judged (r : AccountRow) (s : Store) (t : Int) :
    r.toAccount s.accountBans t = (r.toAccount [] 0).map (·.judged s t) := by
  have hflags : r.toAccount s.accountBans t = (r.toAccount [] 0).map fun a =>
      { a with
        isBanned := s.accountBans.any (·.covers r.id t)
        isPermanentlyBanned := s.accountBans.any (·.isPermanent r.id) } := by
    change _ = _ <$> r.toAccount [] 0
    simp only [toAccount, map_bind, map_pure]
  rw [hflags]
  cases ha : r.toAccount [] 0 with
  | error e => rfl
  | ok a =>
    simp only [Except.map, Account.judged, Store.isBanned, Store.isPermanentlyBanned, Store.terms, List.any_map,
      List.any_filter, id_of_toAccount ha]
    rfl

end AccountRow

namespace Store

theorem fetchByLogin_judged {s' : Store} (h : s'.accounts = s.accounts) (t : Int) (login : String) :
    s'.fetchByLogin t login = (s.fetchByLogin t login).map (·.map (·.judged s' t)) := by
  have hn : s'.accountNamed? login = s.accountNamed? login := by
    rw [accountNamed?, h]
    rfl
  unfold fetchByLogin
  rw [hn]
  cases s.accountNamed? login with
  | none => rfl
  | some r =>
    simp only [AccountRow.toAccount_eq_judged]
    cases r.toAccount [] 0 <;> rfl

theorem judged_of_fetchByLogin {login : String} {a : Account} (h : s.fetchByLogin t login = .ok (some a)) :
    a = a.judged s t := by
  have hj := fetchByLogin_judged (s := s) rfl t login
  rw [h] at hj
  exact Option.some.inj (Except.ok.inj hj)

section Put

variable {α τ : Type} [BEq τ] [LawfulBEq τ] {key : α → τ} {f : α → BanTerm} {k : τ} {p : α → Bool} {x : α}

/-- The terms of the rows of one target, in a table in which a new row of this target has taken the place of those
with the same beginning. -/
theorem terms_put_same (hp : ∀ b, p b = true → key b = k) (rows : List α) (hk : key x = k) (hx : p x = true) :
    ((rows.filter (fun b => !(key x == key b && (f x).start == (f b).start)) ++ [x]).filter p).map f =
      ((rows.filter p).map f).filter (·.start != (f x).start) ++ [f x] := by
  rw [List.filter_append, List.filter_filter, List.filter_cons_of_pos hx, List.filter_nil, List.map_append,
    List.filter_map, List.filter_filter, List.map_singleton]
  congr 3
  funext b
  cases hb : p b with
  | false => rw [Bool.false_and, Bool.and_false]
  | true =>
    rw [hp b hb, hk, beq_self_eq_true, Bool.true_and, Bool.true_and, Bool.and_true, BEq.comm]
    rfl

theorem terms_put_other (hp : ∀ b, p b = true → key b = k) (rows : List α) (hk : key x ≠ k) :
    ((rows.filter (fun b => !(key x == key b && (f x).start == (f b).start)) ++ [x]).filter p).map f =
      (rows.filter p).map f := by
  have hx : ¬p x = true := fun hb => hk (hp x hb)
  rw [List.filter_append, List.filter_filter, List.filter_cons_of_neg hx, List.filter_nil, List.append_nil]
  congr 2
  funext b
  cases hb : p b with
  | false => rw [Bool.false_and]
  | true => rw [hp b hb, beq_false_of_ne hk, Bool.false_and, Bool.not_false, Bool.and_true]

end Put

/-- The bans of a target after a new one: those of the same target that began in the same second have made room for it,
and all others are as they were. -/
theorem terms_ban (s : Store) (target : BanTarget) (now last : Int) (other : BanTarget) :
    (s.ban target now last).terms other =
      if target.key = other.key then
        (s.terms other).filter (·.start != .integer now) ++ [⟨.integer now, .integer last⟩]
      else s.terms other := by
  let finish := Cell.integer last
  -- Accounts and addresses have different tables, so only targets of one kind matter to each other.
  cases target with
  | account id =>
    cases other with
    | ip a => rfl
    | account n =>
      let x : AccountBan := ⟨.integer id.toNat, .integer now, finish, banAuthor, banReason, .integer 1⟩
      let f : AccountBan → BanTerm := fun b => ⟨b.start, b.finish⟩
      have hp : ∀ b : AccountBan, (b.account == .integer n.toNat && b.active == .integer 1) = true →
          b.account = .integer n.toNat := by
        intro b hb
        rw [Bool.and_eq_true] at hb
        exact eq_of_beq hb.1
      simp only [BanTarget.key, Sum.inl.injEq]
      by_cases hid : id = n
      · subst hid
        rw [if_pos rfl]
        exact terms_put_same (x := x) (f := f) hp s.accountBans rfl (by simp [x])
      · have hne : x.account ≠ .integer n.toNat := by
          intro h
          exact hid (UInt32.toNat_inj.mp (Int.ofNat.inj (Cell.integer.inj h)))
        rw [if_neg hid]
        exact terms_put_other (x := x) (f := f) hp s.accountBans hne
  | ip a =>
    cases other with
    | account n => rfl
    | ip b =>
      let x : IpBan := ⟨a.print, .integer now, finish, banAuthor, banReason⟩
      let f : IpBan → BanTerm := fun r => ⟨r.start, r.finish⟩
      have hp : ∀ r : IpBan, (r.ip == b.print) = true → r.ip = b.print := fun r hr => eq_of_beq hr
      simp only [BanTarget.key, Sum.inr.injEq]
      by_cases ha : a.print = b.print
      · rw [if_pos ha]
        exact terms_put_same (x := x) (f := f) hp s.ipBans ha (beq_iff_eq.mpr ha)
      · rw [if_neg ha]
        exact terms_put_other (x := x) (f := f) hp s.ipBans ha

theorem terms_congr {other : BanTarget} (s : Store) (h : target.key = other.key) : s.terms target = s.terms other := by
  cases target with
  | account id =>
    cases other with
    | account n => rw [Sum.inl.inj h]
    | ip a => cases h
  | ip a =>
    cases other with
    | account n => cases h
    | ip b => rw [terms, terms, Sum.inr.inj h]

/-- A ban of the target that began this very second is still in force after some more. -/
def Outlasts (s : Store) (now : Int) (target : BanTarget) (seconds : Nat) : Prop :=
  ∃ b ∈ s.terms target, b.start = .integer now ∧ b.inForce (now + seconds) = true

/-- A ban of any target that is in force remains so after an automatic ban that none outlasts. -/
theorem isBanned_ban (hs : 1 ≤ seconds) (ho : ¬s.Outlasts now target seconds) {other : BanTarget}
    (h : s.isBanned other t = true) : (s.ban target now (now + seconds)).isBanned other t = true := by
  rw [isBanned, terms_ban]
  split
  · rename_i hk
    obtain ⟨b, hb, hforce⟩ := List.any_eq_true.mp h
    rw [List.any_append, List.any_filter, Bool.or_eq_true, List.any_eq_true]
    by_cases hstart : b.start = .integer now
    · -- The ban is replaced, and it ends no later than the new one.
      have hlt : t < now + seconds := by
        refine Int.not_le.mp fun hle => ho ⟨b, ?_, hstart, BanTerm.inForce_of_le hforce ?_⟩
        · rw [terms_congr s hk]
          exact hb
        · exact hle
      refine .inr ?_
      rw [List.any_cons, ← BanTerm.automatic, BanTerm.inForce_automatic hs, decide_eq_true hlt, Bool.true_or]
    · exact .inl ⟨b, hb, by rw [hforce, bne_iff_ne.mpr hstart]; rfl⟩
  · exact h

theorem isPermanentlyBanned_ban (ho : ¬s.Outlasts now target seconds) {other : BanTarget}
    (h : s.isPermanentlyBanned other = true) :
    (s.ban target now (now + seconds)).isPermanentlyBanned other = true := by
  rw [isPermanentlyBanned, terms_ban]
  split
  · rename_i hk
    obtain ⟨b, hb, hendless⟩ := List.any_eq_true.mp h
    have hstart : b.start ≠ .integer now := by
      intro hstart
      refine ho ⟨b, ?_, hstart, BanTerm.inForce_of_isEndless hendless _⟩
      rw [terms_congr s hk]
      exact hb
    rw [List.any_append, List.any_filter, Bool.or_eq_true, List.any_eq_true]
    exact .inl ⟨b, hb, by rw [hendless, bne_iff_ne.mpr hstart]; rfl⟩
  · exact h

/-- No report of a ban, from a time on, is weakened from one store to another. -/
def KeepsBans (s s' : Store) (now : Int) : Prop :=
  ∀ t, now ≤ t →
    (∀ login a, s.fetchByLogin t login = .ok (some a) → ∃ a', s'.fetchByLogin t login = .ok (some a') ∧
      (a.isBanned = true → a'.isBanned = true) ∧ (a.isPermanentlyBanned = true → a'.isPermanentlyBanned = true)) ∧
    ∀ ip, s.isIpBanned t ip = true → s'.isIpBanned t ip = true

theorem accounts_ban (s : Store) (target : BanTarget) (now last : Int) : (s.ban target now last).accounts = s.accounts := by
  cases target <;> rfl

theorem keepsBans_ban (hs : 1 ≤ seconds) (ho : ¬s.Outlasts now target seconds) :
    s.KeepsBans (s.ban target now (now + seconds)) now := by
  intro t _
  constructor
  · intro login a ha
    refine ⟨a.judged (s.ban target now (now + seconds)) t, ?_, fun hb => ?_, fun hb => ?_⟩
    · rw [fetchByLogin_judged (accounts_ban s target now _), ha]
      rfl
    · rw [judged_of_fetchByLogin ha] at hb
      exact isBanned_ban hs ho hb
    · rw [judged_of_fetchByLogin ha] at hb
      exact isPermanentlyBanned_ban ho hb
  · intro ip hip
    rw [isIpBanned_eq] at hip ⊢
    exact isBanned_ban hs ho hip

/-- After some seconds the target is banned by what began in another second than this one. -/
def HasOther (s : Store) (now : Int) (target : BanTarget) (seconds : Nat) : Prop :=
  ∃ b ∈ s.terms target, b.start ≠ .integer now ∧ b.inForce (now + seconds) = true

theorem isBanned_ban_end (hs : 1 ≤ seconds) :
    (s.ban target now (now + seconds)).isBanned target (now + seconds) = true ↔ s.HasOther now target seconds := by
  rw [HasOther, isBanned, terms_ban, if_pos rfl, List.any_append, List.any_filter, List.any_cons, List.any_nil,
    ← BanTerm.automatic, BanTerm.inForce_automatic hs, decide_eq_false (Int.lt_irrefl _), Bool.or_false, Bool.or_false,
    List.any_eq_true]
  simp only [Bool.and_eq_true, bne_iff_ne]

/-- The time after some seconds has room if it is a number of 64 bits with a sign; the seconds must be one, too. -/
theorem timeAfter?_eq (h : seconds < 0x8000000000000000) :
    timeAfter? now seconds = if Cell.inRange (now + seconds) then some (now + seconds) else none := by
  have hsize : UInt64.size = 18446744073709551616 := rfl
  have hcast : (seconds : Int).bmod UInt64.size = seconds := by
    rw [hsize]
    exact Int.bmod_eq_of_le (by omega) (by omega)
  rw [timeAfter?, hcast]

/-- Seconds that are no number with a sign count backwards, and then no time is as early as that. -/
theorem timeAfter?_of_inRange (hword : seconds < UInt64.size) (hu : Cell.inRange (now + seconds) = true) :
    timeAfter? now seconds = if seconds < 0x8000000000000000 then some (now + seconds) else none := by
  by_cases hlt : seconds < 0x8000000000000000
  · rw [timeAfter?_eq hlt, if_pos hu, if_pos hlt]
  · have hsize : UInt64.size = 18446744073709551616 := rfl
    have hcast : (seconds : Int).bmod UInt64.size = seconds - 18446744073709551616 := by
      rw [← Int.sub_bmod_right, hsize]
      exact Int.bmod_eq_of_le (by omega) (by omega)
    have hearly : ¬Cell.inRange (now + (seconds : Int).bmod UInt64.size) = true := by
      rw [Cell.inRange_iff, hcast]
      rw [Cell.inRange_iff] at hu
      omega
    rw [timeAfter?, if_neg hearly, if_neg hlt]

theorem timeAfter?_eq_none_iff (h : seconds < 0x8000000000000000) :
    timeAfter? now seconds = none ↔ ¬(-0x8000000000000000 ≤ now + seconds ∧ now + seconds < 0x8000000000000000) := by
  rw [timeAfter?_eq h, ← Cell.inRange_iff]
  by_cases hr : Cell.inRange (now + seconds) = true <;> simp [hr]

theorem autoBan_of_some (s : Store) (target : BanTarget) {last : Int} (h : timeAfter? now seconds = some last) :
    s.autoBan now target seconds = (.ok (), s.ban target now last) := by
  rw [autoBan, h]

theorem autoBan_of_none (s : Store) (target : BanTarget) (h : timeAfter? now seconds = none) :
    s.autoBan now target seconds = (.error .overflow, s) := by
  rw [autoBan, h]

theorem store_autoBan (s : Store) (now : Int) (target : BanTarget) (seconds : Nat) :
    (s.autoBan now target seconds).2 = s ∨ ∃ last, (s.autoBan now target seconds).2 = s.ban target now last := by
  cases h : timeAfter? now seconds with
  | none => exact .inl (by rw [autoBan_of_none s target h])
  | some last => exact .inr ⟨last, by rw [autoBan_of_some s target h]⟩

theorem accounts_autoBan (s : Store) (now : Int) (target : BanTarget) (seconds : Nat) :
    (s.autoBan now target seconds).2.accounts = s.accounts := by
  rcases s.store_autoBan now target seconds with he | ⟨last, he⟩
  · rw [he]
  · rw [he, accounts_ban]

/-- An automatic ban whose end has room is made if its seconds are a number with a sign, and otherwise the call is not
answered. Of its target it removes the bans that began in the same second, and it adds to what was there. So it weakens
no report of a ban, unless it removes one that would have lasted longer: then only bans that began in another second are
left when it is over. -/
theorem automatic_ban_weakens_only_longer (s : Store) (now : Int) (target : BanTarget) (seconds : Nat)
    (hword : seconds < UInt64.size) (hs : 1 ≤ seconds) (hu : Cell.inRange (now + seconds) = true) :
    ((∃ s', (Directory.Call.autoBan target seconds).perform s now = (.ok (), s')) ↔ seconds < 0x8000000000000000) ∧
    ∀ s', (Directory.Call.autoBan target seconds).perform s now = (.ok (), s') →
      (∀ other, s'.terms other =
        if target.key = other.key then (s.terms other).filter (·.start != .integer now) ++ [.automatic now seconds]
        else s.terms other) ∧
      (¬s.Outlasts now target seconds → s.KeepsBans s' now) ∧
      (s.Outlasts now target seconds →
        (∀ login a, s.fetchByLogin (now + seconds) login = .ok (some a) → target = .account a.id →
          a.isBanned = true ∧ ∃ a', s'.fetchByLogin (now + seconds) login = .ok (some a') ∧
            (a'.isBanned = true ↔ s.HasOther now target seconds)) ∧
        ∀ ip, target = .ip ip → s.isIpBanned (now + seconds) ip = true ∧
          (s'.isIpBanned (now + seconds) ip = true ↔ s.HasOther now target seconds)) := by
  have htime := timeAfter?_of_inRange hword hu
  by_cases hlt : seconds < 0x8000000000000000
  · rw [if_pos hlt] at htime
    rw [show (Directory.Call.autoBan target seconds).perform s now = _ from autoBan_of_some s target htime]
    refine ⟨⟨fun _ => hlt, fun _ => ⟨_, rfl⟩⟩, ?_⟩
    rintro s' ⟨⟩
    refine ⟨terms_ban s target now _, keepsBans_ban hs, fun ho => ?_⟩
    have hbefore : s.isBanned target (now + seconds) = true := by
      obtain ⟨b, hb, -, hforce⟩ := ho
      exact List.any_eq_true.mpr ⟨b, hb, hforce⟩
    constructor
    · intro login a ha htarget
      subst htarget
      refine ⟨?_, a.judged (s.ban (.account a.id) now (now + seconds)) (now + seconds), ?_, isBanned_ban_end hs⟩
      · rw [judged_of_fetchByLogin ha]
        exact hbefore
      · rw [fetchByLogin_judged (accounts_ban s _ now _), ha]
        rfl
    · intro ip htarget
      subst htarget
      rw [isIpBanned_eq, isIpBanned_eq]
      exact ⟨hbefore, isBanned_ban_end hs⟩
  · rw [if_neg hlt] at htime
    rw [show (Directory.Call.autoBan target seconds).perform s now = _ from autoBan_of_none s target htime]
    refine ⟨⟨?_, fun h => absurd h hlt⟩, ?_⟩
    · rintro ⟨s', ⟨⟩⟩
    · rintro s' ⟨⟩

namespace Warden

def store (start : Int) : Store where
  accounts :=
    ⟨[{ id := 1, username := "TESTER", salt := .blob (.replicate 32 0), verifier := .blob (.replicate 32 1) }], 1⟩
  accountBans := [⟨.integer 1, .integer start, .integer start, "warden", "for ever", .integer 1⟩]
  ipBans := []
  realms := .empty
  characters := []

theorem terms_store (start : Int) : (store start).terms (.account 1) = [⟨.integer start, .integer start⟩] := rfl

/-- An automatic ban leaves the ban without end if that began before, and ends it if that began in the same second. -/
theorem ends_ban_of_same_second :
    (∃ s', (Directory.Call.autoBan (.account 1) 60).perform (store 900) 1000 = (.ok (), s') ∧
      (store 900).KeepsBans s' 1000) ∧
    ∃ s' a a', (Directory.Call.autoBan (.account 1) 60).perform (store 1000) 1000 = (.ok (), s') ∧
      (store 1000).fetchByLogin 1060 "TESTER" = .ok (some a) ∧ a.isPermanentlyBanned = true ∧
      s'.fetchByLogin 1060 "TESTER" = .ok (some a') ∧ a'.isBanned = false := by
  constructor
  · obtain ⟨hmade, hban⟩ := automatic_ban_weakens_only_longer (store 900) 1000 (.account 1) 60 (by decide) (by decide)
      (by decide)
    obtain ⟨s', hs'⟩ := hmade.mpr (by decide)
    refine ⟨s', hs', (hban s' hs').2.1 ?_⟩
    rintro ⟨b, hb, hstart, -⟩
    rw [terms_store, List.mem_singleton] at hb
    subst hb
    exact absurd (Cell.integer.inj hstart) (by decide)
  · have ho : (store 1000).Outlasts 1000 (.account 1) 60 := ⟨_, List.mem_singleton_self _, rfl, rfl⟩
    obtain ⟨hmade, hban⟩ := automatic_ban_weakens_only_longer (store 1000) 1000 (.account 1) 60 (by decide) (by decide)
      (by decide)
    obtain ⟨s', hs'⟩ := hmade.mpr (by decide)
    obtain ⟨-, -, hweakens⟩ := hban s' hs'
    obtain ⟨-, a', ha', hbanned⟩ := (hweakens ho).1 "TESTER" _ rfl rfl
    refine ⟨s', _, a', hs', rfl, rfl, ha', Bool.eq_false_iff.mpr fun hb => ?_⟩
    obtain ⟨b, hb, hstart, -⟩ := hbanned.mp hb
    rw [terms_store, List.mem_singleton] at hb
    subst hb
    exact hstart rfl

end Warden

end Store

end RealmLogon
