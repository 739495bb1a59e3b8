import RealmLogon.Proofs.Config.Accepted
import RealmLogon.Proofs.Directory.Bans

/-! How long an automatic ban lasts. The end of a ban is kept in 64 bits with a sign. A ban whose end has room there lasts
for the time that is configured, to the second. Any longer one, though a document may ask for it, is never made: the
program stops where its end would be computed. -/

namespace RealmLogon

variable {now t : Int} {seconds : Nat}

namespace Store

variable {s s' : Store} {target : BanTarget} {banned : Bool}

/-- What is reported of a target at a time, after a step that concerns nothing but its bans: whether it is banned, and
that it is not banned for ever. -/
structure BanReport (s s' : Store) (target : BanTarget) (t : Int) (banned : Bool) : Prop where
  account (login : String) (a : Account) (htarget : target = .account a.id)
    (ha : s.fetchByLogin t login = .ok (some a)) :
    s'.fetchByLogin t login = .ok (some { a with isBanned := banned, isPermanentlyBanned := false })
  address (ip : Address) (htarget : target = .ip ip) : s'.isIpBanned t ip = banned

theorem banReport_of_terms (ha : s'.accounts = s.accounts) (hbanned : s'.isBanned target t = banned)
    (hpermanent : s'.isPermanentlyBanned target = false) : s.BanReport s' target t banned := by
  constructor
  · intro login a htarget hfetch
    rw [fetchByLogin_judged ha, hfetch]
    simp only [Except.map, Option.map_some, Account.judged, ← htarget, hbanned, hpermanent]
  · intro ip htarget
    rw [isIpBanned_eq, ← htarget, hbanned]

theorem banReport_ban (hnone : s.terms target = []) (hs : 1 ≤ seconds) (now t : Int) :
    s.BanReport (s.ban target now (now + seconds)) target t (decide (t < now + seconds)) := by
  have hterms : (s.ban target now (now + seconds)).terms target = [.automatic now seconds] := by
    rw [terms_ban, if_pos rfl, hnone]
    rfl
  refine banReport_of_terms (accounts_ban s target now _) ?_ ?_
  · rw [isBanned, hterms, List.any_cons, List.any_nil, Bool.or_false, BanTerm.inForce_automatic hs]
  · rw [isPermanentlyBanned, hterms, List.any_cons, List.any_nil, Bool.or_false, BanTerm.isEndless_automatic hs]

theorem banReport_of_none (hnone : s.terms target = []) (t : Int) : s.BanReport s target t false := by
  refine banReport_of_terms rfl ?_ ?_
  · rw [isBanned, hnone, List.any_nil]
  · rw [isPermanentlyBanned, hnone, List.any_nil]

/-- An automatic ban of a target without other bans lasts for the time that is configured, to the second and not for
ever, if its end has room in 64 bits with a sign. Otherwise it is not made, and the call is not answered: the store is
as it was, and the target is not banned. -/
theorem automatic_ban_lasts_unless_overflow {text : String} {c : Config} (hc : Config.parse text = .ok c)
    (hmax : 0 < c.maxWrongPasswords) (now : Int) (s : Store) (target : BanTarget) (hnone : s.terms target = []) :
    (-0x8000000000000000 ≤ now + c.policy.banTime ∧ now + c.policy.banTime < 0x8000000000000000 →
      ∃ s', (Directory.Call.autoBan target c.policy.banTime).perform s now = (.ok (), s') ∧
        ∀ t, now ≤ t → s.BanReport s' target t (decide (t < now + c.policy.banTime))) ∧
    (¬(-0x8000000000000000 ≤ now + c.policy.banTime ∧ now + c.policy.banTime < 0x8000000000000000) →
      (Directory.Call.autoBan target c.policy.banTime).perform s now = (.error .overflow, s) ∧
        ∀ t, s.BanReport s target t false) := by
  obtain ⟨hpos, hlt⟩ : 1 ≤ c.policy.banTime ∧ c.policy.banTime < 0x8000000000000000 := Config.banTime_of_parse hc hmax
  constructor
  · intro hroom
    have htime : timeAfter? now c.policy.banTime = some (now + c.policy.banTime) := by
      rw [timeAfter?_eq hlt, if_pos (Cell.inRange_iff.mpr hroom)]
    exact ⟨_, autoBan_of_some s target htime, fun t _ => banReport_ban hnone hpos now t⟩
  · intro hroom
    exact ⟨autoBan_of_none s target ((timeAfter?_eq_none_iff hlt).mpr hroom), banReport_of_none hnone⟩

namespace Lenient

def settings (banTime : String) : String :=
  "[general]\nbind_address=\"a\"\n[database]\npath=\"d\"\n[builds]\npre_expansion=[1,2]\npost_expansion=[3,4]\n" ++
  "[security]\nwrong_pass_max_count=1\nwrong_pass_ban_time_sec=" ++ banTime ++ "\n"

theorem settings_accepted (banTime : String) (seconds : Nat)
    (h : (Config.parse (settings banTime)).toOption.map (fun c => (c.maxWrongPasswords, c.banTime)) =
      some (1, seconds)) :
    ∃ c, Config.parse (settings banTime) = .ok c ∧ 0 < c.maxWrongPasswords ∧ c.policy.banTime = seconds := by
  cases hc : Config.parse (settings banTime) with
  | error e =>
    rw [hc] at h
    cases h
  | ok c =>
    rw [hc] at h
    obtain ⟨hmax, hb⟩ := Prod.mk.inj (Option.some.inj h)
    refine ⟨c, rfl, ?_, hb⟩
    rw [hmax]
    decide

def store : Store := { Warden.store 0 with accountBans := [] }

/-- A ban of a minute is over after a minute. A ban for as long as a document can say is not made, neither of an account
nor of an address. -/
theorem longest_ban_never_begins :
    (∃ s' a a', (Directory.Call.autoBan (.account 1) 60).perform store 1000 = (.ok (), s') ∧
      s'.fetchByLogin 1059 "TESTER" = .ok (some a) ∧ a.isBanned = true ∧
      s'.fetchByLogin 1060 "TESTER" = .ok (some a') ∧ a'.isBanned = false) ∧
    (Directory.Call.autoBan (.account 1) 9223372036854775807).perform store 1000 = (.error .overflow, store) ∧
    (∃ a, store.fetchByLogin 1000 "TESTER" = .ok (some a) ∧ a.isBanned = false) ∧
    (Directory.Call.autoBan (.ip (.v4 2130706433)) 9223372036854775807).perform store 1000 =
      (.error .overflow, store) ∧ store.isIpBanned 1000 (.v4 2130706433) = false := by
  obtain ⟨short, hshort, hsmax, hs⟩ := settings_accepted "60" 60 (by decide +kernel)
  obtain ⟨long, hlong, hlmax, hl⟩ :=
    settings_accepted "9223372036854775807" 9223372036854775807 (by decide +kernel)
  have hminute := (automatic_ban_lasts_unless_overflow hshort hsmax 1000 store (.account 1) rfl).1
  have haccount := (automatic_ban_lasts_unless_overflow hlong hlmax 1000 store (.account 1) rfl).2
  have haddress := (automatic_ban_lasts_unless_overflow hlong hlmax 1000 store (.ip (.v4 2130706433)) rfl).2
  rw [hs] at hminute
  rw [hl] at haccount haddress
  obtain ⟨s', hs', hreport⟩ := hminute (by decide)
  obtain ⟨hstops, hnever⟩ := haccount (by decide)
  obtain ⟨hstops', hnever'⟩ := haddress (by decide)
  exact ⟨⟨s', _, _, hs', (hreport 1059 (by decide)).account "TESTER" _ rfl rfl, rfl,
      (hreport 1060 (by decide)).account "TESTER" _ rfl rfl, rfl⟩,
    hstops, ⟨_, (hnever 1000).account "TESTER" _ rfl rfl, rfl⟩, hstops', (hnever' 1000).address _ rfl⟩

end Lenient

end Store

end RealmLogon
