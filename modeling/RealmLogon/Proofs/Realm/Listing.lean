import Mathlib.Data.List.Forall2
import RealmLogon.Proofs.Realm.Announcement
import RealmLogon.Proofs.Session.Failures
import RealmLogon.Proofs.Wire.Capacity

/-! The list of realms that a client gets. Every realm with a number of one byte has its entry, in the order of the
realms; its flags tell whether the client can join it and whether a build follows. As long as the list fits into one
reply, the client reads exactly the entries that were made for it. -/

namespace RealmLogon

theorem BuildTable.info?_eq_some {t : BuildTable} {build : UInt16} {i : Build} (h : t.info? build = some i) :
    i ∈ t.builds ∧ i.build = build := by
  unfold info? at h
  have hb := List.find?_some h
  exact ⟨List.mem_reverse.mp (List.mem_of_find?_eq_some h), eq_of_beq hb⟩

namespace RealmFlag

/-- The flags that depend on the client. -/
def shown : UInt8 := offline ||| specifyBuild

theorem or_shown_and_offline (f : UInt8) : (f ||| shown) &&& offline = offline := by
  refine UInt8.toBitVec_inj.mp ?_
  simp only [shown, UInt8.toBitVec_and, UInt8.toBitVec_or]
  ext i hi
  simp only [BitVec.getElem_and, BitVec.getElem_or]
  cases offline.toBitVec[i] <;> simp

theorem or_and_not (f m : UInt8) : (f ||| m) &&& ~~~m = f &&& ~~~m := by
  refine UInt8.toBitVec_inj.mp ?_
  simp only [UInt8.toBitVec_and, UInt8.toBitVec_or, UInt8.toBitVec_not]
  ext i hi
  simp only [BitVec.getElem_and, BitVec.getElem_or, BitVec.getElem_not]
  cases m.toBitVec[i] <;> simp

end RealmFlag

namespace Announcement

variable {table : BuildTable} {client : Audience} {counts : CharacterCounts} {r : Realm} {e : RealmEntry}

/-- Flags apart from the build's are not changed for an unknown build. -/
theorem flags_and {m : UInt8} (hm : ~~~RealmFlag.specifyBuild &&& m = m) :
    flags table client r &&& m =
      (if joinable table client r.build then r.flags else r.flags ||| RealmFlag.shown) &&& m := by
  unfold flags
  dsimp only
  split
  · rfl
  · rw [UInt8.and_assoc, hm]
    rfl

theorem flags_and_offline (h : joinable table client r.build = false) :
    flags table client r &&& RealmFlag.offline = RealmFlag.offline := by
  rw [flags_and (by decide), h]
  exact RealmFlag.or_shown_and_offline r.flags

theorem flags_and_not_shown (table : BuildTable) (client : Audience) (r : Realm) :
    flags table client r &&& ~~~RealmFlag.shown = r.flags &&& ~~~RealmFlag.shown := by
  rw [flags_and (by decide)]
  split
  · rfl
  · exact RealmFlag.or_and_not r.flags RealmFlag.shown

/-- How the entry of a realm looks to a client. -/
structure IsEntryOf (table : BuildTable) (client : Audience) (counts : CharacterCounts) (r : Realm) (e : RealmEntry) :
    Prop where
  id : e.id.toNat = r.id.toNat
  kind : e.kind = r.kind
  locked : e.locked = true ↔ client.security < r.security
  address : e.address = (r.endpointFor client.ip).print
  population : e.population = r.population
  characters : e.characters = counts.get r.id
  timezone : e.timezone = r.timezone
  /-- A build follows if and only if the flags say so. -/
  hasBuild : e.build.isSome = true ↔ e.flags &&& RealmFlag.specifyBuild ≠ 0
  build (v : BuildVersion) (hv : e.build = some v) : ∃ i ∈ table.builds, table.info? r.build = some i ∧
    i.build = r.build ∧ v = ⟨i.major, i.minor, i.bugfix, r.build⟩
  unknownBuild (h : table.info? r.build = none) : e.flags &&& RealmFlag.specifyBuild = 0
  otherBuild (hc : client.expansion = .post) (h : r.build ≠ client.build) :
    e.flags &&& RealmFlag.offline = RealmFlag.offline
  otherGeneration (hc : client.expansion = .pre) (h : table.pre.contains r.build = false) :
    e.flags &&& RealmFlag.offline = RealmFlag.offline
  otherFlags : e.flags &&& ~~~RealmFlag.shown = r.flags &&& ~~~RealmFlag.shown

theorem not_joinable_of_post (hc : client.expansion = .post) {build : UInt16} (h : build ≠ client.build) :
    joinable table client build = false := by
  rw [joinable, hc]
  exact beq_false_of_ne h

theorem not_joinable_of_pre (hc : client.expansion = .pre) {build : UInt16} (h : table.pre.contains build = false) :
    joinable table client build = false := by
  rw [joinable, hc]
  dsimp only
  unfold BuildTable.expansion
  rw [h]
  split <;> rfl

theorem isEntryOf_of_announce? (h : announce? table client counts r = some e) : IsEntryOf table client counts r e := by
  unfold announce? at h
  split at h
  · cases h
  · rename_i hid
    cases h
    have hbuild : (version? table (flags table client r) r.build).isSome =
        (flags table client r &&& RealmFlag.specifyBuild != 0) := isSome_version? r
    constructor
    case id =>
      simp only [UInt32.toNat_toUInt8]
      omega
    case locked => exact decide_eq_true_iff
    case hasBuild =>
      dsimp only
      rw [hbuild, bne_iff_ne]
    case build =>
      intro v hv
      dsimp only [version?] at hv
      split at hv
      · cases hv
      · obtain ⟨i, hi, rfl⟩ := Option.map_eq_some_iff.mp hv
        obtain ⟨hmem, hb⟩ := BuildTable.info?_eq_some hi
        exact ⟨i, hmem, hi, hb, by rw [hb]⟩
    case unknownBuild =>
      intro hn
      have hnone : version? table (flags table client r) r.build = none := by
        rw [version?, hn]
        exact ite_self none
      rw [hnone] at hbuild
      exact bne_eq_false_iff_eq.mp hbuild.symm
    case otherBuild => exact fun hc hne => flags_and_offline (not_joinable_of_post hc hne)
    case otherGeneration => exact fun hc hp => flags_and_offline (not_joinable_of_pre hc hp)
    case otherFlags => exact flags_and_not_shown table client r
    all_goals rfl

theorem announce?_eq_none_iff : announce? table client counts r = none ↔ 255 < r.id.toNat := by
  unfold announce?
  split
  · rename_i hid
    exact iff_of_true rfl hid
  · rename_i hid
    exact iff_of_false (Option.some_ne_none _) hid

theorem forall₂_entries (table : BuildTable) (client : Audience) (counts : CharacterCounts) (realms : List Realm) :
    List.Forall₂ (IsEntryOf table client counts) (realms.filter (·.id.toNat ≤ 255))
      (entries table client counts realms) := by
  induction realms with
  | nil => exact .nil
  | cons r realms ih =>
    unfold entries at ih ⊢
    cases ha : announce? table client counts r with
    | none =>
      have hid := announce?_eq_none_iff.mp ha
      rw [List.filterMap_cons_none ha, List.filter_cons_of_neg (by simpa using hid)]
      exact ih
    | some e =>
      have hid : r.id.toNat ≤ 255 := by
        refine Nat.not_lt.mp fun hlt => ?_
        rw [announce?_eq_none_iff.mpr hlt] at ha
        cases ha
      rw [List.filterMap_cons_some ha, List.filter_cons_of_pos (by simpa using hid)]
      exact .cons (isEntryOf_of_announce? ha) ih

end Announcement

namespace RealmList

theorem sent_eq_of_fits {e : Expansion} {realms : List RealmEntry} (h : (body e realms).length ≤ maxBody) :
    sent e realms = realms := by
  have hall : realms <+: sent e realms := (isLongest_sent e realms).longest realms (List.prefix_refl _) h
  exact (isLongest_sent e realms).isPrefix.eq_of_length_le hall.length_le

theorem decode_encode_of_fits {e : Expansion} {realms : List RealmEntry} (hp : ∀ r ∈ realms, r.IsPlain e)
    (h : (body e realms).length ≤ maxBody) (more : Bytes) :
    decode (encode e realms ++ more) e = .ok (realms.map (·.seen e)) := by
  rw [decode, (takes_encode e hp).decode_append, sent_eq_of_fits h]

end RealmList

theorem World.realms_call (w : World) (c : Directory.Call) : (w.call c).2.realms = w.realms := by
  unfold World.call
  dsimp only
  split <;> rfl

/-- A list of realms has one entry for each realm whose number fits into a byte, in the order of the realms, and each
entry tells of its own realm. It is what the session answers with: as long as it fits into one reply, an expansion
client reads exactly these entries, and an older client all of them without number, lock and build. -/
theorem realm_list_reaches_client :
    (∀ table client counts realms, List.Forall₂ (Announcement.IsEntryOf table client counts)
      (realms.filter (·.id.toNat ≤ 255)) (Announcement.entries table client counts realms)) ∧
    ∀ (svc : Service) (s : Session) (m : Member) (w : World) (frame : Bytes), s.account = some m →
      (∀ r ∈ w.realms, Text.ZeroFree r.name) →
      let counts := (w.call (.countsByAccount m.id)).1.toOption.getD []
      let announced := Announcement.entries svc.builds (s.audience m) counts w.realms
      ∃ reply, (w.run (s.dispatch svc .realmList frame)).1 = ({ s with phase := .authed }, .ok reply) ∧
        ((RealmList.body s.expansion announced).length ≤ 65535 → ∀ more,
          (s.expansion = .post → RealmList.decode (reply ++ more) .post = .ok announced) ∧
          (s.expansion = .pre → RealmList.decode (reply ++ more) .pre =
            .ok (announced.map fun e => { e with id := 0, locked := false, build := none }))) := by
  refine ⟨Announcement.forall₂_entries, fun svc s m w frame hm hnames => ?_⟩
  intro counts announced
  have hplain : ∀ e ∈ announced, e.IsPlain s.expansion :=
    Announcement.isPlain_entries svc.builds (s.audience m) counts hnames s.expansion
  refine ⟨RealmList.encode s.expansion announced, ?_, fun hfits more => ?_⟩
  · have hrun : w.run (s.realmList svc) = _ := Session.realmList_run hm rfl
    rw [World.realms_call] at hrun
    exact congrArg Prod.fst hrun
  · have hread := RealmList.decode_encode_of_fits hplain hfits more
    constructor
    · intro he
      rw [he] at hread ⊢
      exact hread.trans (congrArg Except.ok (List.map_id announced))
    · intro he
      rw [he] at hread ⊢
      exact hread

namespace Outland

def service : Service where
  policy := ⟨false, 0, 0, .account, 10, 60⟩
  builds := ⟨⟨5875, 6005⟩, ⟨8606, 12340⟩, [⟨12340, 3, 3, 5, none, none, none⟩, ⟨8606, 2, 4, 3, none, none, none⟩]⟩
  geoip := .empty
  masterKey := none

def realm (id : UInt32) (name : String) (build : UInt16) : Realm :=
  ⟨id, name, .v4 0x0A000001, .v4 0x7F000001, .v4 0xFFFFFF00, 8085, 1, 0, 8, 0, ⟨0⟩, build⟩

def world : World where
  store := .empty
  clock := 0
  entropy := ⟨fun _ => 0, 0⟩
  realms := [realm 1 "Stormcrag" 12340, realm 300 "Ashfall" 12340, realm 2 "Outland" 8606, realm 3 "Classic" 5875]
  fails _ _ := false
  calls := []

def session (build : UInt16) (expansion : Expansion) : Session where
  peer := ⟨.v4 0xC6336407, 4000⟩
  phase := .authed
  build := build
  expansion := expansion
  account := some ⟨1, "TESTER", 0⟩

def entry (id : UInt8) (name : String) (flags : UInt8) (build : Option BuildVersion) : RealmEntry :=
  ⟨1, false, flags, name, "10.0.0.1:8085", ⟨0⟩, 0, 8, id, build⟩

/-- Of four realms an expansion client reads its own, one that names another build, and one of an unknown build. An
older client can join the last one only, and finds the other builds in the names. -/
theorem lists_three_of_four :
    (∃ s' reply, (world.run ((session 12340 .post).dispatch service .realmList [])).1 = (s', .ok reply) ∧
      RealmList.decode reply .post = .ok [entry 1 "Stormcrag" 0 none,
        entry 2 "Outland" 6 (some ⟨2, 4, 3, 8606⟩), entry 3 "Classic" 2 none]) ∧
    ∃ s' reply, (world.run ((session 5875 .pre).dispatch service .realmList [])).1 = (s', .ok reply) ∧
      RealmList.decode reply .pre = .ok [entry 0 "Stormcrag (3.3.5)" 6 none,
        entry 0 "Outland (2.4.3)" 6 none, entry 0 "Classic" 0 none] := by
  have hnames : ∀ r ∈ world.realms, Text.ZeroFree r.name := by decide
  obtain ⟨post, hpost, hreadpost⟩ :=
    realm_list_reaches_client.2 service (session 12340 .post) ⟨1, "TESTER", 0⟩ world [] rfl hnames
  obtain ⟨pre, hpre, hreadpre⟩ :=
    realm_list_reaches_client.2 service (session 5875 .pre) ⟨1, "TESTER", 0⟩ world [] rfl hnames
  refine ⟨⟨_, post, hpost, ?_⟩, _, pre, hpre, ?_⟩
  · have h := (hreadpost (by decide +kernel) []).1 rfl
    rw [List.append_nil] at h
    exact h
  · have h := (hreadpre (by decide +kernel) []).2 rfl
    rw [List.append_nil] at h
    exact h

end Outland

end RealmLogon
