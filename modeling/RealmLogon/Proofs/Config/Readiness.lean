import RealmLogon.Cipher.Stored
import RealmLogon.Program.Service
import RealmLogon.Proofs.Config.Accepted
import RealmLogon.Proofs.Sequences

/-! What an accepted configuration can be used for without a further check. The texts of keys and hashes are read again
when the service starts, and are read then as they were read before; the two ranges of builds keep every build apart. -/

namespace RealmLogon

/-- Secrets by their names, as byte strings of any length. -/
abbrev SecretStore := List (String × Bytes)

namespace SecretStore

def masterKeyName : String := "totp_master_key"

def ofKey (key : Option Sealed.MasterKey) : SecretStore := (key.map fun k => (masterKeyName, k.toList)).toList

/-- The secret as it is used, if the key is taken from the store: a key of a wrong length opens nothing. -/
def reveal (s : SecretStore) (stored : Bytes) : Except Sealed.Error Bytes :=
  match s.lookup masterKeyName with
  | none => .ok stored
  | some key =>
    match Octets.ofList? 32 key with
    | some k => Sealed.openSecret stored k
    | none => .error .decryption

theorem lookup_ofKey (key : Option Sealed.MasterKey) :
    (ofKey key).lookup masterKeyName = key.map Octets.toList := by
  cases key with
  | none => rfl
  | some k => simp [ofKey]

/-- The key in the store has the right length, so that the store can be left out. -/
theorem reveal_ofKey (key : Option Sealed.MasterKey) (stored : Bytes) :
    (ofKey key).reveal stored = StoredSecret.reveal key stored := by
  rw [reveal, lookup_ofKey]
  cases key with
  | none => rfl
  | some k =>
    simp only [Option.map_some, Octets.ofList?_toList]
    rfl

end SecretStore

namespace ListedBuild

theorem exists_read_iff (b : ListedBuild) :
    (∃ i, b.read = .ok i) ↔ ∀ t ∈ b.winHash.toList ++ b.macHash.toList, ∃ d, Hex.parse 20 t = .ok d := by
  have hhash : ∀ text : Option String,
      (∃ d, (executableHash text).mapError (BuildError.mk b.build) = .ok d) ↔
        ∀ t ∈ text.toList, ∃ d, Hex.parse 20 t = .ok d := by
    intro text
    cases text with
    | none => simp [executableHash, mapError_eq_ok_iff]
    | some t => simp [executableHash, mapError_eq_ok_iff, map_eq_ok_iff]
  rw [List.forall_mem_append, ← hhash, ← hhash]
  unfold read
  dsimp only
  generalize (executableHash b.winHash).mapError (BuildError.mk b.build) = win
  generalize (executableHash b.macHash).mapError (BuildError.mk b.build) = mac
  cases win with
  | error e => exact ⟨fun ⟨_, h⟩ => (nomatch h), fun ⟨⟨_, h⟩, _⟩ => (nomatch h)⟩
  | ok win =>
    cases mac with
    | error e => exact ⟨fun ⟨_, h⟩ => (nomatch h), fun ⟨_, _, h⟩ => (nomatch h)⟩
    | ok mac => exact ⟨fun _ => ⟨⟨win, rfl⟩, mac, rfl⟩, fun _ => ⟨_, rfl⟩⟩

/-- What is known of a build is what is listed of it, with the hashes that are spelt. -/
structure IsReadAs (l : ListedBuild) (b : Build) : Prop where
  build : b.build = l.build
  version : b.major = l.major ∧ b.minor = l.minor ∧ b.bugfix = l.bugfix
  hotfix : b.hotfix = l.hotfix.toList.head?
  winHash : l.winHash.map (Hex.parse 20) = b.winHash.map .ok
  macHash : l.macHash.map (Hex.parse 20) = b.macHash.map .ok

theorem parse_of_executableHash {text : Option String} {build : UInt16} {d : Option Digest}
    (h : (executableHash text).mapError (BuildError.mk build) = .ok d) : text.map (Hex.parse 20) = d.map .ok := by
  rw [mapError_eq_ok_iff] at h
  cases text with
  | none =>
    cases h
    rfl
  | some t =>
    obtain ⟨k, hk, rfl⟩ := map_eq_ok_iff.mp h
    exact congrArg some hk

theorem isReadAs_of_read {l : ListedBuild} {b : Build} (h : l.read = .ok b) : l.IsReadAs b := by
  unfold read at h
  dsimp only at h
  cases hwin : (executableHash l.winHash).mapError (BuildError.mk l.build) with
  | error e =>
    rw [hwin] at h
    cases h
  | ok win =>
    cases hmac : (executableHash l.macHash).mapError (BuildError.mk l.build) with
    | error e =>
      rw [hwin, hmac] at h
      cases h
    | ok mac =>
      rw [hwin, hmac] at h
      cases h
      exact ⟨rfl, ⟨rfl, rfl, rfl⟩, rfl, parse_of_executableHash hwin, parse_of_executableHash hmac⟩

end ListedBuild

namespace BuildRange

variable {r s : BuildRange}

theorem contains_iff {build : UInt16} : r.contains build = true ↔ r.first ≤ build ∧ build ≤ r.last := by
  rw [contains, Bool.and_eq_true, decide_eq_true_eq, decide_eq_true_eq]

theorem isEmpty_eq_false_iff : r.isEmpty = false ↔ r.first ≤ r.last := by
  rw [isEmpty, decide_eq_false_iff_not, UInt16.not_lt]

theorem not_contains_both (h : r.overlaps s = false) (build : UInt16) :
    ¬(r.contains build = true ∧ s.contains build = true) := by
  rintro ⟨hr, hs⟩
  rw [contains_iff] at hr hs
  have ho : r.overlaps s = true := by
    simp only [overlaps, Bool.and_eq_true, decide_eq_true_eq]
    exact ⟨UInt16.le_trans hr.1 hs.2, UInt16.le_trans hs.1 hr.2⟩
  rw [h] at ho
  cases ho

end BuildRange

namespace BuildTable

variable {t : BuildTable}

/-- The generation of a build if the other range is looked at first. -/
def expansionPreFirst (t : BuildTable) (build : UInt16) : Expansion :=
  if t.pre.contains build then .pre else if t.post.contains build then .post else .invalid

theorem expansion_of_disjoint {build : UInt16}
    (h : ¬(t.pre.contains build = true ∧ t.post.contains build = true)) :
    (t.expansion build = .post ↔ t.post.contains build = true) ∧
    (t.expansion build = .pre ↔ t.pre.contains build = true) ∧
    (t.expansion build = .invalid ↔ t.pre.contains build = false ∧ t.post.contains build = false) ∧
    t.expansion build = t.expansionPreFirst build := by
  unfold expansion expansionPreFirst
  cases hpre : t.pre.contains build with
  | false => cases t.post.contains build <;> simp
  | true =>
    cases hpost : t.post.contains build with
    | false => simp
    | true => exact absurd ⟨hpre, hpost⟩ h

end BuildTable

namespace Config

variable {c : Config}

theorem checkHashes_eq_ok_iff :
    checkHashes c.builds.builds = .ok () ↔ ∃ table, BuildTable.ofListing c.builds = .ok table := by
  have hcheck : ∀ build t, checkHash build t = .ok () ↔ ∃ d, Hex.parse 20 t = .ok d := by
    intro build t
    simp [checkHash, mapError_eq_ok_iff, map_eq_ok_iff]
  have hread : (∃ table, BuildTable.ofListing c.builds = .ok table) ↔
      ∃ m, c.builds.builds.mapM ListedBuild.read = .ok m := by
    simp [BuildTable.ofListing, map_eq_ok_iff]
  rw [hread, exists_mapM_eq_ok_iff, checkHashes, forM_eq_ok_iff]
  simp only [forM_eq_ok_iff, hcheck, ListedBuild.exists_read_iff]

theorem checkMasterKey_eq_ok_iff : checkMasterKey c.masterKey = .ok () ↔ ∃ key, c.sealingKey = .ok key := by
  unfold checkMasterKey sealingKey
  cases c.masterKey with
  | none => simp
  | some t => simp [mapError_eq_ok_iff, map_eq_ok_iff]

/-- What a service takes from its configuration without a check of its own: a table of builds and a key. -/
structure Settles (c : Config) (table : BuildTable) (key : Option Sealed.MasterKey) : Prop where
  ofListing : BuildTable.ofListing c.builds = .ok table
  ranges : table.pre = c.builds.pre ∧ table.post = c.builds.post
  builds : List.Forall₂ ListedBuild.IsReadAs c.builds.builds table.builds
  sealingKey : c.sealingKey = .ok key
  isSome_key : key.isSome = c.masterKey.isSome
  parse_key : ∀ text ∈ c.masterKey, ∃ k, key = some k ∧ Hex.parse 32 text = .ok k
  /-- The key has its length in the store, and so never fails to open a secret because of it. -/
  length_key : ∀ b, (SecretStore.ofKey key).lookup SecretStore.masterKeyName = some b → b.length = 32
  reveal : ∀ stored, (SecretStore.ofKey key).reveal stored = StoredSecret.reveal key stored
  nonempty : table.pre.first ≤ table.pre.last ∧ table.post.first ≤ table.post.last
  disjoint : ∀ build, ¬(table.pre.contains build = true ∧ table.post.contains build = true)
  expansion : ∀ build, (table.expansion build = .post ↔ table.post.contains build = true) ∧
    (table.expansion build = .pre ↔ table.pre.contains build = true) ∧
    (table.expansion build = .invalid ↔ table.pre.contains build = false ∧ table.post.contains build = false) ∧
    table.expansion build = table.expansionPreFirst build
  post_iff : ∀ build, table.expansion build = .post ↔ c.builds.post.first ≤ build ∧ build ≤ c.builds.post.last
  pre_iff : ∀ build, table.expansion build = .pre ↔ c.builds.pre.first ≤ build ∧ build ≤ c.builds.pre.last
  /-- Sessions go by the times and by the limit that are configured. -/
  policy : (c.policy.shortTimeout = c.shortTimeout ∧ c.policy.longTimeout = c.longTimeout) ∧
    c.policy.maxWrongPasswords = c.maxWrongPasswords ∧ c.policy.banTime = c.banTime
  timeouts : 0 < c.policy.shortTimeout ∧ 0 < c.policy.longTimeout
  refreshInterval : 0 < c.refreshInterval
  banTime : 0 < c.policy.maxWrongPasswords → 0 < c.policy.banTime

theorem parse_of_sealingKey {key : Option Sealed.MasterKey} (h : c.sealingKey = .ok key) :
    key.isSome = c.masterKey.isSome ∧ ∀ text ∈ c.masterKey, ∃ k, key = some k ∧ Hex.parse 32 text = .ok k := by
  unfold sealingKey at h
  cases hm : c.masterKey with
  | none =>
    rw [hm] at h
    cases h
    exact ⟨rfl, by simp⟩
  | some t =>
    rw [hm] at h
    obtain ⟨k, hk, rfl⟩ := map_eq_ok_iff.mp h
    exact ⟨rfl, fun text ht => ⟨k, rfl, Option.some.inj ht ▸ hk⟩⟩

/-- The table has the ranges that are listed, and each build that is listed, in its place. -/
theorem table_of_ofListing {l : BuildListing} {table : BuildTable} (h : BuildTable.ofListing l = .ok table) :
    (table.pre = l.pre ∧ table.post = l.post) ∧
      List.Forall₂ ListedBuild.IsReadAs l.builds table.builds := by
  obtain ⟨m, hm, rfl⟩ := map_eq_ok_iff.mp h
  exact ⟨⟨rfl, rfl⟩, (mapM_eq_ok_iff.mp hm).imp fun _ _ => ListedBuild.isReadAs_of_read⟩

/-- An accepted configuration cannot fail later: its builds and its key are read again without an error, the key has its
length wherever it is used, each build is of the generation of the one of its ranges that contains it, and all times are
positive. A service becomes ready with it unless the countries of addresses cannot be loaded. -/
theorem accepted_config_settles {text : String} (h : parse text = .ok c) :
    ∃ table key, c.Settles table key ∧
      ∀ (before site : Site) (database : OpenDatabase) (clock : Int) (entropy : Entropy),
        ServiceCommand.ready before site c database clock entropy =
          (ServiceCommand.loadGeoIp before site c.geoIpPath).map fun geoip =>
            ⟨c, database, ⟨c.policy, table, geoip, key⟩,
              World.refresh ⟨database.store, clock, entropy, [], fun _ _ => false, []⟩⟩ := by
  obtain ⟨-, hv⟩ := parse_eq_ok h
  obtain ⟨⟨hpre, hpost⟩, hoverlap, hkey, hban, ⟨hshort, hlong⟩, hrefresh, hhashes⟩ := validate_eq_ok.mp hv
  -- The conditions read hashes and key in the way in which they are read again later.
  obtain ⟨table, htable⟩ := checkHashes_eq_ok_iff.mp hhashes
  obtain ⟨key, hk⟩ := checkMasterKey_eq_ok_iff.mp hkey
  obtain ⟨⟨htpre, htpost⟩, hbuilds⟩ := table_of_ofListing htable
  obtain ⟨hsome, hparse⟩ := parse_of_sealingKey hk
  have hdisjoint : ∀ build, ¬(table.pre.contains build = true ∧ table.post.contains build = true) := by
    rw [htpre, htpost]
    exact BuildRange.not_contains_both hoverlap
  have hexpansion := fun build => BuildTable.expansion_of_disjoint (hdisjoint build)
  refine ⟨table, key, ?_, fun before site database clock entropy => ?_⟩
  · exact {
      ofListing := htable
      ranges := ⟨htpre, htpost⟩
      builds := hbuilds
      sealingKey := hk
      isSome_key := hsome
      parse_key := hparse
      length_key := by
        intro b hb
        rw [SecretStore.lookup_ofKey] at hb
        obtain ⟨k, -, rfl⟩ := Option.map_eq_some_iff.mp hb
        exact k.length_toList
      reveal := SecretStore.reveal_ofKey key
      nonempty := by
        rw [htpre, htpost]
        exact ⟨BuildRange.isEmpty_eq_false_iff.mp hpre, BuildRange.isEmpty_eq_false_iff.mp hpost⟩
      disjoint := hdisjoint
      expansion := hexpansion
      post_iff := fun build => htpost ▸ (hexpansion build).1.trans BuildRange.contains_iff
      pre_iff := fun build => htpre ▸ (hexpansion build).2.1.trans BuildRange.contains_iff
      policy := ⟨⟨rfl, rfl⟩, rfl, rfl⟩
      timeouts := ⟨Nat.pos_of_ne_zero hshort, Nat.pos_of_ne_zero hlong⟩
      refreshInterval := Nat.pos_of_ne_zero hrefresh
      banTime := fun hmax => Nat.pos_of_ne_zero (hban.resolve_left (Nat.ne_of_gt hmax)) }
  · unfold ServiceCommand.ready ServiceCommand.sealingKey
    rw [hk, htable]
    cases ServiceCommand.loadGeoIp before site c.geoIpPath <;> rfl

namespace Keyed

def settings : String :=
  "[general]\nbind_address=\"a\"\n[database]\npath=\"d\"\n[security]\ntotp_master_key=" ++
  "\"000102030405060708090a0b0c0d0e0f101112131415161718191a1b1c1d1e1f\"\n" ++
  "[builds]\npre_expansion=[5875,6141]\npost_expansion=[8606,12340]\n"

/-- Its key is there, and the builds between the two ranges are of no generation. -/
theorem settings_settle : ∃ c table k, parse settings = .ok c ∧ c.Settles table (some k) ∧
    table.expansion 6141 = .pre ∧ table.expansion 6142 = .invalid ∧ table.expansion 8606 = .post := by
  have hread : (parse settings).toOption.map (fun c => (c.masterKey.isSome, c.builds.pre, c.builds.post)) =
      some (true, ⟨5875, 6141⟩, ⟨8606, 12340⟩) := by decide +kernel
  cases hc : parse settings with
  | error e =>
    rw [hc] at hread
    cases hread
  | ok c =>
    rw [hc] at hread
    obtain ⟨hsome, hranges⟩ := Prod.mk.inj (Option.some.inj hread)
    obtain ⟨hpre, hpost⟩ := Prod.mk.inj hranges
    obtain ⟨table, key, hs, -⟩ := accepted_config_settles hc
    obtain ⟨k, rfl⟩ := Option.isSome_iff_exists.mp (hs.isSome_key.trans hsome)
    obtain ⟨htpre, htpost⟩ := hs.ranges
    refine ⟨c, table, k, rfl, hs, (hs.pre_iff 6141).mpr ?_, (hs.expansion 6142).2.2.1.mpr ?_, (hs.post_iff 8606).mpr ?_⟩
    · rw [hpre]
      decide
    · rw [htpre, htpost, hpre, hpost]
      decide
    · rw [hpost]
      decide

end Keyed

end Config

end RealmLogon
