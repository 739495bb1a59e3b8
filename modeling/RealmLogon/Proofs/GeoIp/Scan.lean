import Mathlib.Data.List.Pairwise
import Mathlib.Data.List.Perm.Basic
import RealmLogon.Proofs.GeoIp.Lookup
import RealmLogon.Proofs.Net.AddressText
import RealmLogon.Proofs.Text.Trim

/-! Tables of ranges that have no address in common. Each record of a file writes one range; a look-up then gives what a
scan of the ranges from the first on gives, and the order of the records does not matter. -/

namespace RealmLogon

namespace Text.Numeral

/-- The texts of a number: digits, also with zeros in front of them, and perhaps a plus sign. -/
def Decimal (n : Nat) (cs : List Char) : Prop :=
  ∃ digits, (cs = digits ∨ cs = '+' :: digits) ∧ digits ≠ [] ∧ (∀ c ∈ digits, isDigit 10 c = true) ∧
    value 10 digits = n

theorem parse_eq_some_iff {base n : Nat} {cs : List Char} :
    parse base cs = some n ↔ cs ≠ [] ∧ (∀ c ∈ cs, isDigit base c = true) ∧ value base cs = n := by
  rw [parse, ← List.all_eq_true, ← and_assoc]
  split
  · rename_i h
    rw [Option.some.injEq, and_iff_right h]
  · rename_i h
    exact ⟨fun hn => absurd hn.symm (Option.some_ne_none n), fun hd => absurd hd.1 h⟩

theorem unsigned_eq_some_iff {bound n : Nat} {cs : List Char} :
    unsigned bound cs = some n ↔ n < bound ∧ Decimal n cs := by
  unfold unsigned
  rw [Option.filter_eq_some_iff, parse_eq_some_iff, decide_eq_true_eq, and_comm]
  refine and_congr_right fun _ => ⟨fun h => ?_, ?_⟩
  · split at h
    · exact ⟨_, .inr rfl, h⟩
    · exact ⟨_, .inl rfl, h⟩
  · rintro ⟨digits, rfl | rfl, hne, hd, hv⟩
    · split
      · rename_i r
        cases hd '+' List.mem_cons_self
      · exact ⟨hne, hd, hv⟩
    · exact ⟨hne, hd, hv⟩

theorem Decimal.mem {n : Nat} {cs : List Char} (h : Decimal n cs) {c : Char} (hc : c ∈ cs) :
    c = '+' ∨ isDigit 10 c = true := by
  obtain ⟨digits, rfl | rfl, -, hd, -⟩ := h
  · exact .inr (hd c hc)
  · exact (List.mem_cons.mp hc).imp_right (hd c)

end Text.Numeral

namespace GeoIp

open Text

/-- The texts of an address: a decimal number, or four bytes with dots between them. -/
inductive Written (bits : UInt32) : List Char → Prop
  | decimal {cs : List Char} (h : Numeral.Decimal bits.toNat cs) : Written bits cs
  | dotted : Written bits (Address.dotted bits)

/-- A field is the text of an address, with white space around it. -/
def Spells (bits : UInt32) (field : String) : Prop := ∃ body, Written bits body ∧ Surrounds body field

/-- A record writes a range; fields after the third are not looked at. -/
inductive Describes : Csv.Record → Range → Prop
  | intro {first last country : String} {more : List String} {a b : UInt32} (ha : Spells a first)
      (hb : Spells b last) :
      Describes ((first :: last :: country :: more).map Bytes.ofString) ⟨a, b, trim country⟩

variable {bits : UInt32}

theorem unsigned_dotted (bits : UInt32) : Numeral.unsigned UInt32.size (Address.dotted bits) = none := by
  have hdot : '.' ∈ Address.dotted bits := by simp [Address.dotted, joined]
  refine Option.eq_none_iff_forall_ne_some.mpr fun n hn => ?_
  rcases (Numeral.unsigned_eq_some_iff.mp hn).2.mem hdot with h | h <;> cases h

theorem isDigit_of_isBlank {c : Char} (h : isBlank c = true) : Numeral.isDigit 10 c = false := by
  rw [← Bool.not_eq_true, Token.isDigit_iff]
  simp only [isBlank, Bool.or_eq_true, Bool.and_eq_true, decide_eq_true_eq, beq_iff_eq] at h
  omega

theorem isBlank_of_written {body : List Char} (h : Written bits body) : ∀ c ∈ body, isBlank c = false := by
  intro c hc
  by_contra hblank
  rw [Bool.not_eq_false] at hblank
  have hdigit := isDigit_of_isBlank hblank
  cases h with
  | decimal h =>
    rcases h.mem hc with rfl | hd
    · cases hblank
    · rw [hdigit] at hd
      cases hd
  | dotted =>
    refine Address.notMem_dotted ?_ hdigit bits hc
    rintro rfl
    cases hblank

theorem address?_eq_some_iff {field : String} : address? field = some bits ↔ Spells bits field := by
  have hread : address? field = some bits ↔ Written bits (trim field).toList := by
    unfold address?
    dsimp only
    generalize (trim field).toList = cs
    constructor
    · intro h
      cases hn : Numeral.unsigned UInt32.size cs with
      | some n =>
        obtain ⟨hlt, hd⟩ := Numeral.unsigned_eq_some_iff.mp hn
        rw [hn] at h
        cases h
        exact .decimal (by rwa [UInt32.toNat_ofNat_of_lt' hlt])
      | none =>
        rw [hn] at h
        rw [Address.parseDotted_eq_some_iff.mp h]
        exact .dotted
    · rintro (h | _)
      · rw [Numeral.unsigned_eq_some_iff.mpr ⟨bits.toNat_lt_size, h⟩]
        exact congrArg some UInt32.ofNat_toNat
      · rw [unsigned_dotted]
        exact Address.parseDotted_dotted bits
  rw [hread]
  refine ⟨fun h => ⟨_, h, surrounds_trim field⟩, ?_⟩
  rintro ⟨body, hw, hs⟩
  rwa [(trim_eq_iff (isBlank_of_written hw)).mpr hs]

theorem ofRecord_eq_ok_iff {n : Nat} {record : Csv.Record} {r : Range} :
    Range.ofRecord n record = .ok r ↔ Describes record r := by
  constructor
  · intro h
    unfold Range.ofRecord at h
    split at h
    · cases h
    · rename_i fields hfields
      split at h
      · rename_i range hr
        cases h
        have hrecord : record = fields.map Bytes.ofString := by
          rw [← List.forall₂_eq_eq_eq, List.forall₂_map_right_iff]
          exact (mapM_eq_some_iff.mp hfields).imp fun _ _ hb => (Bytes.ofString_of_toString? hb).symm
        unfold Range.ofFields? at hr
        split at hr
        · obtain ⟨a, ha, hr⟩ := Option.bind_eq_some_iff.mp hr
          obtain ⟨b, hb, hr⟩ := Option.bind_eq_some_iff.mp hr
          cases hr
          rw [hrecord]
          exact .intro (address?_eq_some_iff.mp ha) (address?_eq_some_iff.mp hb)
        · cases hr
      · cases h
  · rintro @⟨first, last, country, more, a, b, ha, hb⟩
    have hfields : ((first :: last :: country :: more).map Bytes.ofString).mapM Bytes.toString? =
        some (first :: last :: country :: more) := by
      rw [mapM_eq_some_iff, List.forall₂_map_left_iff, List.forall₂_same]
      exact fun s _ => Bytes.toString?_ofString s
    rw [Range.ofRecord, hfields]
    simp [Range.ofFields?, address?_eq_some_iff.mpr ha, address?_eq_some_iff.mpr hb]

theorem listed_eq_ok_iff {file : Bytes} {l : List Range} :
    listed file = .ok l ↔ List.Forall₂ Describes (Csv.records file) l := by
  have hrecords : Csv.records file = ((Csv.records file).zipIdx 1).map (·.1) := (List.zipIdx_map_fst 1 _).symm
  rw [hrecords, List.forall₂_map_left_iff, listed, mapM_eq_ok_iff]
  simp only [ofRecord_eq_ok_iff]

/-- No range is the wrong way round, and no two have an address in common. -/
structure Separate (l : List Range) : Prop where
  ordered : ∀ r ∈ l, r.first ≤ r.last
  disjoint : l.Pairwise fun a b => ∀ bits, ¬(a.Contains bits ∧ b.Contains bits)

/-- The country of the first listed range that contains the address; a hyphen stands for none. -/
def scan (bits : UInt32) (l : List Range) : Option String :=
  ((l.find? (·.Contains bits)).map (·.country)).filter (· ≠ "-")

namespace Separate

variable {l : List Range} {r : Range}

theorem perm {l' : List Range} (h : Separate l) (hp : l'.Perm l) : Separate l' where
  ordered := fun r hr => h.ordered r (hp.mem_iff.mp hr)
  disjoint := (hp.pairwise_iff fun hd bits hc => hd bits hc.symm).mpr h.disjoint

theorem eq_of_contains (h : Separate l) {a b : Range} (ha : a ∈ l) (hb : b ∈ l) (hca : a.Contains bits)
    (hcb : b.Contains bits) : a = b := by
  by_contra hne
  have : Std.Symm fun a b : Range => ∀ bits, ¬(a.Contains bits ∧ b.Contains bits) :=
    ⟨fun _ _ hd bits hc => hd bits hc.symm⟩
  exact h.disjoint.forall ha hb hne bits ⟨hca, hcb⟩

theorem scan_of_contains (h : Separate l) (hr : r ∈ l) (hc : r.Contains bits) :
    scan bits l = if r.country = "-" then none else some r.country := by
  have hfind : l.find? (·.Contains bits) = some r := by
    cases hf : l.find? (·.Contains bits) with
    | none =>
      have hnone := List.find?_eq_none.mp hf r hr
      exact absurd (decide_eq_true hc) hnone
    | some q =>
      have hq : q.Contains bits := by simpa using List.find?_some hf
      rw [h.eq_of_contains (List.mem_of_find?_eq_some hf) hr hq hc]
  rw [scan, hfind, Option.map_some, Option.filter_some]
  by_cases hd : r.country = "-"
  · rw [if_pos hd, if_neg (by simpa using hd)]
  · rw [if_neg hd, if_pos (by simpa using hd)]

end Separate

theorem scan_of_not_contains {l : List Range} (h : ∀ r ∈ l, ¬r.Contains bits) : scan bits l = none := by
  have hfind : l.find? (·.Contains bits) = none := List.find?_eq_none.mpr fun r hr => by simpa using h r hr
  rw [scan, hfind]
  rfl

theorem scan_perm {l l' : List Range} (h : Separate l) (hp : l'.Perm l) : scan bits l' = scan bits l := by
  by_cases hc : ∃ r ∈ l, r.Contains bits
  · obtain ⟨r, hr, hc⟩ := hc
    rw [h.scan_of_contains hr hc, (h.perm hp).scan_of_contains (hp.mem_iff.mpr hr) hc]
  · have hnone : ∀ r ∈ l, ¬r.Contains bits := fun r hr hr' => hc ⟨r, hr, hr'⟩
    rw [scan_of_not_contains hnone, scan_of_not_contains fun r hr => hnone r (hp.mem_iff.mp hr)]

theorem country?_ofRanges_eq_scan {l : List Range} (h : Separate l) (bits : UInt32) :
    GeoIp.country? (ofRanges l) (.v4 bits) = scan bits l := by
  rw [country?_ofRanges]
  by_cases hc : ∃ r ∈ l, r.Contains bits
  · have hdisjoint : ∀ a ∈ l, ∀ b ∈ l, a ≠ b → ∀ bits, ¬(a.Contains bits ∧ b.Contains bits) :=
      fun a ha b hb hne bits hc => hne (h.eq_of_contains ha hb hc.1 hc.2)
    obtain ⟨r, hr, hd, hcr⟩ := exists_decisive_of_contains hc (not_shadowed_of_disjoint h.ordered hdisjoint hc)
    rw [hd, h.scan_of_contains hr hcr, Option.bind_some, Range.countryOf]
    by_cases hy : r.country = "-"
    · rw [if_pos hy, if_neg fun hn => hn.2 hy]
    · rw [if_neg hy, if_pos ⟨hcr.2, hy⟩]
  · have hnone : ∀ r ∈ l, ¬r.Contains bits := fun r hr hr' => hc ⟨r, hr, hr'⟩
    rw [scan_of_not_contains hnone]
    cases hd : decisive? bits l with
    | none => rfl
    | some r =>
      obtain ⟨hr, hle⟩ := mem_of_decisive? hd
      exact if_neg fun hn => hnone r hr ⟨hle, hn.1⟩

/-- Every accepted file writes one range with each of its records. If the ranges are separate, the country of an address
is the one that a scan of them finds, which is the country of the only range that contains the address, or none if there
is none; and every file with the same records in some order is accepted and answers all addresses alike. Addresses of
eight groups have no country. -/
theorem lookup_eq_scan {file : Bytes} {g : GeoIp} (h : load file = .ok g) :
    ∃ l, List.Forall₂ Describes (Csv.records file) l ∧ (∀ groups, GeoIp.country? g (.v6 groups) = none) ∧
      (Separate l →
        (∀ bits, GeoIp.country? g (.v4 bits) = scan bits l) ∧
        (∀ bits, ∀ r ∈ l, r.Contains bits → (∀ q ∈ l, q.Contains bits → q = r) ∧
          GeoIp.country? g (.v4 bits) = if r.country = "-" then none else some r.country) ∧
        (∀ bits, (∀ r ∈ l, ¬r.Contains bits) → GeoIp.country? g (.v4 bits) = none) ∧
        ∀ file' : Bytes, (Csv.records file').Perm (Csv.records file) →
          ∃ g', load file' = .ok g' ∧ ∀ a, GeoIp.country? g' a = GeoIp.country? g a) := by
  obtain ⟨l, hl, rfl⟩ := map_eq_ok_iff.mp h
  have hrecords := listed_eq_ok_iff.mp hl
  refine ⟨l, hrecords, fun _ => rfl, fun hs => ?_⟩
  have hscan := country?_ofRanges_eq_scan hs
  refine ⟨hscan, fun bits r hr hc => ⟨fun q hq hcq => hs.eq_of_contains hq hr hcq hc, ?_⟩, fun bits hnone => ?_,
    fun file' hperm => ?_⟩
  · rw [hscan, hs.scan_of_contains hr hc]
  · rw [hscan, scan_of_not_contains hnone]
  · obtain ⟨l', hl', hp⟩ := List.perm_comp_forall₂ hperm hrecords
    refine ⟨ofRanges l', by rw [load, listed_eq_ok_iff.mpr hl']; rfl, fun a => ?_⟩
    cases a with
    | v4 bits => rw [hscan, country?_ofRanges_eq_scan (hs.perm hp), scan_perm hs hp]
    | v6 groups => rfl

def twoRecords : Bytes := Bytes.ofString "1.0.1.0, 1.0.3.255 ,CN\n16777216,+16777471,AU,Australia\n"

def twoRanges : List Range := [⟨0x01000100, 0x010003FF, "CN"⟩, ⟨0x01000000, 0x010000FF, "AU"⟩]

theorem separate_twoRanges : Separate twoRanges where
  ordered := by decide
  disjoint := by
    refine List.pairwise_pair.mpr fun bits h => ?_
    exact absurd (UInt32.le_trans h.1.1 h.2.2) (by decide)

/-- The first and the last address of a range have its country, the addresses around the ranges have none. -/
theorem countries_of_twoRecords : ∃ g, load twoRecords = .ok g ∧
    GeoIp.country? g (.v4 0x00FFFFFF) = none ∧ GeoIp.country? g (.v4 0x01000000) = some "AU" ∧
      GeoIp.country? g (.v4 0x010003FF) = some "CN" ∧ GeoIp.country? g (.v4 0x01000400) = none := by
  have hload : load twoRecords = .ok (ofRanges twoRanges) := rfl
  obtain ⟨l, hl, -, hlookup⟩ := lookup_eq_scan hload
  obtain rfl : l = twoRanges := Except.ok.inj (listed_eq_ok_iff.mpr hl).symm
  obtain ⟨-, hinside, houtside, -⟩ := hlookup separate_twoRanges
  refine ⟨_, hload, houtside _ (by decide), ?_, ?_, houtside _ (by decide)⟩
  · exact (hinside _ ⟨0x01000000, 0x010000FF, "AU"⟩ (by decide) (by decide)).2
  · exact (hinside _ ⟨0x01000100, 0x010003FF, "CN"⟩ (by decide) (by decide)).2

end GeoIp

end RealmLogon
