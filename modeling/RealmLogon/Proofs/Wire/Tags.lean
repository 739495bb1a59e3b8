import RealmLogon.Build.Table
import RealmLogon.Proofs.Text.ZeroFree
import RealmLogon.Wire.Tag

/-! Tags and the names that they spell. Tag and name can be recovered from each other as long as the name has room in a
tag, and a name that has room there is told from every other one by its tag. -/

namespace RealmLogon

namespace Tag

open Text

/-- After a zero byte of a tag there are only zero bytes. -/
def IsPadded (tag : Octets 4) : Prop := tag.toList.Pairwise fun a b => a = 0 → b = 0

instance (tag : Octets 4) : Decidable (IsPadded tag) :=
  inferInstanceAs (Decidable (tag.toList.Pairwise fun a b => a = 0 → b = 0))

structure Fits (s : String) : Prop where
  zeroFree : ZeroFree s
  short : s.length ≤ 4

/-- A character for each byte. -/
def spelled (b : Bytes) : List Char := b.map fun x => Char.ofNat x.toNat

variable {s w : String} {tag : Octets 4} {b : Bytes} {cs : List Char}

section Spelled

theorem toNat_ofNat_byte (x : UInt8) : (Char.ofNat x.toNat).val.toNat = x.toNat := by
  have hx := x.toNat_lt
  exact toNat_ofNat (.inl (by omega))

theorem spelled_ascii (h : ∀ c ∈ cs, c.val.toNat < 128) :
    spelled (cs.map fun c => UInt8.ofNat c.val.toNat) = cs := by
  rw [spelled, List.map_map]
  have hc : ∀ c ∈ cs, Char.ofNat (UInt8.ofNat c.val.toNat).toNat = id c := by
    intro c hc
    rw [toNat_ofNat_ascii (h c hc)]
    exact Char.ofNat_toNat c
  exact (List.map_congr_left hc).trans (List.map_id cs)

theorem ofString_spelled (h : ∀ x ∈ b, x.toNat < 128) : Bytes.ofString (String.ofList (spelled b)) = b := by
  have ha : ∀ c ∈ spelled b, c.val.toNat < 128 := by
    intro c hc
    obtain ⟨x, hx, rfl⟩ := List.mem_map.mp hc
    rw [toNat_ofNat_byte]
    exact h x hx
  rw [ofString_ascii ha, spelled, List.map_map]
  have hb : ∀ x ∈ b, UInt8.ofNat (Char.ofNat x.toNat).val.toNat = id x := by
    intro x _
    rw [toNat_ofNat_byte]
    exact UInt8.ofNat_toNat
  exact (List.map_congr_left hb).trans (List.map_id b)

theorem filter_of_zero_notMem (h : 0 ∉ b) : b.filter (· != 0) = b :=
  List.filter_eq_self.mpr fun _ hx => bne_iff_ne.mpr fun h0 => h (h0 ▸ hx)

theorem name_of_toList {n : Nat} (h : tag.toList = b ++ List.replicate n 0) :
    name tag = String.ofList (spelled (b.reverse.filter (· != 0))) := by
  rw [name, h, List.reverse_append, List.reverse_replicate, List.filter_append,
    List.filter_replicate_of_neg (by decide), List.nil_append, spelled]

end Spelled

section OfName

/-- The bytes of a name back to front, and then zeros. -/
theorem toList_ofName (s : String) : (ofName s).toList =
    ((Bytes.ofString s).take 4).reverse ++ List.replicate (4 - min (Bytes.ofString s).length 4) 0 := by
  simp only [ofName, List.reverse_append, List.reverse_replicate]
  rw [List.drop_left' List.length_replicate, List.take_left' List.length_replicate]

/-- What is left of a name in its tag: of the first four bytes those that are no zeros. -/
theorem name_ofName (s : String) :
    name (ofName s) = String.ofList (spelled (((Bytes.ofString s).take 4).filter (· != 0))) := by
  rw [name_of_toList (toList_ofName s), List.reverse_reverse]

theorem name_ofName_of_zeroFree (h : ZeroFree s) :
    name (ofName s) = String.ofList (spelled ((Bytes.ofString s).take 4)) := by
  have hz : 0 ∉ (Bytes.ofString s).take 4 := fun hm => zero_notMem_ofString h (List.mem_of_mem_take hm)
  rw [name_ofName, filter_of_zero_notMem hz]

theorem name_ofName_of_ascii (hz : ZeroFree s) (ha : IsAscii s) :
    name (ofName s) = String.ofList (s.toList.take 4) := by
  have hb : Bytes.ofString s = s.toList.map fun c => UInt8.ofNat c.val.toNat := by
    rw [← ofString_ascii ha, String.ofList_toList]
  have ht : ∀ c ∈ s.toList.take 4, c.val.toNat < 128 := fun c hc => ha c (List.mem_of_mem_take hc)
  rw [name_ofName_of_zeroFree hz, hb, ← List.map_take, spelled_ascii ht]

theorem Fits.length_toList (h : Fits s) : s.toList.length ≤ 4 := by
  rw [String.length_toList]
  exact h.short

theorem name_ofName_of_fits (h : Fits s) (ha : IsAscii s) : name (ofName s) = s := by
  rw [name_ofName_of_ascii h.zeroFree ha, List.take_of_length_le h.length_toList, String.ofList_toList]

end OfName

section Name

theorem exists_body (h : b.Pairwise fun x y => x = 0 → y = 0) :
    ∃ body n, b = body ++ List.replicate n 0 ∧ 0 ∉ body := by
  induction h with
  | nil => exact ⟨[], 0, rfl, List.not_mem_nil⟩
  | @cons x rest hx _ ih =>
    by_cases h0 : x = 0
    · refine ⟨[], rest.length + 1, ?_, List.not_mem_nil⟩
      rw [List.nil_append, List.replicate_succ, h0]
      exact congrArg _ (List.eq_replicate_iff.mpr ⟨rfl, fun y hy => hx y hy h0⟩)
    · obtain ⟨body, n, rfl, hb⟩ := ih
      exact ⟨x :: body, n, rfl, by simp [hb, Ne.symm h0]⟩

/-- A tag in ASCII with its zeros at the end is the tag of the name that it spells. -/
theorem ofName_name (ha : ∀ x ∈ tag.toList, x.toNat < 128) (hp : IsPadded tag) : ofName (name tag) = tag := by
  obtain ⟨body, n, he, hb⟩ := exists_body hp
  have hl : body.length + n = 4 := by
    rw [← tag.length_toList, he, List.length_append, List.length_replicate]
  have hascii : ∀ x ∈ body.reverse, x.toNat < 128 := by
    intro x hx
    refine ha x ?_
    rw [he]
    exact List.mem_append_left _ (List.mem_reverse.mp hx)
  have hname : Bytes.ofString (name tag) = body.reverse := by
    rw [name_of_toList he, filter_of_zero_notMem fun hm => hb (List.mem_reverse.mp hm), ofString_spelled hascii]
  have htake : body.reverse.take 4 = body.reverse := List.take_of_length_le (by rw [List.length_reverse]; omega)
  have hpadding : 4 - min body.length 4 = n := by omega
  apply Octets.ext
  rw [toList_ofName, hname, htake, List.reverse_reverse, List.length_reverse, hpadding, he]

end Name

section Told

/-- Characters of which the first bytes are of ASCII, as many as there are characters. -/
theorem ascii_of_front {n : Nat} (hl : cs.length ≤ n)
    (h : ∀ x ∈ (cs.flatMap String.utf8EncodeChar).take n, x.toNat < 128) : ∀ c ∈ cs, c.val.toNat < 128 := by
  induction cs generalizing n with
  | nil => exact fun c hc => absurd hc List.not_mem_nil
  | cons c cs ih =>
    cases n with
    | zero => exact absurd hl (Nat.not_succ_le_zero _)
    | succ n =>
      have hc : c.val.toNat < 128 := by
        refine Nat.not_le.mp fun hn => ?_
        obtain ⟨lead, next, more, he, hlead⟩ := encode_of_not_ascii hn
        rw [List.flatMap_cons, he] at h
        exact absurd (h lead List.mem_cons_self) (Nat.not_lt.mpr hlead)
      rw [List.flatMap_cons, encode_of_ascii hc] at h
      intro d hd
      rcases List.mem_cons.mp hd with rfl | hd
      · exact hc
      · exact ih (Nat.le_of_succ_le_succ hl) (fun x hx => h x (List.mem_cons_of_mem _ hx)) d hd

/-- A name that has room in a tag is read from it as a name in ASCII only if it is that name. -/
theorem name_ofName_eq_iff (hs : Fits s) (hw : Fits w) (ha : IsAscii w) : name (ofName s) = w ↔ s = w := by
  constructor
  · intro h
    have hchars : spelled ((Bytes.ofString s).take 4) = w.toList := by
      rw [← h, name_ofName_of_zeroFree hs.zeroFree, String.toList_ofList]
    have hfront : ∀ x ∈ (Bytes.ofString s).take 4, x.toNat < 128 := by
      intro x hx
      rw [← toNat_ofNat_byte x]
      exact ha _ (hchars ▸ List.mem_map_of_mem hx)
    rw [ofString_eq] at hfront
    rw [← h, name_ofName_of_fits hs (ascii_of_front hs.length_toList hfront)]
  · rintro rfl
    exact name_ofName_of_fits hw ha

end Told

end Tag

section Resolved

variable {s : String}

theorem findIdx?_congr {α : Type} {l : List α} {p q : α → Bool} (h : ∀ x ∈ l, p x = q x) :
    l.findIdx? p = l.findIdx? q := by
  induction l with
  | nil => rfl
  | cons x l ih =>
    rw [List.findIdx?_cons, List.findIdx?_cons, h x List.mem_cons_self, ih fun y hy => h y (List.mem_cons_of_mem x hy)]

theorem fits_locales : ∀ w ∈ locales, Text.ZeroFree w ∧ w.length ≤ 4 ∧ Text.IsAscii w := by decide

theorem localeIndex_name_ofName (h : Tag.Fits s) : localeIndex (Tag.name (Tag.ofName s)) = localeIndex s := by
  have hw : ∀ w ∈ locales, (w == Tag.name (Tag.ofName s)) = (w == s) := by
    intro w hw
    obtain ⟨hz, hl, ha⟩ := fits_locales w hw
    rw [Bool.eq_iff_iff, beq_iff_eq, beq_iff_eq, eq_comm, eq_comm (a := w)]
    exact Tag.name_ofName_eq_iff h ⟨hz, hl⟩ ha
  rw [localeIndex, localeIndex, findIdx?_congr hw]

theorem BuildTable.executableHash?_name_ofName (t : BuildTable) (build : UInt16) (h : Tag.Fits s) :
    t.executableHash? build (Tag.name (Tag.ofName s)) = t.executableHash? build s := by
  have hwin := Tag.name_ofName_eq_iff (w := "Win") h ⟨by decide, by decide⟩ (by decide)
  have hmac := Tag.name_ofName_eq_iff (w := "OSX") h ⟨by decide, by decide⟩ (by decide)
  simp only [executableHash?, hwin, hmac]

end Resolved

end RealmLogon
