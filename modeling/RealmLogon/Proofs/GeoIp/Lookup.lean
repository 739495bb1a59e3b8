import RealmLogon.GeoIp.Ranges

/-! A look-up of a country as one scan of the listed ranges, whatever they are. The sort and the bisection come to the
range that starts last at or before the address, and only this one is asked whether it contains the address: a range
that starts earlier is not seen, even if it reaches further. -/

namespace RealmLogon

theorem bisect_eq {test : Nat → Bool} {n low high : Nat} (hl : low ≤ n) (hh : n ≤ high)
    (ht : ∀ i < n, test i = true) (hf : ∀ i, n ≤ i → i < high → test i = false) : bisect test low high = n := by
  fun_induction bisect test low high with
  | case1 low high hlt middle hm ih =>
    have hmid : middle = (low + high) / 2 := rfl
    rcases Nat.lt_or_ge middle n with hn | hn
    · exact ih hn hh hf
    · have hfalse := hf middle hn (by omega)
      rw [hm] at hfalse
      cases hfalse
  | case2 low high hlt middle hm ih =>
    have hmid : middle = (low + high) / 2 := rfl
    rcases Nat.lt_or_ge middle n with hn | hn
    · exact absurd (ht middle hn) hm
    · exact ih hl hn fun i hi hlt => hf i hi (by omega)
  | case3 low high hge => omega

namespace GeoIp

/-- The range holds the address. A range whose last address comes before its first one holds none. -/
def Range.Contains (r : Range) (bits : UInt32) : Prop := r.first ≤ bits ∧ bits ≤ r.last

instance (r : Range) (bits : UInt32) : Decidable (r.Contains bits) := inferInstanceAs (Decidable (_ ∧ _))

/-- The range that decides about an address: of those that start at or before it, the one that starts last, and of
several such the one that is listed last. -/
def decisive? (bits : UInt32) : List Range → Option Range
  | [] => none
  | r :: l =>
    match decisive? bits l with
    | none => if r.first ≤ bits then some r else none
    | some q => if r.first ≤ bits ∧ q.first < r.first then some r else some q

def Range.countryOf (r : Range) (bits : UInt32) : Option String :=
  if bits ≤ r.last ∧ r.country ≠ "-" then some r.country else none

variable {l : List Range} {bits : UInt32} {r : Range}

theorem decisive?_eq_none_iff : decisive? bits l = none ↔ ∀ r ∈ l, bits < r.first := by
  induction l with
  | nil => simp [decisive?]
  | cons r l ih =>
    rw [decisive?, List.forall_mem_cons, ← ih]
    cases decisive? bits l with
    | none => simp
    | some q =>
      simp only [reduceCtorEq, and_false, iff_false]
      split <;> exact Option.some_ne_none _

/-- A range in front of the others decides, or the one that decides among the others does. -/
theorem decisive?_cons_cases {p : Range} (h : decisive? bits (p :: l) = some r) :
    (p = r ∧ r.first ≤ bits ∧ ∀ q, decisive? bits l = some q → q.first < r.first) ∨
      (decisive? bits l = some r ∧ (p.first ≤ bits → p.first ≤ r.first)) := by
  rw [decisive?] at h
  cases hd : decisive? bits l with
  | none =>
    rw [hd] at h
    by_cases hp : p.first ≤ bits
    · obtain rfl : p = r := by simpa [hp] using h
      exact .inl ⟨rfl, hp, nofun⟩
    · simp [hp] at h
  | some q =>
    rw [hd] at h
    by_cases hp : p.first ≤ bits ∧ q.first < p.first
    · obtain rfl : p = r := by simpa [hp] using h
      refine .inl ⟨rfl, hp.1, ?_⟩
      rintro _ ⟨⟩
      exact hp.2
    · obtain rfl : q = r := by simpa [hp] using h
      exact .inr ⟨rfl, fun hle => UInt32.not_lt.mp fun hlt => hp ⟨hle, hlt⟩⟩

theorem mem_of_decisive? (h : decisive? bits l = some r) : r ∈ l ∧ r.first ≤ bits := by
  induction l with
  | nil => cases h
  | cons p l ih =>
    rcases decisive?_cons_cases h with ⟨rfl, hle, -⟩ | ⟨hd, -⟩
    · exact ⟨List.mem_cons_self, hle⟩
    · exact ⟨List.mem_cons_of_mem p (ih hd).1, (ih hd).2⟩

theorem first_le_of_decisive? (h : decisive? bits l = some r) {q : Range} (hq : q ∈ l) (hle : q.first ≤ bits) :
    q.first ≤ r.first := by
  induction l generalizing r with
  | nil => cases hq
  | cons p l ih =>
    rcases decisive?_cons_cases h with ⟨rfl, -, hlt⟩ | ⟨hd, hp⟩
    · rcases List.mem_cons.mp hq with rfl | hq
      · exact UInt32.le_refl _
      · cases hd : decisive? bits l with
        | none => exact absurd (decisive?_eq_none_iff.mp hd q hq) (UInt32.not_lt.mpr hle)
        | some o => exact UInt32.le_trans (ih hd hq) (UInt32.le_of_lt (hlt o hd))
    · rcases List.mem_cons.mp hq with rfl | hq
      · exact hp hle
      · exact ih hd hq

def startsBefore (a b : Range) : Bool := a.first ≤ b.first

theorem startsBefore_trans (a b c : Range) (hab : startsBefore a b = true) (hbc : startsBefore b c = true) :
    startsBefore a c = true :=
  decide_eq_true (UInt32.le_trans (of_decide_eq_true hab) (of_decide_eq_true hbc))

theorem startsBefore_total (a b : Range) : (startsBefore a b || startsBefore b a) = true := by
  rw [Bool.or_eq_true]
  exact (UInt32.le_total a.first b.first).imp decide_eq_true decide_eq_true

def sorted (l : List Range) : List Range := l.mergeSort startsBefore

theorem sorted_cons (r : Range) (l : List Range) :
    ∃ before after, sorted (r :: l) = before ++ r :: after ∧ sorted l = before ++ after ∧
      ∀ q ∈ before, q.first < r.first := by
  obtain ⟨before, after, h, h', hb⟩ := List.mergeSort_cons startsBefore_trans startsBefore_total r l
  exact ⟨before, after, h, h', fun q hq => by simpa [startsBefore] using hb q hq⟩

theorem pairwise_sorted (l : List Range) : (sorted l).Pairwise fun a b => a.first ≤ b.first := by
  have h := List.pairwise_mergeSort startsBefore_trans startsBefore_total l
  exact h.imp of_decide_eq_true

/-- The ranges that start at or before an address; they are at the front of the table. -/
def started (bits : UInt32) (l : List Range) : List Range := (sorted l).takeWhile (·.first ≤ bits)

theorem takeWhile_append_of_stop {α : Type} {p : α → Bool} {a b : List α} (h : ∀ x ∈ b, p x = false) :
    (a ++ b).takeWhile p = a.takeWhile p := by
  induction a with
  | nil =>
    cases b with
    | nil => rfl
    | cons x b => simp [h x List.mem_cons_self]
  | cons x a ih => simp only [List.cons_append, List.takeWhile_cons, ih]

/-- The last range of the front of the table is the one that decides. -/
theorem getLast?_started (bits : UInt32) (l : List Range) : (started bits l).getLast? = decisive? bits l := by
  induction l with
  | nil => simp [started, sorted, decisive?]
  | cons r l ih =>
    obtain ⟨before, after, hs, hs', hb⟩ := sorted_cons r l
    have hp := pairwise_sorted (r :: l)
    rw [hs, List.pairwise_append, List.pairwise_cons] at hp
    have hafter : ∀ q ∈ after, r.first ≤ q.first := hp.2.1.1
    rw [started, hs'] at ih
    rw [started, hs, decisive?, ← ih]
    by_cases hr : r.first ≤ bits
    · have hbefore : ∀ q ∈ before, decide (q.first ≤ bits) = true := fun q hq =>
        decide_eq_true (UInt32.le_trans (UInt32.le_of_lt (hb q hq)) hr)
      rw [List.takeWhile_append_of_pos hbefore, List.takeWhile_append_of_pos hbefore, List.takeWhile_cons,
        if_pos (decide_eq_true hr)]
      have hsub : ∀ q ∈ after.takeWhile (·.first ≤ bits), q ∈ after := fun q hq =>
        (List.takeWhile_sublist _).subset hq
      rcases List.eq_nil_or_concat (after.takeWhile (·.first ≤ bits)) with ht | ⟨front, q, ht⟩
      · -- Nothing is taken after the new range, so it is the last one.
        rw [ht, List.append_nil, List.getLast?_concat]
        cases hq : before.getLast? with
        | none => exact (if_pos hr).symm
        | some q => exact (if_pos ⟨hr, hb q (List.mem_of_getLast? hq)⟩).symm
      · have hq : q ∈ after := hsub q (by simp [ht])
        have hlast : ∀ b : List Range, (b ++ front.concat q).getLast? = some q := by simp
        have hcons : before ++ r :: front.concat q = (before ++ [r]) ++ front.concat q := by simp
        rw [ht, hcons, hlast, hlast]
        exact (if_neg fun h => UInt32.not_lt.mpr (hafter q hq) h.2).symm
    · have hstop : ∀ q ∈ r :: after, decide (q.first ≤ bits) = false := by
        intro q hq
        refine decide_eq_false fun hle => hr ?_
        rcases List.mem_cons.mp hq with rfl | hq
        · exact hle
        · exact UInt32.le_trans (hafter q hq) hle
      rw [takeWhile_append_of_stop hstop, takeWhile_append_of_stop (List.forall_mem_cons.mp hstop).2]
      cases (before.takeWhile (·.first ≤ bits)).getLast? <;> simp [hr]

theorem lt_first_of_dropWhile {s : List Range} (hs : s.Pairwise fun a b => a.first ≤ b.first) :
    ∀ q ∈ s.dropWhile (·.first ≤ bits), bits < q.first := by
  induction s with
  | nil => nofun
  | cons r s ih =>
    obtain ⟨hr, hs⟩ := List.pairwise_cons.mp hs
    rw [List.dropWhile_cons]
    split
    · exact ih hs
    · rename_i hle
      have hlt : bits < r.first := by simpa using hle
      exact List.forall_mem_cons.mpr ⟨hlt, fun q hq => UInt32.lt_of_lt_of_le hlt (hr q hq)⟩

theorem getElem?_ofRanges (l : List Range) (bits : UInt32) (i : Nat) :
    (ofRanges l).ranges[i]? = (started bits l ++ (sorted l).dropWhile (·.first ≤ bits))[i]? := by
  rw [started, List.takeWhile_append_dropWhile]
  exact List.getElem?_toArray

theorem startedBy_ofRanges (l : List Range) (bits : UInt32) :
    (ofRanges l).startedBy bits = (started bits l).length := by
  have hsize : (ofRanges l).ranges.size = (sorted l).length := rfl
  refine bisect_eq (Nat.zero_le _) ?_ ?_ ?_
  · rw [hsize]
    exact (List.takeWhile_prefix _).length_le
  · intro i hi
    rw [getElem?_ofRanges, List.getElem?_append_left hi, List.getElem?_eq_getElem hi, Option.any_some]
    have hall : (started bits l).all (·.first ≤ bits) = true := List.all_takeWhile
    exact List.all_eq_true.mp hall _ (List.getElem_mem hi)
  · intro i hi _
    rw [getElem?_ofRanges, List.getElem?_append_right hi, Option.any_eq_false]
    intro q hq
    have hlt := lt_first_of_dropWhile (pairwise_sorted l) q (List.mem_of_getElem? hq)
    simpa using hlt

theorem country?_ofRanges (l : List Range) (bits : UInt32) :
    GeoIp.country? (ofRanges l) (.v4 bits) = (decisive? bits l).bind (·.countryOf bits) := by
  unfold country?
  dsimp only
  rw [startedBy_ofRanges, ← getLast?_started, List.getLast?_eq_getElem?]
  cases hn : (started bits l).length with
  | zero => rw [List.length_eq_zero_iff.mp hn]; rfl
  | succ n =>
    have hi : n < (started bits l).length := by omega
    have hget : (ofRanges l).ranges[n]? = (started bits l)[n]? := by
      rw [getElem?_ofRanges l bits, List.getElem?_append_left hi]
    simp only [hget, Nat.add_sub_cancel]
    rfl

/-- The range that decides about an address ends before it, whatever the other ranges contain. -/
def Shadowed (bits : UInt32) (l : List Range) : Prop := ∃ r, decisive? bits l = some r ∧ r.last < bits

theorem country?_of_shadowed (h : Shadowed bits l) : GeoIp.country? (ofRanges l) (.v4 bits) = none := by
  obtain ⟨r, hd, hlt⟩ := h
  rw [country?_ofRanges, hd]
  exact if_neg fun h => UInt32.not_lt.mpr h.1 hlt

/-- An address that is contained in some range is decided about by one that contains it, unless it is shadowed. -/
theorem exists_decisive_of_contains (h : ∃ r ∈ l, r.Contains bits) (hs : ¬Shadowed bits l) :
    ∃ r ∈ l, decisive? bits l = some r ∧ r.Contains bits := by
  obtain ⟨q, hq, hc⟩ := h
  cases hd : decisive? bits l with
  | none => exact absurd (decisive?_eq_none_iff.mp hd q hq) (UInt32.not_lt.mpr hc.1)
  | some r =>
    obtain ⟨hr, hle⟩ := mem_of_decisive? hd
    exact ⟨r, hr, rfl, hle, UInt32.not_lt.mp fun hlt => hs ⟨r, hd, hlt⟩⟩

theorem not_shadowed_of_disjoint (hl : ∀ r ∈ l, r.first ≤ r.last)
    (hd : ∀ a ∈ l, ∀ b ∈ l, a ≠ b → ∀ bits, ¬(a.Contains bits ∧ b.Contains bits))
    (h : ∃ r ∈ l, r.Contains bits) : ¬Shadowed bits l := by
  rintro ⟨r, hr, hlt⟩
  obtain ⟨q, hq, hc⟩ := h
  obtain ⟨hmem, hle⟩ := mem_of_decisive? hr
  have hne : q ≠ r := by
    rintro rfl
    exact UInt32.not_lt.mpr hc.2 hlt
  -- The range that decides starts inside the one that contains the address.
  have hinside : q.Contains r.first :=
    ⟨first_le_of_decisive? hr hq hc.1, UInt32.le_trans hle hc.2⟩
  exact hd q hq r hmem hne r.first ⟨hinside, UInt32.le_refl _, hl r hmem⟩

end GeoIp

end RealmLogon
