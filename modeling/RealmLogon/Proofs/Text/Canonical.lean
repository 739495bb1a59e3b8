import RealmLogon.Proofs.Text.ZeroFree
import RealmLogon.Text.Latin

/-! Upper case is canonical: applied twice it does what it does once, so it does not matter how often a login has
been brought into this form. It is applied character by character, and leaves all characters where they are. -/

namespace RealmLogon.Text.Latin

def Run.capitals (r : Run) : List Nat :=
  (List.range ((r.last - r.first) / r.stride + 1)).map fun k =>
    (((r.first + r.stride * k : Nat) : Int) + r.distance).toNat

theorem mem_capitals {r : Run} {v : Nat} (h : r.contains v = true) :
    ((v : Int) + r.distance).toNat ∈ r.capitals := by
  simp only [Run.contains, Bool.and_eq_true, decide_eq_true_eq, beq_iff_eq] at h
  obtain ⟨⟨hf, hl⟩, hs⟩ := h
  have hv : r.first + r.stride * ((v - r.first) / r.stride) = v := by
    have hd := Nat.div_add_mod (v - r.first) r.stride
    omega
  refine List.mem_map.mpr ⟨(v - r.first) / r.stride, ?_, by rw [hv]⟩
  rw [List.mem_range]
  have hle : (v - r.first) / r.stride ≤ (r.last - r.first) / r.stride := Nat.div_le_div_right (by omega)
  omega

/-- No run leads into a run, and all that they lead to are characters. -/
theorem capitals_stay :
    ∀ r ∈ runs, ∀ v ∈ r.capitals, v.isValidChar ∧ runs.all (fun q => !q.contains v) = true := by
  decide +kernel

theorem capital_cases (v : Nat) : capital v = v ∨ ∃ r ∈ runs, capital v ∈ r.capitals := by
  unfold capital
  cases hf : runs.find? (·.contains v) with
  | none => exact .inl rfl
  | some r =>
    have hc : r.contains v = true := List.find?_some (p := fun r : Run => r.contains v) hf
    exact .inr ⟨r, List.mem_of_find?_eq_some hf, mem_capitals hc⟩

theorem capital_capital (v : Nat) : capital (capital v) = capital v := by
  rcases capital_cases v with hv | ⟨r, hr, hv⟩
  · rw [hv, hv]
  · have hall := (capitals_stay r hr _ hv).2
    generalize capital v = u at hall
    have hf : runs.find? (·.contains u) = none := by
      rw [List.find?_eq_none]
      intro q hq
      simpa using List.all_eq_true.mp hall q hq
    simp only [capital, hf]

theorem isValidChar_capital (c : Char) : (capital c.val.toNat).isValidChar := by
  rcases capital_cases c.val.toNat with hv | ⟨r, hr, hv⟩
  · rw [hv]
    exact c.valid
  · exact (capitals_stay r hr _ hv).1

theorem length_spelledOut : ∀ e ∈ spelledOut, 1 < e.snd.length := by decide

theorem upperChar_cases (c : Char) : upperChar c = c ∨ upperChar c = Char.ofNat (capital c.val.toNat) := by
  unfold upperChar
  split
  · cases hl : spelledOut.lookup c.val.toNat with
    | none =>
      right
      simp only [capitals, hl]
    | some letters =>
      obtain ⟨front, back, he, -⟩ := List.lookup_eq_some_iff.mp hl
      have hlong : 1 < letters.length :=
        length_spelledOut (c.val.toNat, letters) (he ▸ List.mem_append_cons_self)
      left
      simp only [capitals, hl]
      split
      · exact absurd hlong (Nat.lt_irrefl 1)
      · rfl
  · exact .inl rfl

theorem upperChar_of_capital {c : Char} (h : capital c.val.toNat = c.val.toNat) : upperChar c = c := by
  rcases upperChar_cases c with hc | hc
  · exact hc
  · rw [hc, h]
    exact Char.ofNat_toNat c

theorem upperChar_upperChar (c : Char) : upperChar (upperChar c) = upperChar c := by
  rcases upperChar_cases c with hc | hc
  · rw [hc, hc]
  · rw [hc]
    refine upperChar_of_capital ?_
    rw [toNat_ofNat (isValidChar_capital c), capital_capital]

@[simp] theorem upper_upper (s : String) : upper (upper s) = upper s := by
  apply String.toList_inj.mp
  simp only [upper, String.toList_map, List.map_map]
  exact List.map_congr_left fun c _ => upperChar_upperChar c

theorem upper_eq {s t : String} (h : s.toList.map upperChar = t.toList) : upper s = t := by
  apply String.toList_inj.mp
  rw [upper, String.toList_map, h]

@[simp] theorem length_upper (s : String) : (upper s).length = s.length := String.length_map

theorem upper_append (s t : String) : upper (s ++ t) = upper s ++ upper t := by
  apply String.toList_inj.mp
  simp only [upper, String.toList_append, String.toList_map, List.map_append]

theorem upperChar_of_not_latin {c : Char} (h : isLatin c = false) : upperChar c = c := by
  rw [upperChar, h]
  rfl

/-- A character that is not of the two blocks is found again where it was. -/
theorem getElem?_upper_of_not_latin {s : String} {i : Nat} {c : Char} (hc : s.toList[i]? = some c)
    (h : isLatin c = false) : (upper s).toList[i]? = some c := by
  rw [upper, String.toList_map, List.getElem?_map, hc, Option.map_some, upperChar_of_not_latin h]

end RealmLogon.Text.Latin
