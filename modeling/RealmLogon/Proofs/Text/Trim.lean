import Mathlib.Data.List.TakeWhile
import RealmLogon.Text.Blank

/-! What a text is trimmed to: whatever has only white space before and behind it. -/

namespace RealmLogon.Text

variable {s : String}

/-- A text is some characters with white space around them. -/
def Surrounds (body : List Char) (s : String) : Prop :=
  ∃ before after, s.toList = before ++ (body ++ after) ∧ (∀ c ∈ before, isBlank c = true) ∧
    ∀ c ∈ after, isBlank c = true

theorem surrounds_trim (s : String) : Surrounds (trim s).toList s := by
  refine ⟨s.toList.takeWhile isBlank, ((trimStart s.toList).reverse.takeWhile isBlank).reverse, ?_, ?_, ?_⟩
  · have hend : trimEnd (trimStart s.toList) ++ ((trimStart s.toList).reverse.takeWhile isBlank).reverse =
        trimStart s.toList := by
      rw [trimEnd, ← List.reverse_append, List.takeWhile_append_dropWhile, List.reverse_reverse]
    rw [trim, String.toList_ofList, hend, trimStart, List.takeWhile_append_dropWhile]
  · exact fun c hc => List.mem_takeWhile_imp hc
  · exact fun c hc => List.mem_takeWhile_imp (List.mem_reverse.mp hc)

theorem dropWhile_blank {before body after : List Char} (hb : ∀ c ∈ before, isBlank c = true)
    (hbody : ∀ c ∈ body, isBlank c = false) (ha : ∀ c ∈ after, isBlank c = true) :
    (before ++ (body ++ after)).dropWhile isBlank = if body = [] then [] else body ++ after := by
  rw [List.dropWhile_append_of_pos hb]
  cases body with
  | nil => exact List.dropWhile_eq_nil_iff.mpr ha
  | cons c body =>
    rw [if_neg (List.cons_ne_nil c body)]
    exact List.dropWhile_cons_of_neg (by simp [hbody c List.mem_cons_self])

/-- Characters that are not white space are what a text is trimmed to if and only if there is only white space around
them. -/
theorem trim_eq_iff {body : List Char} (hbody : ∀ c ∈ body, isBlank c = false) :
    (trim s).toList = body ↔ Surrounds body s := by
  constructor
  · rintro rfl
    exact surrounds_trim s
  · rintro ⟨before, after, hs, hb, ha⟩
    rw [trim, String.toList_ofList, trimStart, hs, dropWhile_blank hb hbody ha]
    cases body with
    | nil => rfl
    | cons c body =>
      have hend : (after.reverse ++ ((c :: body).reverse ++ [])).dropWhile isBlank = _ :=
        dropWhile_blank (fun x hx => ha x (List.mem_reverse.mp hx)) (fun x hx => hbody x (List.mem_reverse.mp hx))
          (by simp)
      rw [List.append_nil, ← List.reverse_append, if_neg (by simp)] at hend
      rw [if_neg (List.cons_ne_nil c body), trimEnd, hend, List.reverse_reverse]

end RealmLogon.Text
