/-! Texts cut at a separator. There is always one piece more than there are separators, and joining
the pieces gives the text back. -/

namespace RealmLogon.Text

def pieces (sep : Char) : List Char → List (List Char)
  | [] => [[]]
  | c :: r =>
    if c = sep then [] :: pieces sep r
    else match pieces sep r with
      | [] => [[c]]
      | p :: ps => (c :: p) :: ps

theorem pieces_ne_nil (sep : Char) (cs : List Char) : pieces sep cs ≠ [] := by
  cases cs with
  | nil => simp [pieces]
  | cons c r => simp only [pieces]; split <;> (try split) <;> simp

def joined (sep : Char) : List (List Char) → List Char
  | [] => []
  | [p] => p
  | p :: q :: ps => p ++ sep :: joined sep (q :: ps)

theorem notMem_joined {c sep : Char} (hs : c ≠ sep) {ps : List (List Char)} (h : ∀ p ∈ ps, c ∉ p) :
    c ∉ joined sep ps := by
  fun_induction joined sep ps with
  | case1 => simp
  | case2 p => exact h p List.mem_cons_self
  | case3 p q ps ih =>
    have hp := h p List.mem_cons_self
    have hq := ih fun x hx => h x (List.mem_cons_of_mem p hx)
    simp only [List.mem_append, List.mem_cons, not_or]
    exact ⟨hp, hs, hq⟩

theorem joined_pieces (sep : Char) (cs : List Char) : joined sep (pieces sep cs) = cs := by
  induction cs with
  | nil => rfl
  | cons c r ih =>
    cases hp : pieces sep r with
    | nil => exact absurd hp (pieces_ne_nil sep r)
    | cons p ps =>
      rw [hp] at ih
      simp only [pieces, hp]
      split
      · next h => rw [joined, ih, h, List.nil_append]
      · cases ps with
        | nil => rw [joined] at ih ⊢; rw [ih]
        | cons q ps => rw [joined] at ih ⊢; rw [List.cons_append, ih]

theorem pieces_of_not_mem {sep : Char} {p : List Char} (h : sep ∉ p) : pieces sep p = [p] := by
  induction p with
  | nil => rfl
  | cons c r ih =>
    simp only [List.mem_cons, not_or] at h
    simp [pieces, ih h.2, Ne.symm h.1]

theorem pieces_append {sep : Char} {p r : List Char} (h : sep ∉ p) :
    pieces sep (p ++ sep :: r) = p :: pieces sep r := by
  induction p with
  | nil => simp [pieces]
  | cons c p ih =>
    simp only [List.mem_cons, not_or] at h
    simp [pieces, ih h.2, Ne.symm h.1]

theorem pieces_joined {sep : Char} {ps : List (List Char)} (h : ps ≠ []) (hs : ∀ p ∈ ps, sep ∉ p) :
    pieces sep (joined sep ps) = ps := by
  induction ps with
  | nil => exact absurd rfl h
  | cons p ps ih =>
    cases ps with
    | nil => exact pieces_of_not_mem (hs p (by simp))
    | cons q ps =>
      rw [joined, pieces_append (hs p (by simp)), ih (by simp) fun x hx => hs x (by simp [hx])]

end RealmLogon.Text
