import Mathlib.Data.List.Induction
import RealmLogon.Net.Address
import RealmLogon.Proofs.Sequences
import RealmLogon.Proofs.Token

/-! Addresses as texts. Every address has one printed text, which reads back as the address. A dotted text is read only
in its printed form; that of eight groups is found again by its pieces, with the double colon in the place of the zero
groups that were left out. -/

namespace RealmLogon

namespace Text.Numeral

theorem digitChar_of_isDigit {c : Char} (h : isDigit 10 c = true) :
    ∃ d < 10, digit? c = some d ∧ c = d.digitChar := by
  obtain ⟨hlow, hhigh⟩ := Token.isDigit_iff.mp h
  have hchars : ∀ d < 10, (Nat.digitChar d).val.toNat = d + 48 := by decide
  have hd : c.val.toNat - 48 < 10 := by omega
  refine ⟨c.val.toNat - 48, hd, Token.digit?_of_isDigit h, ?_⟩
  apply Char.ext
  apply UInt32.toNat_inj.mp
  rw [hchars _ hd]
  omega

theorem print_value {cs : List Char} (hne : cs ≠ []) (hd : ∀ c ∈ cs, isDigit 10 c = true)
    (hz : cs.head? = some '0' → cs.length = 1) : print 10 (value 10 cs) = cs := by
  induction cs using List.reverseRecOn with
  | nil => exact absurd rfl hne
  | append_singleton cs c ih =>
    obtain ⟨d, hlt, hc, rfl⟩ := digitChar_of_isDigit (hd c (by simp))
    rw [value_append, hc, Option.getD_some]
    by_cases hcs : cs = []
    · subst hcs
      have hv : 10 * value 10 [] + d = d := by simp [value]
      rw [hv, print_eq (by decide), if_pos hlt]
      rfl
    · have hz' : cs.head? ≠ some '0' := by
        intro h0
        have hlen := hz (by rw [List.head?_append_of_ne_nil _ hcs]; exact h0)
        have := List.length_pos_iff.mpr hcs
        simp only [List.length_append, List.length_singleton] at hlen
        omega
      have hprint := ih hcs (fun x hx => hd x (by simp [hx])) fun h0 => absurd h0 hz'
      have hpos : value 10 cs ≠ 0 := by
        intro h0
        rw [h0] at hprint
        exact hz' (hprint ▸ rfl)
      have hdiv : (10 * value 10 cs + d) / 10 = value 10 cs := by omega
      have hmod : (10 * value 10 cs + d) % 10 = d := by omega
      rw [print_eq (by decide), if_neg (by omega), hdiv, hmod, hprint]

end Text.Numeral

namespace Address

open Text

/-- A byte of a dotted address is written in one way. -/
theorem dottedPart_eq_some_iff {cs : List Char} {n : Nat} :
    dottedPart cs = some n ↔ n < 256 ∧ cs = Numeral.print 10 n := by
  constructor
  · intro h
    unfold dottedPart at h
    split at h
    · rename_i hc
      obtain ⟨hp, hn⟩ := Option.filter_eq_some_iff.mp h
      unfold Numeral.parse at hp
      split at hp
      · rename_i hd
        cases hp
        exact ⟨by simpa using hn, (Numeral.print_value hd.1 (List.all_eq_true.mp hd.2) hc.2).symm⟩
      · cases hp
    · cases h
  · rintro ⟨hn, rfl⟩
    have hall : ∀ n < 256, dottedPart (Numeral.print 10 n) = some n := by decide +kernel
    exact hall n hn

theorem dot_notMem_print (n : Nat) : '.' ∉ Numeral.print 10 n :=
  Numeral.notMem_print (by decide) (by decide) (by decide) n

def bytesOf (bits : UInt32) : List Nat :=
  [bits.toNat >>> 24, bits.toNat >>> 16 % 256, bits.toNat >>> 8 % 256, bits.toNat % 256]

theorem bytesOf_lt (bits : UInt32) : ∀ n ∈ bytesOf bits, n < 256 := by
  have hlt := bits.toNat_lt
  simp only [bytesOf, List.forall_mem_cons, Nat.shiftRight_eq_div_pow]
  refine ⟨by omega, by omega, by omega, by omega, nofun⟩

theorem bytesOf_ofNat {a b c d : Nat} (ha : a < 256) (hb : b < 256) (hc : c < 256) (hd : d < 256) :
    bytesOf (UInt32.ofNat (((a * 256 + b) * 256 + c) * 256 + d)) = [a, b, c, d] := by
  have hn : (UInt32.ofNat (((a * 256 + b) * 256 + c) * 256 + d)).toNat = ((a * 256 + b) * 256 + c) * 256 + d := by
    rw [UInt32.toNat_ofNat']
    omega
  simp only [bytesOf, hn, Nat.shiftRight_eq_div_pow, List.cons.injEq, and_true]
  omega

theorem pieces_dotted (bits : UInt32) : pieces '.' (dotted bits) = (bytesOf bits).map (Numeral.print 10) := by
  refine pieces_joined (by simp) fun p hp => ?_
  obtain ⟨n, -, rfl⟩ := List.mem_map.mp hp
  exact dot_notMem_print n

theorem parseDotted_dotted (bits : UInt32) : parseDotted (dotted bits) = some bits := by
  have hparts : (pieces '.' (dotted bits)).mapM dottedPart = some (bytesOf bits) := by
    rw [pieces_dotted, mapM_eq_some_iff, List.forall₂_map_left_iff, List.forall₂_same]
    exact fun n hn => dottedPart_eq_some_iff.mpr ⟨bytesOf_lt bits n hn, rfl⟩
  have hlt := bits.toNat_lt
  simp only [parseDotted, hparts, bytesOf, Option.some.injEq]
  apply UInt32.toNat_inj.mp
  rw [UInt32.toNat_ofNat']
  simp only [Nat.shiftRight_eq_div_pow]
  omega

/-- A dotted text is read in its printed form and in no other. -/
theorem parseDotted_eq_some_iff {cs : List Char} {bits : UInt32} : parseDotted cs = some bits ↔ cs = dotted bits := by
  refine ⟨fun h => ?_, fun h => h ▸ parseDotted_dotted bits⟩
  unfold parseDotted at h
  split at h
  · rename_i a b c d hp
    cases h
    have hparts := mapM_eq_some_iff.mp hp
    simp only [dottedPart_eq_some_iff] at hparts
    obtain ⟨hlt, hprint⟩ : (∀ n ∈ [a, b, c, d], n < 256) ∧ pieces '.' cs = [a, b, c, d].map (Numeral.print 10) := by
      generalize pieces '.' cs = ps, [a, b, c, d] = ns at hparts
      induction hparts with
      | nil => exact ⟨nofun, rfl⟩
      | cons hn _ ih =>
        obtain ⟨hlt, rfl⟩ := hn
        exact ⟨List.forall_mem_cons.mpr ⟨hlt, ih.1⟩, by rw [ih.2, List.map_cons]⟩
    simp only [List.forall_mem_cons] at hlt
    obtain ⟨ha, hb, hc, hd, -⟩ := hlt
    rw [← joined_pieces '.' cs, hprint, ← bytesOf_ofNat ha hb hc hd]
    rfl
  · cases h

theorem notMem_dotted {c : Char} (hc : c ≠ '.') (hd : Numeral.isDigit 10 c = false) (bits : UInt32) :
    c ∉ dotted bits := by
  refine notMem_joined hc fun p hp => ?_
  obtain ⟨n, -, rfl⟩ := List.mem_map.mp hp
  exact Numeral.notMem_print (by decide) (by decide) hd n

theorem colon_notMem_dotted (bits : UInt32) : ':' ∉ dotted bits := notMem_dotted (by decide) (by decide) bits

theorem parseDotted_of_colon {cs : List Char} (h : ':' ∈ cs) : parseDotted cs = none := by
  cases hp : parseDotted cs with
  | none => rfl
  | some bits =>
    rw [parseDotted_eq_some_iff.mp hp] at h
    exact absurd h (colon_notMem_dotted bits)

/-! Groups. -/

def hexGroup (x : UInt16) : List Char := Numeral.print 16 x.toNat

theorem hexGroups_eq (g : List UInt16) : hexGroups g = joined ':' (g.map hexGroup) := rfl

theorem hexGroup_ne_nil (x : UInt16) : hexGroup x ≠ [] := Numeral.print_ne_nil 16 x.toNat

theorem colon_notMem_hexGroup (x : UInt16) : ':' ∉ hexGroup x :=
  Numeral.notMem_print (by decide) (by decide) (by decide) x.toNat

theorem group_hexGroup (x : UInt16) : group (hexGroup x) = some x := by
  have hlt : x.toNat < Nat.pow 16 4 := x.toNat_lt
  have hlen : (hexGroup x).length ≤ 4 := Numeral.length_print_le (by decide) (by decide) hlt
  rw [group, if_pos hlen, hexGroup, Numeral.parse_print (by decide) (by decide), Option.map_some, UInt16.ofNat_toNat]

theorem groups_map_hexGroup (t : Bool) (g : List UInt16) : groups t (g.map hexGroup) = some g := by
  induction g with
  | nil => rfl
  | cons x g ih =>
    cases g with
    | nil => simp only [List.map_cons, List.map_nil, groups, group_hexGroup]
    | cons y g =>
      rw [List.map_cons, List.map_cons, groups, group_hexGroup, ← List.map_cons, ih]
      · rfl
      · simp

/-- Printed groups are read on either side of a gap, and without one. -/
theorem side_hexGroups (t : Bool) (g : List UInt16) : side t (hexGroups g) = some g := by
  cases g with
  | nil => rfl
  | cons x g =>
    have hpieces : pieces ':' (hexGroups (x :: g)) = (x :: g).map hexGroup := by
      refine pieces_joined (by simp) fun p hp => ?_
      obtain ⟨y, -, rfl⟩ := List.mem_map.mp hp
      exact colon_notMem_hexGroup y
    have hne : hexGroups (x :: g) ≠ [] := by
      intro h
      rw [h] at hpieces
      have hx : [] = hexGroup x := (List.cons.inj hpieces).1
      exact hexGroup_ne_nil x hx.symm
    rw [side, if_neg hne, hpieces, groups_map_hexGroup]

theorem gap_cons {c : Char} (hc : c ≠ ':') (r : List Char) :
    gap (c :: r) = (gap r).map fun (a, b) => (c :: a, b) := by
  rw [gap.eq_2]
  exact fun r' h _ => hc h

theorem gap_colon {c : Char} (hc : c ≠ ':') (r : List Char) :
    gap (':' :: c :: r) = (gap (c :: r)).map fun (a, b) => (':' :: a, b) := by
  rw [gap.eq_2]
  exact fun r' _ h => hc (List.cons.inj h).1

theorem gap_append {p : List Char} (hp : ':' ∉ p) (r : List Char) :
    gap (p ++ r) = (gap r).map fun (a, b) => (p ++ a, b) := by
  induction p with
  | nil => simp
  | cons c p ih =>
    simp only [List.mem_cons, not_or] at hp
    rw [List.cons_append, gap_cons (Ne.symm hp.1), ih hp.2, Option.map_map]
    rfl

/-- There is no gap among printed groups, nor at the end of them. -/
theorem gap_hexGroups (g : List UInt16) (r : List Char) :
    gap (hexGroups g ++ r) = (gap r).map fun (a, b) => (hexGroups g ++ a, b) := by
  induction g with
  | nil => simp [hexGroups_eq, joined]
  | cons x g ih =>
    cases g with
    | nil => exact gap_append (colon_notMem_hexGroup x) r
    | cons y g =>
      obtain ⟨c, cs, hcs, hc⟩ : ∃ c cs, hexGroups (y :: g) = c :: cs ∧ c ≠ ':' := by
        have hy := colon_notMem_hexGroup y
        obtain ⟨c, t, ht⟩ := List.exists_cons_of_ne_nil (hexGroup_ne_nil y)
        rw [ht, List.mem_cons, not_or] at hy
        cases g with
        | nil => exact ⟨c, t, ht, Ne.symm hy.1⟩
        | cons z g =>
          refine ⟨c, t ++ ':' :: hexGroups (z :: g), ?_, Ne.symm hy.1⟩
          rw [← List.cons_append, ← ht]
          rfl
      have hx : hexGroups (x :: y :: g) = hexGroup x ++ ':' :: hexGroups (y :: g) := rfl
      rw [hcs, List.cons_append] at ih
      rw [hx, hcs, List.append_assoc, gap_append (colon_notMem_hexGroup x), List.cons_append, List.cons_append,
        gap_colon hc, ih, Option.map_map, Option.map_map]
      refine Option.map_congr fun ab _ => ?_
      simp

theorem replicate_zeros (g : List UInt16) : List.replicate (zeros g) 0 ++ g.drop (zeros g) = g := by
  induction g with
  | nil => rfl
  | cons x g ih =>
    have hz : zeros (x :: g) = if x == 0 then zeros g + 1 else 0 := by
      simp only [zeros, List.takeWhile_cons]
      split <;> rfl
    rw [hz]
    split
    · rename_i hx
      rw [eq_of_beq hx, List.replicate_succ, List.cons_append, List.drop_succ_cons, ih]
    · rfl

theorem take_zeros_drop (g : List UInt16) :
    g.take (longestZeros g).1 ++ List.replicate (longestZeros g).2 0 ++
      g.drop ((longestZeros g).1 + (longestZeros g).2) = g := by
  induction g with
  | nil => rfl
  | cons x g ih =>
    rw [longestZeros]
    dsimp only
    split
    · rw [List.take_zero, List.nil_append, Nat.zero_add, replicate_zeros]
    · rw [List.take_succ_cons, List.cons_append, List.cons_append, Nat.add_right_comm, List.drop_succ_cons, ih]

theorem ofGroups_toList (g : Groups) : ofGroups g.toList = some g := dif_pos g.length_toList

theorem group_dotted (bits : UInt32) : group (dotted bits) = none := by
  have hdot : '.' ∈ dotted bits := by
    simp [dotted, joined]
  have hp : Numeral.parse 16 (dotted bits) = none := by
    refine if_neg fun h => ?_
    have hd := List.all_eq_true.mp h.2 _ hdot
    revert hd
    decide
  rw [group, hp]
  split <;> rfl

/-- An embedded address is the last two groups of the one that embeds it. -/
theorem toList_of_embedded {g : Groups} {bits : UInt32} (h : embedded? g = some bits) :
    g.toList = [0, 0, 0, 0, 0, 0xFFFF, UInt16.ofNat (bits.toNat / UInt16.size),
      UInt16.ofNat (bits.toNat % UInt16.size)] := by
  unfold embedded? at h
  split at h
  · rename_i a b hg
    cases h
    have ha := a.toNat_lt
    have hb := b.toNat_lt
    have hbits : (UInt32.ofNat (a.toNat * UInt16.size + b.toNat)).toNat = a.toNat * 65536 + b.toNat := by
      rw [UInt32.toNat_ofNat']
      simp only [UInt16.size]
      omega
    have hhigh : (a.toNat * 65536 + b.toNat) / UInt16.size = a.toNat := by
      simp only [UInt16.size]
      omega
    have hlow : (a.toNat * 65536 + b.toNat) % UInt16.size = b.toNat := by
      simp only [UInt16.size]
      omega
    rw [hg, hbits, hhigh, hlow, UInt16.ofNat_toNat, UInt16.ofNat_toNat]
  · cases h

theorem parseGroups_embedded {g : Groups} {bits : UInt32} (h : embedded? g = some bits) :
    parseGroups ("::ffff:".toList ++ dotted bits) = some g := by
  have hpieces : pieces ':' (hexGroup 0xFFFF ++ ':' :: dotted bits) = [hexGroup 0xFFFF, dotted bits] := by
    rw [pieces_append (colon_notMem_hexGroup _), pieces_of_not_mem (colon_notMem_dotted bits)]
  have htail : side true (hexGroup 0xFFFF ++ ':' :: dotted bits) =
      some [0xFFFF, UInt16.ofNat (bits.toNat / UInt16.size), UInt16.ofNat (bits.toNat % UInt16.size)] := by
    rw [side, if_neg (by simp), hpieces]
    simp [groups, group_hexGroup, group_dotted, parseDotted_dotted]
  have hgap : gap ("::ffff:".toList ++ dotted bits) = some ([], hexGroup 0xFFFF ++ ':' :: dotted bits) := rfl
  rw [parseGroups, hgap]
  simp only [htail, ← ofGroups_toList g, toList_of_embedded h]
  rfl

theorem parseGroups_printGroups (g : Groups) : parseGroups (printGroups g) = some g := by
  unfold printGroups
  split
  · rename_i bits h
    exact parseGroups_embedded h
  · dsimp only
    split
    · have hgap := gap_hexGroups g.toList []
      rw [List.append_nil] at hgap
      have hnone : gap (hexGroups g.toList) = none := hgap
      simp only [parseGroups, hnone, side_hexGroups]
      exact ofGroups_toList g
    · -- the groups before the gap and those behind it, and zeros for the gap
      let n := (longestZeros g.toList).2
      let before := g.toList.take (longestZeros g.toList).1
      let after := g.toList.drop ((longestZeros g.toList).1 + n)
      have hzeros : before ++ List.replicate n 0 ++ after = g.toList := take_zeros_drop g.toList
      have hlen : before.length + n + after.length = 8 := by
        rw [← g.length_toList, ← hzeros]
        simp only [List.length_append, List.length_replicate]
      have hgap : gap (hexGroups before ++ "::".toList ++ hexGroups after) =
          some (hexGroups before, hexGroups after) := by
        rw [List.append_assoc, gap_hexGroups]
        simp [gap]
      have hn : 8 - before.length - after.length = n := by omega
      have hroom : before.length + after.length ≤ 7 := by
        rename_i hlong
        have hlong : ¬n ≤ 1 := hlong
        omega
      change parseGroups (hexGroups before ++ "::".toList ++ hexGroups after) = some g
      simp only [parseGroups, hgap, side_hexGroups, Option.bind_eq_bind, Option.bind_some, if_pos hroom, hn, hzeros]
      exact ofGroups_toList g

theorem colon_mem_printGroups (g : Groups) : ':' ∈ printGroups g := by
  unfold printGroups
  split
  · exact List.mem_append_left _ (by decide)
  · dsimp only
    split
    · have hlen := g.length_toList
      match g.toList, hlen with
      | x :: y :: _, _ => simp [hexGroups_eq, joined]
    · simp

/-- The text of an address is read as the address. -/
theorem parse_print (a : Address) : parse a.print = some a := by
  cases a with
  | v4 bits => simp only [parse, print, String.toList_ofList, parseDotted_dotted]
  | v6 g =>
    have hcolon := colon_mem_printGroups g
    simp only [parse, print, String.toList_ofList, parseDotted_of_colon hcolon, parseGroups_printGroups,
      Option.map_some]

end Address

end RealmLogon
