import RealmLogon.Proofs.Text.Hex

/-! Hexadecimal text pair by pair. Each pair is cut out of the characters by byte offsets, which may fall inside a
character, and is read as a number; both readers of fields give what this gives, up to the first pair that is none.
Whatever was written as hexadecimal text is read again, in letters of either case. -/

namespace RealmLogon.Hex

open Text

/-- The characters that take the first `n` bytes, and those behind them, unless the cut would fall inside a
character. -/
def cut? : List Char → Nat → Option (List Char × List Char)
  | cs, 0 => some ([], cs)
  | [], _ + 1 => none
  | c :: cs, n + 1 =>
    if c.utf8Size ≤ n + 1 then (cut? cs (n + 1 - c.utf8Size)).map fun x => (c :: x.1, x.2) else none

def slice? (cs : List Char) (start size : Nat) : Option (List Char) :=
  (cut? cs start).bind fun x => (cut? x.2 size).map (·.1)

/-- The byte that digits spell, perhaps after a plus sign. -/
def octet? (cs : List Char) : Option UInt8 :=
  let digits := match cs with
    | '+' :: rest => rest
    | _ => cs
  ((Numeral.parse 16 digits).filter (· < 256)).map UInt8.ofNat

/-- What the two bytes at an offset are read as. -/
def readAt (cs : List Char) (offset : Nat) : Option UInt8 := (slice? cs offset 2).bind octet?

section Cut

variable {c d : Char} {cs : List Char} {n : Nat}

theorem utf8Size_of_ascii (h : c.val.toNat < 128) : c.utf8Size = 1 := by
  rw [← String.length_utf8EncodeChar, encode_of_ascii h]
  rfl

theorem utf8Size_of_not_ascii (h : 128 ≤ c.val.toNat) : 2 ≤ c.utf8Size := by
  obtain ⟨lead, next, more, he, -⟩ := encode_of_not_ascii h
  rw [← String.length_utf8EncodeChar, he]
  exact Nat.le_add_left 2 more.length

@[simp] theorem cut?_zero (cs : List Char) : cut? cs 0 = some ([], cs) := by
  cases cs <;> rfl

theorem cut?_ascii (h : c.val.toNat < 128) (cs : List Char) (n : Nat) :
    cut? (c :: cs) (n + 1) = (cut? cs n).map fun x => (c :: x.1, x.2) := by
  rw [cut?, utf8Size_of_ascii h, if_pos (Nat.le_add_left 1 n), Nat.add_sub_cancel]

theorem slice?_pair (hc : c.val.toNat < 128) (hd : d.val.toNat < 128) (cs : List Char) :
    slice? (c :: d :: cs) 0 2 = some [c, d] := by
  rw [slice?, cut?_zero, Option.bind_some, cut?_ascii hc, cut?_ascii hd, cut?_zero]
  rfl

theorem slice?_behind (hc : c.val.toNat < 128) (hd : d.val.toNat < 128) (cs : List Char) (start size : Nat) :
    slice? (c :: d :: cs) (start + 2) size = slice? cs start size := by
  rw [slice?, cut?_ascii hc, cut?_ascii hd, slice?]
  cases cut? cs start <;> rfl

/-- A character that is not of ASCII is no byte, alone or behind another one. -/
theorem slice?_of_not_ascii (h : 128 ≤ c.val.toNat) (cs : List Char) :
    slice? (c :: cs) 0 2 = none ∨ slice? (c :: cs) 0 2 = some [c] := by
  have hsize := utf8Size_of_not_ascii h
  rw [slice?, cut?_zero, Option.bind_some, cut?]
  split
  · have hzero : 1 + 1 - c.utf8Size = 0 := by omega
    rw [hzero, cut?_zero]
    exact .inr rfl
  · exact .inl rfl

theorem slice?_across (hc : c.val.toNat < 128) (hd : 128 ≤ d.val.toNat) (cs : List Char) :
    slice? (c :: d :: cs) 0 2 = none := by
  have hsize := utf8Size_of_not_ascii hd
  rw [slice?, cut?_zero, Option.bind_some, cut?_ascii hc, cut?, if_neg (by omega)]
  rfl

end Cut

section Octet

variable {c d : Char} {cs : List Char} {v : UInt8}

theorem getD_digit?_lt (c : Char) : (Numeral.digit? c).getD 0 < 16 := by
  simp only [Numeral.digit?]
  repeat' split
  all_goals simp only [Option.getD_some, Option.getD_none]
  all_goals omega

theorem parse_octet (h : Numeral.value 16 cs < 256) :
    ((Numeral.parse 16 cs).filter (· < 256)).map UInt8.ofNat = some v ↔
      (cs ≠ [] ∧ cs.all (Numeral.isDigit 16) = true) ∧ v = UInt8.ofNat (Numeral.value 16 cs) := by
  unfold Numeral.parse
  split
  · rename_i hcs
    rw [Option.filter_some, if_pos (decide_eq_true h), Option.map_some, Option.some.injEq, eq_comm]
    exact (and_iff_right hcs).symm
  · rename_i hcs
    exact iff_of_false nofun fun h => hcs h.1

theorem octet?_singleton (h : 128 ≤ c.val.toNat) : octet? [c] = none := by
  have hdigit : Numeral.isDigit 16 c = false := by
    rw [Bool.eq_false_iff]
    intro hd
    have hcode := code_of_isDigit hd
    omega
  unfold octet?
  split
  · rename_i rest he
    cases he
    exact absurd h (by decide)
  · simp [Numeral.parse, hdigit]

theorem octet?_pair : octet? [c, d] = some v ↔ IsPair c d ∧ v = UInt8.ofNat (Numeral.value 16 [c, d]) := by
  have hc := getD_digit?_lt c
  have hd := getD_digit?_lt d
  have htwo : Numeral.value 16 [c, d] = 16 * (16 * 0 + (Numeral.digit? c).getD 0) + (Numeral.digit? d).getD 0 := rfl
  unfold octet?
  split
  · rename_i rest he
    cases he
    -- The sign counts as a zero in front of the digit.
    have hone : Numeral.value 16 [d] = Numeral.value 16 ['+', d] := rfl
    have hplus : Numeral.isDigit 16 '+' = false := by decide
    rw [parse_octet (by omega), hone]
    simp [IsPair, hplus]
  · rename_i hne
    have hplus : c ≠ '+' := fun he => hne [d] (he ▸ rfl)
    rw [parse_octet (by omega)]
    simp [IsPair, hplus]

end Octet

section Pairs

variable {c d : Char} {cs : List Char} {high low : UInt8} {n position : Nat}

theorem readAt_pair (hc : c.val.toNat < 128) (hd : d.val.toNat < 128) (cs : List Char) :
    readAt (c :: d :: cs) 0 = pair? (UInt8.ofNat c.val.toNat) (UInt8.ofNat d.val.toNat) := by
  ext v
  rw [readAt, slice?_pair hc hd, Option.bind_some, octet?_pair, pair?_ofNat hc hd]

theorem readAt_behind (hc : c.val.toNat < 128) (hd : d.val.toNat < 128) (cs : List Char) (p : Nat) :
    readAt (c :: d :: cs) (p + 2) = readAt cs p := by
  rw [readAt, slice?_behind hc hd, readAt]

theorem pair?_of_not_ascii (h : 128 ≤ high.toNat ∨ 128 ≤ low.toNat) : pair? high low = none := by
  refine Option.eq_none_iff_forall_ne_some.mpr fun v hv => ?_
  have hascii := toNat_of_pair? hv
  omega

theorem pairs_of_none {rest : Bytes} (h : pair? high low = none) :
    pairs position (high :: low :: rest) = .error (.digit position) := by
  simp only [pairs, h]

/-- The first pair is two characters that are read, or it stops the reading. -/
inductive Front (position : Nat) : List Char → Prop
  | read {c d : Char} {cs : List Char} (hc : c.val.toNat < 128) (hd : d.val.toNat < 128) {v : UInt8}
      (hv : readAt (c :: d :: cs) 0 = some v)
      (hp : pairs position ((c :: d :: cs).flatMap String.utf8EncodeChar) =
        (pairs (position + 2) (cs.flatMap String.utf8EncodeChar)).map (v :: ·)) : Front position (c :: d :: cs)
  | refused {cs : List Char} (hv : readAt cs 0 = none)
      (hp : pairs position (cs.flatMap String.utf8EncodeChar) = .error (.digit position)) : Front position cs

theorem front_of_length (h : (cs.flatMap String.utf8EncodeChar).length = 2 * (n + 1)) : Front position cs := by
  cases cs with
  | nil =>
    rw [List.flatMap_nil, List.length_nil] at h
    omega
  | cons c cs =>
    by_cases hc : c.val.toNat < 128
    · cases cs with
      | nil =>
        rw [List.flatMap_singleton, encode_of_ascii hc, List.length_singleton] at h
        omega
      | cons d cs =>
        by_cases hd : d.val.toNat < 128
        · have hbytes : (c :: d :: cs).flatMap String.utf8EncodeChar =
              UInt8.ofNat c.val.toNat :: UInt8.ofNat d.val.toNat :: cs.flatMap String.utf8EncodeChar := by
            rw [List.flatMap_cons, List.flatMap_cons, encode_of_ascii hc, encode_of_ascii hd]
            rfl
          cases hv : pair? (UInt8.ofNat c.val.toNat) (UInt8.ofNat d.val.toNat) with
          | none => exact .refused ((readAt_pair hc hd cs).trans hv) (by rw [hbytes, pairs_of_none hv])
          | some v =>
            refine .read hc hd ((readAt_pair hc hd cs).trans hv) ?_
            rw [hbytes]
            simp only [pairs, hv]
        · obtain ⟨lead, next, more, he, hlead⟩ := encode_of_not_ascii (Nat.not_lt.mp hd)
          refine .refused ?_ ?_
          · rw [readAt, slice?_across hc (Nat.not_lt.mp hd)]
            rfl
          · rw [List.flatMap_cons, List.flatMap_cons, encode_of_ascii hc, he]
            exact pairs_of_none (pair?_of_not_ascii (.inr hlead))
    · obtain ⟨lead, next, more, he, hlead⟩ := encode_of_not_ascii (Nat.not_lt.mp hc)
      refine .refused ?_ ?_
      · rcases slice?_of_not_ascii (Nat.not_lt.mp hc) cs with hs | hs
        · rw [readAt, hs]
          rfl
        · rw [readAt, hs, Option.bind_some, octet?_singleton (Nat.not_lt.mp hc)]
      · rw [List.flatMap_cons, he]
        exact pairs_of_none (pair?_of_not_ascii (.inl hlead))

/-- What a reading of `n` pairs comes to: all are bytes, or the first that is none is told. -/
inductive Reads (cs : List Char) (n position : Nat) : Except Error Bytes → Prop
  | bytes {b : Bytes} (hb : b.length = n) (h : ∀ i, i < n → readAt cs (2 * i) = b[i]?) : Reads cs n position (.ok b)
  | stops {i : Nat} (hi : i < n) (hread : ∀ j, j < i → (readAt cs (2 * j)).isSome) (hstop : readAt cs (2 * i) = none) :
      Reads cs n position (.error (.digit (position + 2 * i)))

theorem reads_pairs (h : (cs.flatMap String.utf8EncodeChar).length = 2 * n) :
    Reads cs n position (pairs position (cs.flatMap String.utf8EncodeChar)) := by
  induction n generalizing cs position with
  | zero =>
    rw [List.length_eq_zero_iff.mp h]
    exact .bytes rfl nofun
  | succ n ih =>
    have hfront : Front position cs := front_of_length h
    cases hfront with
    | refused hv hp =>
      rw [hp]
      exact .stops (i := 0) (Nat.succ_pos n) nofun hv
    | read hc hd hv hp =>
      rename_i c d cs v
      have hrest : (cs.flatMap String.utf8EncodeChar).length = 2 * n := by
        rw [List.flatMap_cons, List.flatMap_cons, encode_of_ascii hc, encode_of_ascii hd] at h
        simp only [List.length_append, List.length_singleton] at h
        omega
      rw [hp]
      have hbehind (i : Nat) : readAt (c :: d :: cs) (2 * (i + 1)) = readAt cs (2 * i) := readAt_behind hc hd cs _
      have hreads : Reads cs n (position + 2) (pairs (position + 2) (cs.flatMap String.utf8EncodeChar)) := ih hrest
      generalize pairs (position + 2) (cs.flatMap String.utf8EncodeChar) = r at hreads ⊢
      cases hreads with
      | bytes hb h =>
        refine .bytes (congrArg Nat.succ hb) fun i hi => ?_
        cases i with
        | zero => exact hv
        | succ i => exact (hbehind i).trans (h i (Nat.lt_of_succ_lt_succ hi))
      | stops hi hread hstop =>
        rename_i i
        have hplace : position + 2 + 2 * i = position + 2 * (i + 1) := by omega
        rw [hplace]
        refine .stops (Nat.succ_lt_succ hi) (fun j hj => ?_) ((hbehind i).trans hstop)
        cases j with
        | zero => exact Option.isSome_iff_exists.mpr ⟨v, hv⟩
        | succ j =>
          rw [hbehind]
          exact hread j (Nat.lt_of_succ_lt_succ hj)

end Pairs

section Readers

variable {text : String} {n : Nat}

theorem parse_of_error {e : Error} (hl : (Bytes.ofString (trim text)).length = 2 * n)
    (he : pairs 0 (Bytes.ofString (trim text)) = .error e) : parse n text = .error e := by
  unfold parse
  dsimp only
  rw [dif_pos hl]
  split
  · rename_i out hout
    rw [he] at hout
    cases hout
  · rename_i e' he'
    rw [he] at he'
    cases he'
    rfl

theorem decode_of_length (hn : 1 ≤ n) (hl : (Bytes.ofString (trim text)).length = 2 * n) :
    decode text = pairs 0 (Bytes.ofString (trim text)) := by
  unfold decode
  exact if_neg (by omega)

end Readers

section Letters

variable {c high low : Char} {b : UInt8}

theorem digit?_toLower (c : Char) : Numeral.digit? c.toLower = Numeral.digit? c := by
  unfold Char.toLower
  split
  · rename_i h
    have hlow : 65 ≤ c.val.toNat := UInt32.le_iff_toNat_le.mp h.1
    have hhigh : c.val.toNat ≤ 90 := UInt32.le_iff_toNat_le.mp h.2
    have hval : (c.val + ('a'.val - 'A'.val)).toNat = c.val.toNat + 32 := by
      have hstep : ('a'.val - 'A'.val).toNat = 32 := rfl
      rw [UInt32.toNat_add, hstep]
      omega
    simp only [Numeral.digit?, hval]
    by_cases hf : c.val.toNat ≤ 70
    · rw [if_neg (by omega), if_pos (by omega), if_neg (by omega), if_neg (by omega), if_pos (by omega)]
      exact congrArg some (by omega)
    · rw [if_neg (by omega), if_neg (by omega), if_neg (by omega), if_neg (by omega), if_neg (by omega),
        if_neg (by omega)]
  · rfl

theorem digit?_digitChar : ∀ n < 16, Numeral.digit? (digitChar (UInt8.ofNat n)) = some n := by decide

theorem digit?_of_toLower {d : UInt8} (h : c.toLower = digitChar d) (hd : d.toNat < 16) :
    Numeral.digit? c = some d.toNat := by
  rw [← digit?_toLower, h, ← UInt8.ofNat_toNat (x := d), digit?_digitChar _ hd, UInt8.ofNat_toNat]

theorem pair_of_ofByte (hh : high.toLower = digitChar (b / 16)) (hl : low.toLower = digitChar (b % 16)) :
    IsPair high low ∧ UInt8.ofNat (Numeral.value 16 [high, low]) = b := by
  have hdiv : (b / 16).toNat = b.toNat / 16 := UInt8.toNat_div ..
  have hmod : (b % 16).toNat = b.toNat % 16 := UInt8.toNat_mod ..
  have hlt := b.toNat_lt
  have hhigh := digit?_of_toLower hh (by omega)
  have hlow := digit?_of_toLower hl (by omega)
  refine ⟨⟨.inl ?_, ?_⟩, ?_⟩
  · rw [isDigit_eq_isSome, hhigh]
    rfl
  · rw [isDigit_eq_isSome, hlow]
    rfl
  · have hvalue : Numeral.value 16 [high, low] = b.toNat := by
      simp only [Numeral.value, List.foldl_cons, List.foldl_nil, hhigh, hlow, Option.getD_some]
      omega
    rw [hvalue, UInt8.ofNat_toNat]

/-- What is written of bytes spells them in either case. -/
theorem spelt_of_encode {b : Bytes} {body : List Char} (h : body.map Char.toLower = (encode b).toList) :
    IsPaired body ∧ spelt body = b := by
  rw [encode, String.toList_ofList] at h
  induction b generalizing body with
  | nil =>
    rw [List.flatMap_nil, List.map_eq_nil_iff] at h
    subst h
    exact ⟨.nil, rfl⟩
  | cons x b ih =>
    rw [List.flatMap_cons, ofByte, List.cons_append, List.cons_append, List.nil_append] at h
    obtain ⟨high, rest, rfl, hh, h⟩ := List.map_eq_cons_iff.mp h
    obtain ⟨low, rest, rfl, hl, h⟩ := List.map_eq_cons_iff.mp h
    obtain ⟨hpair, hx⟩ := pair_of_ofByte hh hl
    obtain ⟨hpaired, hb⟩ := ih h
    exact ⟨.cons hpair hpaired, by rw [spelt, hx, hb]⟩

end Letters

/-- On a text of as many pairs as a field has bytes, the reader of fields of one length and the reader of fields of any
length agree: they give the bytes of all pairs, or the place of the first pair that is none. Both give back the bytes
that were written, in letters of either case and with any white space around them. -/
theorem readers_agree_on_pairs :
    (∀ n text, 1 ≤ n → (Bytes.ofString (trim text)).length = 2 * n →
      (∃ b : Octets n, parse n text = .ok b ∧ decode text = .ok b.toList ∧
        ∀ i, i < n → readAt (trim text).toList (2 * i) = b.toList[i]?) ∨
      ∃ i, i < n ∧ parse n text = .error (.digit (2 * i)) ∧ decode text = .error (.digit (2 * i)) ∧
        readAt (trim text).toList (2 * i) = none ∧ ∀ j, j < i → (readAt (trim text).toList (2 * j)).isSome) ∧
    ∀ b : Bytes, b ≠ [] → ∀ text body, Surrounds body text → body.map Char.toLower = (encode b).toList →
      parse b.length text = .ok ⟨b, rfl⟩ ∧ decode text = .ok b := by
  refine ⟨fun n text hn hl => ?_, fun b hb text body hs he => ?_⟩
  · have hreads : Reads (trim text).toList n 0 (pairs 0 (Bytes.ofString (trim text))) := by
      rw [ofString_eq] at hl ⊢
      exact reads_pairs hl
    rw [decode_of_length hn hl]
    generalize hr : pairs 0 (Bytes.ofString (trim text)) = r at hreads ⊢
    cases hreads with
    | bytes hb h =>
      rename_i b
      exact .inl ⟨⟨b, hb⟩, parse_eq_ok.mpr hr, rfl, h⟩
    | stops hi hread hstop =>
      rename_i i
      rw [Nat.zero_add] at hr ⊢
      exact .inr ⟨i, hi, parse_of_error hl hr, rfl, hstop, hread⟩
  · obtain ⟨hpaired, rfl⟩ := spelt_of_encode he
    have hne : body ≠ [] := by
      rintro rfl
      exact hb rfl
    exact ⟨parse_iff_pairs.mpr ⟨body, hs, hpaired, hpaired.length, rfl⟩,
      decode_iff_pairs.mpr ⟨body, hs, hpaired, hne, rfl⟩⟩

/-- The second pair of a text of four bytes is one letter with an accent; a byte with a capital and blanks is read. -/
theorem accent_is_refused : parse 2 "a1é" = .error (.digit 2) ∧ decode "a1é" = .error (.digit 2) ∧
    parse 1 " aB\t" = .ok ⟨[0xAB], rfl⟩ ∧ decode " aB\t" = .ok [0xAB] := by
  obtain ⟨hagree, hread⟩ := readers_agree_on_pairs
  have hfirst : readAt (trim "a1é").toList 0 = some 0xA1 := by decide
  have hsecond : readAt (trim "a1é").toList 2 = none := by decide
  have hcase : parse 2 "a1é" = .error (.digit 2) ∧ decode "a1é" = .error (.digit 2) := by
    rcases hagree 2 "a1é" (by decide) (by decide) with ⟨b, -, -, h⟩ | ⟨i, hi, hparse, hdecode, hnone, -⟩
    · have hsome := h 1 (by decide)
      rw [hsecond, eq_comm, List.getElem?_eq_none_iff, b.length_toList] at hsome
      exact absurd hsome (by decide)
    · cases i with
      | zero =>
        rw [hfirst] at hnone
        cases hnone
      | succ i =>
        cases Nat.lt_one_iff.mp (Nat.lt_of_succ_lt_succ hi)
        exact ⟨hparse, hdecode⟩
  have hblank : Surrounds ['a', 'B'] " aB\t" :=
    ⟨[' '], ['\t'], by decide, List.forall_mem_singleton.mpr rfl, List.forall_mem_singleton.mpr rfl⟩
  obtain ⟨hparse, hdecode⟩ := hread [0xAB] (by decide) " aB\t" ['a', 'B'] hblank (by decide)
  exact ⟨hcase.1, hcase.2, hparse, hdecode⟩

end RealmLogon.Hex
