import RealmLogon.Proofs.Text.Trim
import RealmLogon.Proofs.Text.ZeroFree
import RealmLogon.Text.Hex
import RealmLogon.Text.Numeral

/-! Which texts are read as hexadecimal bytes. White space around them apart, they are the texts of digits in pairs,
except that a plus sign may stand for the first digit of a pair, and then counts as zero. -/

namespace RealmLogon.Hex

open Text

/-- What is read as a byte: two digits, or a plus sign and one digit. -/
def IsPair (high low : Char) : Prop :=
  (Numeral.isDigit 16 high = true ∨ high = '+') ∧ Numeral.isDigit 16 low = true

inductive IsPaired : List Char → Prop
  | nil : IsPaired []
  | cons {high low : Char} {rest : List Char} (h : IsPair high low) (hrest : IsPaired rest) :
      IsPaired (high :: low :: rest)

@[simp] theorem isPaired_nil : IsPaired [] := .nil

@[simp] theorem isPaired_cons {high low : Char} {rest : List Char} :
    IsPaired (high :: low :: rest) ↔ IsPair high low ∧ IsPaired rest := by
  constructor
  · intro hpaired
    cases hpaired with
    | cons h hrest => exact ⟨h, hrest⟩
  · rintro ⟨h, hrest⟩
    exact .cons h hrest

@[simp] theorem not_isPaired_singleton (c : Char) : ¬IsPaired [c] := by
  intro h
  cases h

def spelt : List Char → Bytes
  | [] => []
  | [_] => []
  | high :: low :: rest => UInt8.ofNat (Numeral.value 16 [high, low]) :: spelt rest

section Characters

variable {c high low : Char} {cs : List Char}

theorem digit?_ofNat (h : c.val.toNat < 128) :
    digit? (UInt8.ofNat c.val.toNat) = (Numeral.digit? c).map UInt8.ofNat := by
  have hc := toNat_ofNat_ascii h
  simp only [digit?, Numeral.digit?, Bool.and_eq_true, decide_eq_true_eq, UInt8.le_iff_toNat_le, hc,
    UInt8.reduceToNat]
  split
  · rename_i hd
    exact congrArg some (UInt8.ofNat_sub hd.1).symm
  · split
    · rename_i hd
      exact congrArg some (UInt8.ofNat_sub (Nat.le_trans (by decide) hd.1)).symm
    · split
      · rename_i hd
        exact congrArg some (UInt8.ofNat_sub (Nat.le_trans (by decide) hd.1)).symm
      · rfl

theorem isDigit_eq_isSome (c : Char) : Numeral.isDigit 16 c = (Numeral.digit? c).isSome := by
  simp only [Numeral.isDigit, Numeral.digit?]
  repeat' split
  all_goals simp only [Option.any_some, Option.any_none, Option.isSome_some, Option.isSome_none, decide_eq_true_eq]
  all_goals omega

theorem eq_plus_iff (h : c.val.toNat < 128) : UInt8.ofNat c.val.toNat = 43 ↔ c = '+' := by
  constructor
  · intro he
    have hn := congrArg UInt8.toNat he
    rw [toNat_ofNat_ascii h] at hn
    exact Char.toNat_inj.mp hn
  · rintro rfl
    rfl

theorem pair?_ofNat {v : UInt8} (hh : high.val.toNat < 128) (hl : low.val.toNat < 128) :
    pair? (UInt8.ofNat high.val.toNat) (UInt8.ofNat low.val.toNat) = some v ↔
      IsPair high low ∧ v = UInt8.ofNat (Numeral.value 16 [high, low]) := by
  simp only [pair?, IsPair, digit?_ofNat hh, digit?_ofNat hl, isDigit_eq_isSome, eq_plus_iff hh, Numeral.value,
    List.foldl_cons, List.foldl_nil]
  cases hlow : Numeral.digit? low with
  | none => cases Numeral.digit? high <;> simp
  | some l =>
    cases hhigh : Numeral.digit? high with
    | none =>
      by_cases hp : high = '+'
      · simp [hp, eq_comm]
      · simp [hp]
    | some d =>
      have hv : UInt8.ofNat d * 16 + UInt8.ofNat l = UInt8.ofNat (16 * (16 * 0 + d) + l) := by
        rw [UInt8.ofNat_add, UInt8.ofNat_mul, Nat.mul_zero, Nat.zero_add, UInt8.mul_comm]
        rfl
      simp [hv, eq_comm]

theorem map_cons_eq_ok {b : UInt8} {r : Except Error Bytes} {out : Bytes} :
    r.map (b :: ·) = .ok out ↔ ∃ bytes, r = .ok bytes ∧ out = b :: bytes := by
  cases r <;> simp [Except.map, eq_comm]

/-- Pairs of ASCII characters are read as the bytes that they spell, and nothing else is read. -/
theorem pairs_ascii {position : Nat} {out : Bytes} (h : ∀ c ∈ cs, c.val.toNat < 128) :
    pairs position (cs.map fun c => UInt8.ofNat c.val.toNat) = .ok out ↔ IsPaired cs ∧ out = spelt cs := by
  -- along the pairs; the position enters nothing but errors
  induction cs using spelt.induct generalizing position out with
  | case1 => simp [pairs, spelt, eq_comm]
  | case2 c => simp [pairs]
  | case3 high low rest ih =>
    have hh := h high (by simp)
    have hl := h low (by simp)
    have hrest (bytes : Bytes) : pairs (position + 2) (rest.map fun c => UInt8.ofNat c.val.toNat) = .ok bytes ↔
        IsPaired rest ∧ bytes = spelt rest := ih fun c hc => h c (by simp [hc])
    simp only [List.map_cons, pairs, isPaired_cons, spelt]
    cases hp : pair? (UInt8.ofNat high.val.toNat) (UInt8.ofNat low.val.toNat) with
    | none =>
      have hno : ¬IsPair high low := by
        intro hpair
        have hsome := (pair?_ofNat hh hl).mpr ⟨hpair, rfl⟩
        rw [hp] at hsome
        cases hsome
      simp [hno]
    | some v =>
      obtain ⟨hpair, rfl⟩ := (pair?_ofNat hh hl).mp hp
      simp only [map_cons_eq_ok, hrest, hpair, true_and]
      constructor
      · rintro ⟨bytes, ⟨hpaired, rfl⟩, rfl⟩
        exact ⟨hpaired, rfl⟩
      · rintro ⟨hpaired, rfl⟩
        exact ⟨_, ⟨hpaired, rfl⟩, rfl⟩

end Characters

theorem toNat_of_digit? {b v : UInt8} (h : digit? b = some v) : b.toNat < 128 := by
  simp only [digit?, Bool.and_eq_true, decide_eq_true_eq, UInt8.le_iff_toNat_le, UInt8.reduceToNat] at h
  repeat' split at h
  all_goals cases h
  all_goals omega

theorem toNat_of_pair? {high low v : UInt8} (h : pair? high low = some v) : high.toNat < 128 ∧ low.toNat < 128 := by
  unfold pair? at h
  split at h
  · rename_i hh hl
    exact ⟨toNat_of_digit? hh, toNat_of_digit? hl⟩
  · rename_i hl
    split at h
    · rename_i hp
      exact ⟨by rw [hp]; decide, toNat_of_digit? hl⟩
    · cases h
  · cases h

theorem ascii_of_pairs {position : Nat} {text out : Bytes} (h : pairs position text = .ok out) :
    ∀ b ∈ text, b.toNat < 128 := by
  fun_induction pairs position text generalizing out with
  | case1 => simp
  | case2 => cases h
  | case3 => cases h
  | case4 position high low rest b hb ih =>
    obtain ⟨bytes, hrest, -⟩ := map_cons_eq_ok.mp h
    obtain ⟨hh, hl⟩ := toNat_of_pair? hb
    simp only [List.mem_cons]
    rintro x (rfl | rfl | hx)
    · exact hh
    · exact hl
    · exact ih hrest x hx

section Text

variable {body : List Char} {text : String}

theorem code_of_isDigit {c : Char} (h : Numeral.isDigit 16 c = true) :
    (48 ≤ c.val.toNat ∧ c.val.toNat ≤ 57) ∨ (97 ≤ c.val.toNat ∧ c.val.toNat ≤ 102) ∨
      (65 ≤ c.val.toNat ∧ c.val.toNat ≤ 70) := by
  rw [isDigit_eq_isSome, Numeral.digit?] at h
  split at h
  · exact .inl ‹_›
  · split at h
    · exact .inr (.inl ‹_›)
    · split at h
      · exact .inr (.inr ‹_›)
      · cases h

theorem not_isBlank_of_isDigit {c : Char} (h : Numeral.isDigit 16 c = true) : isBlank c = false := by
  have hc := code_of_isDigit h
  simp only [isBlank, Bool.or_eq_false_iff, Bool.and_eq_false_iff, decide_eq_false_iff_not, beq_eq_false_iff_ne]
  omega

namespace IsPaired

theorem forall_mem {p : Char → Prop} (h : IsPaired body) (hdigit : ∀ c, Numeral.isDigit 16 c = true → p c)
    (hplus : p '+') : ∀ c ∈ body, p c := by
  induction h with
  | nil => simp
  | cons h _ ih =>
    obtain ⟨hh, hl⟩ := h
    simp only [List.mem_cons]
    rintro c (rfl | rfl | hc)
    · rcases hh with hh | rfl
      · exact hdigit _ hh
      · exact hplus
    · exact hdigit _ hl
    · exact ih c hc

theorem ascii (h : IsPaired body) : ∀ c ∈ body, c.val.toNat < 128 := by
  refine h.forall_mem (fun c hc => ?_) (by decide)
  have := code_of_isDigit hc
  omega

theorem not_isBlank (h : IsPaired body) : ∀ c ∈ body, isBlank c = false :=
  h.forall_mem (fun _ => not_isBlank_of_isDigit) (by decide)

theorem length (h : IsPaired body) : body.length = 2 * (spelt body).length := by
  induction h with
  | nil => rfl
  | cons _ _ ih =>
    simp only [spelt, List.length_cons]
    omega

end IsPaired

/-- Digits come in pairs if there is an even number of them, and pairs without a plus sign are digits. -/
theorem isPaired_iff_digits : IsPaired body ∧ '+' ∉ body ↔
    body.length % 2 = 0 ∧ ∀ c ∈ body, Numeral.isDigit 16 c = true := by
  induction body using spelt.induct with
  | case1 => simp
  | case2 c => simp
  | case3 high low rest ih =>
    have hplus : Numeral.isDigit 16 '+' = false := by decide
    have hodd : (rest.length + 1 + 1) % 2 = rest.length % 2 := by omega
    simp only [isPaired_cons, IsPair, List.mem_cons, List.length_cons, hodd, not_or]
    constructor
    · rintro ⟨⟨⟨hh, hl⟩, hrest⟩, hph, hpl, hno⟩
      obtain ⟨heven, hdigits⟩ := ih.mp ⟨hrest, hno⟩
      refine ⟨heven, ?_⟩
      rintro c (rfl | rfl | hc)
      · exact hh.resolve_right (Ne.symm hph)
      · exact hl
      · exact hdigits c hc
    · rintro ⟨heven, hdigits⟩
      have hh := hdigits high (.inl rfl)
      have hl := hdigits low (.inr (.inl rfl))
      obtain ⟨hrest, hno⟩ := ih.mpr ⟨heven, fun c hc => hdigits c (.inr (.inr hc))⟩
      refine ⟨⟨⟨.inl hh, hl⟩, hrest⟩, ?_, ?_, hno⟩
      · rintro rfl
        rw [hplus] at hh
        cases hh
      · rintro rfl
        rw [hplus] at hl
        cases hl

theorem pairs_ofString {position : Nat} {out : Bytes} :
    pairs position (Bytes.ofString text) = .ok out ↔ IsPaired text.toList ∧ out = spelt text.toList := by
  -- Bytes that can be read are of ASCII, and so are pairs: from either side the text is.
  have hread (h : ∀ c ∈ text.toList, c.val.toNat < 128) :
      pairs position (Bytes.ofString text) = .ok out ↔ IsPaired text.toList ∧ out = spelt text.toList := by
    have hbytes := ofString_ascii h
    rw [String.ofList_toList] at hbytes
    rw [hbytes]
    exact pairs_ascii h
  constructor
  · exact fun h => (hread (ascii_of_ofString (ascii_of_pairs h))).mp h
  · exact fun h => (hread h.1.ascii).mpr h

theorem parse_eq_ok {n : Nat} {b : Octets n} :
    parse n text = .ok b ↔ pairs 0 (Bytes.ofString (trim text)) = .ok b.toList := by
  unfold parse
  dsimp only
  split
  · split
    · rename_i out hout
      rw [Except.ok.injEq, Octets.ext_iff]
      dsimp only
      rw [hout, Except.ok.injEq]
    · rename_i e he
      rw [he]
      simp
  · rename_i hlength
    refine iff_of_false (by simp) fun h => hlength ?_
    rw [length_of_pairs h, b.length_toList]

theorem decode_eq_ok {b : Bytes} :
    decode text = .ok b ↔ (trim text).toList ≠ [] ∧ pairs 0 (Bytes.ofString (trim text)) = .ok b := by
  unfold decode
  dsimp only
  constructor
  · intro h
    split at h
    · cases h
    · rename_i hlength
      refine ⟨fun hnil => hlength (.inl ?_), h⟩
      rw [ofString_eq, hnil]
      rfl
  · rintro ⟨hne, h⟩
    have hbytes := length_of_pairs h
    obtain ⟨hpaired, hb⟩ := pairs_ofString.mp h
    have hpos := List.length_pos_iff.mpr hne
    have hlength := hpaired.length
    rw [← hb] at hlength
    rw [if_neg (by omega)]
    exact h

variable {q : List Char → Prop}

theorem exists_pairs : (∃ body, Surrounds body text ∧ IsPaired body ∧ q body) ↔
    IsPaired (trim text).toList ∧ q (trim text).toList := by
  constructor
  · rintro ⟨body, hs, h, hq⟩
    rw [(trim_eq_iff h.not_isBlank).mpr hs]
    exact ⟨h, hq⟩
  · exact fun h => ⟨_, surrounds_trim text, h⟩

theorem plus_mem_iff {body : List Char} (h : Surrounds body text) : '+' ∈ text.toList ↔ '+' ∈ body := by
  obtain ⟨before, after, hs, hb, ha⟩ := h
  have hbefore : '+' ∉ before := fun hm => absurd (hb _ hm) (by decide)
  have hafter : '+' ∉ after := fun hm => absurd (ha _ hm) (by decide)
  simp [hs, hbefore, hafter]

theorem exists_digits : (∃ body, Surrounds body text ∧
      (body.length % 2 = 0 ∧ ∀ c ∈ body, Numeral.isDigit 16 c = true) ∧ q body) ↔
    (∃ body, Surrounds body text ∧ IsPaired body ∧ q body) ∧ '+' ∉ text.toList := by
  constructor
  · rintro ⟨body, hs, hdigits, hq⟩
    obtain ⟨h, hno⟩ := isPaired_iff_digits.mpr hdigits
    exact ⟨⟨body, hs, h, hq⟩, (plus_mem_iff hs).not.mpr hno⟩
  · rintro ⟨⟨body, hs, h, hq⟩, hno⟩
    exact ⟨body, hs, isPaired_iff_digits.mp ⟨h, (plus_mem_iff hs).not.mp hno⟩, hq⟩

theorem parse_iff_pairs {n : Nat} {b : Octets n} : parse n text = .ok b ↔
    ∃ body, Surrounds body text ∧ IsPaired body ∧ body.length = 2 * n ∧ b.toList = spelt body := by
  rw [parse_eq_ok, pairs_ofString, exists_pairs]
  refine and_congr_right fun h => iff_and_self.mpr fun hb => ?_
  rw [h.length, ← hb, b.length_toList]

theorem decode_iff_pairs {b : Bytes} : decode text = .ok b ↔
    ∃ body, Surrounds body text ∧ IsPaired body ∧ body ≠ [] ∧ b = spelt body := by
  rw [decode_eq_ok, pairs_ofString, exists_pairs]
  exact and_left_comm

/-- Hexadecimal text is white space around pairs, each of two digits or of a plus sign and one digit: as many pairs as
a field has bytes, or any number of them but none. So it is digits if it has no plus sign. -/
theorem hex_reads_pairs (text : String) :
    (∀ n (b : Octets n), parse n text = .ok b ↔
      ∃ body, Surrounds body text ∧ IsPaired body ∧ body.length = 2 * n ∧ b.toList = spelt body) ∧
    (∀ b, decode text = .ok b ↔ ∃ body, Surrounds body text ∧ IsPaired body ∧ body ≠ [] ∧ b = spelt body) ∧
    (∀ n (b : Octets n), parse n text = .ok b ∧ '+' ∉ text.toList ↔
      ∃ body, Surrounds body text ∧ (∀ c ∈ body, Numeral.isDigit 16 c = true) ∧ body.length = 2 * n ∧
        b.toList = spelt body) ∧
    ∀ b, decode text = .ok b ∧ '+' ∉ text.toList ↔
      ∃ body, Surrounds body text ∧ (body.length % 2 = 0 ∧ ∀ c ∈ body, Numeral.isDigit 16 c = true) ∧ body ≠ [] ∧
        b = spelt body := by
  refine ⟨fun n b => parse_iff_pairs, fun b => decode_iff_pairs, fun n b => ?_, fun b => ?_⟩
  · rw [parse_iff_pairs, ← exists_digits]
    refine exists_congr fun body => and_congr_right fun _ => ?_
    constructor
    · rintro ⟨⟨-, hdigits⟩, h⟩
      exact ⟨hdigits, h⟩
    · rintro ⟨hdigits, hlength, h⟩
      exact ⟨⟨by omega, hdigits⟩, hlength, h⟩
  · rw [decode_iff_pairs, exists_digits]

example : parse 1 " +a" = .ok ⟨[10], rfl⟩ := by decide

example : parse 1 " ++" = .error (.digit 0) := by decide

end Text

end RealmLogon.Hex
