import RealmLogon.Proofs.Text.ZeroFree
import RealmLogon.Text.Numeral
import RealmLogon.Token

/-! A token that is generated and typed reads back, and it is valid at the time it was generated for. -/

namespace RealmLogon.Token

open Text

theorem isDigit_iff {c : Char} : Numeral.isDigit 10 c = true ↔ 48 ≤ c.val.toNat ∧ c.val.toNat ≤ 57 := by
  simp only [Numeral.isDigit, Numeral.digit?]
  constructor
  · intro h
    split at h
    · assumption
    · split at h
      · simp only [Option.any_some, decide_eq_true_eq] at h
        omega
      · split at h
        · simp only [Option.any_some, decide_eq_true_eq] at h
          omega
        · cases h
  · intro h
    rw [if_pos h]
    simp only [Option.any_some, decide_eq_true_eq]
    omega

theorem ascii_of_isDigit {c : Char} (h : Numeral.isDigit 10 c = true) : c.val.toNat < 128 := by
  have hv := isDigit_iff.mp h
  omega

theorem digit?_of_isDigit {c : Char} (h : Numeral.isDigit 10 c = true) :
    Numeral.digit? c = some (c.val.toNat - 48) := if_pos (isDigit_iff.mp h)

theorem foldl_digits {cs : List Char} (h : ∀ c ∈ cs, Numeral.isDigit 10 c = true) (n : Nat) :
    (cs.map fun c => UInt8.ofNat c.val.toNat).foldl (fun n c => 10 * n + (c.toNat - 48)) n =
      cs.foldl (fun n c => 10 * n + (Numeral.digit? c).getD 0) n := by
  induction cs generalizing n with
  | nil => rfl
  | cons c cs ih =>
    have hc := h c List.mem_cons_self
    simp only [List.map_cons, List.foldl_cons, toNat_ofNat_ascii (ascii_of_isDigit hc), digit?_of_isDigit hc, Option.getD_some]
    exact ih (fun x hx => h x (List.mem_cons_of_mem c hx)) _

theorem parse_digits {cs : List Char} (h : ∀ c ∈ cs, Numeral.isDigit 10 c = true) (hn : cs ≠ [])
    (hl : cs.length ≤ typedDigits + 2) : parse (String.ofList cs) = some (Numeral.value 10 cs) := by
  have hb := ofString_ascii fun c hc => ascii_of_isDigit (h c hc)
  have hc : ¬((cs.map fun c => UInt8.ofNat c.val.toNat) = [] ∨
      typedDigits + 2 < (cs.map fun c => UInt8.ofNat c.val.toNat).length) := by
    simp only [List.map_eq_nil_iff, List.length_map, not_or]
    exact ⟨hn, by omega⟩
  have ha : (cs.map fun c => UInt8.ofNat c.val.toNat).all (fun c => 48 ≤ c && c ≤ 57) = true := by
    simp only [List.all_eq_true, List.mem_map, Bool.and_eq_true, decide_eq_true_eq, UInt8.le_iff_toNat_le]
    rintro b ⟨c, hm, rfl⟩
    rw [toNat_ofNat_ascii (ascii_of_isDigit (h c hm))]
    exact isDigit_iff.mp (h c hm)
  simp only [parse, hb]
  rw [if_neg hc, if_pos ha]
  exact congrArg some (foldl_digits h 0)

theorem value_zeros (k : Nat) (cs : List Char) :
    Numeral.value 10 (List.replicate k '0' ++ cs) = Numeral.value 10 cs := by
  induction k with
  | zero => rfl
  | succ k ih => exact ih

def typedChars (n : Nat) : List Char :=
  List.replicate (typedDigits - (Nat.toDigits 10 n).length) '0' ++ Nat.toDigits 10 n

theorem isDigit_typedChars (n : Nat) : ∀ c ∈ typedChars n, Numeral.isDigit 10 c = true := by
  have hd : ∀ c ∈ Nat.toDigits 10 n, Numeral.isDigit 10 c = true :=
    List.all_eq_true.mp (Numeral.all_isDigit_print (by decide) (by decide) n)
  intro c hc
  rcases List.mem_append.mp hc with hc | hc
  · rw [List.eq_of_mem_replicate hc]
    rfl
  · exact hd c hc

theorem length_typedChars {n : Nat} (h : n < Nat.pow 10 typedDigits) : (typedChars n).length = typedDigits := by
  have hl : (Nat.toDigits 10 n).length ≤ typedDigits := Numeral.length_print_le (by decide) (by decide) h
  rw [typedChars, List.length_append, List.length_replicate]
  omega

theorem parse_typed {n : Nat} (h : n < Nat.pow 10 typedDigits) : parse (typed n) = some n := by
  have hlen := length_typedChars h
  have hne : typedChars n ≠ [] := by
    simp [typedChars, Nat.toDigits_ne_nil]
  have ht : typed n = String.ofList (typedChars n) := rfl
  rw [ht, parse_digits (isDigit_typedChars n) hne (by omega), typedChars, value_zeros]
  exact congrArg some (Numeral.value_print (by decide) (by decide) n)

/-- What a token is typed as has six characters, all of them digits, and spells it. -/
theorem typed_spells {n : Nat} (h : n < Nat.pow 10 typedDigits) :
    (typed n).length = typedDigits ∧ (∀ c ∈ (typed n).toList, c.isDigit = true) ∧
      Numeral.value 10 (typed n).toList = n := by
  have ht : (typed n).toList = typedChars n := String.toList_ofList
  rw [← String.length_toList, ht]
  refine ⟨length_typedChars h, fun c hc => ?_, ?_⟩
  · have hv := isDigit_iff.mp (isDigit_typedChars n c hc)
    simp only [Char.isDigit, Bool.and_eq_true, decide_eq_true_eq, ge_iff_le, UInt32.le_iff_toNat_le]
    exact hv
  · rw [typedChars, value_zeros]
    exact Numeral.value_print (by decide) (by decide) n

theorem length_ofString_typed {n : Nat} (h : n < Nat.pow 10 typedDigits) :
    (Bytes.ofString (typed n)).length = typedDigits := by
  have ht : Bytes.ofString (typed n) = (typedChars n).map fun c => UInt8.ofNat c.val.toNat :=
    ofString_ascii fun c hc => ascii_of_isDigit (isDigit_typedChars n c hc)
  rw [ht, List.length_map, length_typedChars h]

theorem foldl_decimal_lt {cs : Bytes} (h : ∀ c ∈ cs, c ≤ 57) (n : Nat) :
    cs.foldl (fun n c => 10 * n + (c.toNat - 48)) n < (n + 1) * Nat.pow 10 cs.length := by
  induction cs generalizing n with
  | nil =>
    have hp : Nat.pow 10 ([] : Bytes).length = 1 := rfl
    rw [List.foldl_nil, hp, Nat.mul_one]
    exact Nat.lt_succ_self n
  | cons c cs ih =>
    have hc := UInt8.le_iff_toNat_le.mp (h c List.mem_cons_self)
    have hd : (10 * n + (c.toNat - 48) + 1) * Nat.pow 10 cs.length ≤ (n + 1) * 10 * Nat.pow 10 cs.length := by
      refine Nat.mul_le_mul_right _ ?_
      change c.toNat ≤ 57 at hc
      omega
    have hp : Nat.pow 10 (cs.length + 1) = 10 * Nat.pow 10 cs.length := Nat.pow_succ'
    rw [List.length_cons, hp, ← Nat.mul_assoc]
    exact Nat.lt_of_lt_of_le (ih (fun x hx => h x (List.mem_cons_of_mem c hx)) _) hd

theorem parse_lt {text : String} {token : Nat} (h : parse text = some token) :
    token < Nat.pow 10 (typedDigits + 2) := by
  unfold parse at h
  dsimp only at h
  split at h
  · cases h
  · rename_i hl
    split at h
    · rename_i ha
      simp only [List.all_eq_true, Bool.and_eq_true, decide_eq_true_eq] at ha
      cases h
      refine Nat.lt_of_lt_of_le (foldl_decimal_lt (fun c hc => (ha c hc).2) 0) ?_
      rw [Nat.zero_add, Nat.one_mul]
      exact Nat.pow_le_pow_right (by decide) (by omega)
    · cases h

theorem generate_lt (secret : Bytes) (step : Nat) : generate secret step typedDigits < Nat.pow 10 typedDigits :=
  Nat.mod_lt _ (by decide)

/-- The steps that are accepted at a time are the current one and the two next to it, as far as they exist. -/
theorem mem_acceptedSteps {step time : Nat} :
    step ∈ acceptedSteps time ↔ time / timeStep ≤ step + drift ∧ step ≤ time / timeStep + drift := by
  simp only [acceptedSteps, drift, List.mem_range'_1]
  omega

theorem validate_iff {secret : Bytes} {token time : Nat} :
    validate secret token time = true ↔ ∃ step, (time / timeStep ≤ step + drift ∧ step ≤ time / timeStep + drift) ∧
      token = generate secret step typedDigits := by
  simp only [validate, List.any_eq_true, mem_acceptedSteps, beq_iff_eq, @eq_comm Nat token]

theorem validate_generate (secret : Bytes) (time : Nat) :
    validate secret (generate secret (time / timeStep) typedDigits) time = true :=
  validate_iff.mpr ⟨_, ⟨by omega, by omega⟩, rfl⟩

/-! The token of a step as the standard has it: four bytes of the digest from a place that the digest itself names, all
of them within it. -/

/-- The place that the last four bits of a digest name. -/
def place (d : Digest) : Fin 16 := ⟨(d.get ⟨19, Nat.lt_succ_self 19⟩).toNat % 16, Nat.mod_lt _ (Nat.succ_pos 15)⟩

/-- The four bytes from this place on, high byte first, without the highest bit. -/
def excerpt (d : Digest) : Nat :=
  (d.get ⟨place d, by omega⟩).toNat % 128 * 16777216 + (d.get ⟨place d + 1, by omega⟩).toNat * 65536 +
    (d.get ⟨place d + 2, by omega⟩).toNat * 256 + (d.get ⟨place d + 3, by omega⟩).toNat

theorem toNat_and_low (b : UInt8) : (b &&& 0x0F).toNat = b.toNat % 16 := by
  rw [UInt8.toNat_and]
  exact Nat.and_two_pow_sub_one_eq_mod b.toNat 4

theorem take_drop_eq (d : Digest) {i : Nat} (h : i < 16) :
    (d.toList.drop i).take 4 = [d.get ⟨i, by omega⟩, d.get ⟨i + 1, by omega⟩, d.get ⟨i + 2, by omega⟩,
      d.get ⟨i + 3, by omega⟩] := by
  have hl := d.length_toList
  rw [List.drop_eq_getElem_cons (by omega), List.drop_eq_getElem_cons (by omega), List.drop_eq_getElem_cons (by omega),
    List.drop_eq_getElem_cons (by omega)]
  rfl

theorem truncate_eq (d : Digest) : truncate d = excerpt d := by
  have hp : (d.get ⟨19, by omega⟩ &&& 0x0F).toNat = (place d).val := toNat_and_low _
  unfold truncate excerpt
  simp only [hp, take_drop_eq d (place d).isLt, List.reverse_cons, List.reverse_nil, List.nil_append, List.cons_append,
    LittleEndian.value]
  have h1 := (d.get ⟨(place d).val + 1, by omega⟩).toNat_lt
  have h2 := (d.get ⟨(place d).val + 2, by omega⟩).toNat_lt
  have h3 := (d.get ⟨(place d).val + 3, by omega⟩).toNat_lt
  omega

/-- The one-time password of six digits for a counter, which is hashed as eight bytes, high byte first. -/
def hotp (secret : Bytes) (counter : UInt64) : Nat :=
  excerpt (Hmac.sha1 secret (LittleEndian.word64 counter).reverse) % 1000000

theorem generate_eq_hotp (secret : Bytes) (counter : UInt64) :
    generate secret counter.toNat typedDigits = hotp secret counter := by
  rw [generate, truncate_eq]
  rfl

end RealmLogon.Token
