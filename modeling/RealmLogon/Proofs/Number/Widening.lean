import Mathlib.Tactic.Common
import RealmLogon.Number.Real

/-! A number with 32 bits is kept as one with 64 bits, and comes back by narrowing: nothing of it is lost, unless it is
no number at all. -/

namespace RealmLogon

theorem roundShift_shiftLeft (n k : Nat) : roundShift (n <<< k) k = n := by
  have hpos : 0 < 1 <<< k := by
    rw [Nat.shiftLeft_eq, Nat.one_mul]
    exact Nat.two_pow_pos k
  have hr : n <<< k % 1 <<< k = 0 := by
    rw [Nat.shiftLeft_eq, Nat.shiftLeft_eq, Nat.one_mul, Nat.mul_mod_left]
  have hq : n <<< k >>> k = n := Nat.shiftLeft_shiftRight n k
  unfold roundShift
  dsimp only
  rw [hr, hq]
  refine if_neg fun h => ?_
  simp only [Nat.mul_zero, Bool.or_eq_true, decide_eq_true_eq, Bool.and_eq_true, beq_iff_eq] at h
  omega

namespace Double

def ofFields (negative : Bool) (exponent fraction : Nat) : Double :=
  ⟨UInt64.ofNat (packed 52 11 negative exponent fraction)⟩

section Fields

variable {b : Bool} {e f : Nat}

theorem toNat_ofFields (he : e < 2048) (hf : f < 0x10000000000000) :
    (ofFields b e f).bits.toNat = (if b then 0x8000000000000000 else 0) + e * 0x10000000000000 + f := by
  have hs : e <<< 52 = e * 0x10000000000000 := Nat.shiftLeft_eq e 52
  have h1 : 1 <<< (52 + 11) = 0x8000000000000000 := rfl
  rw [ofFields, UInt64.toNat_ofNat', packed, hs, h1]
  cases b <;> simp <;> omega

theorem negative_ofFields (he : e < 2048) (hf : f < 0x10000000000000) : (ofFields b e f).negative = b := by
  rw [negative, toNat_ofFields he hf, Nat.shiftRight_eq_div_pow]
  cases b <;> simp <;> omega

theorem exponent_ofFields (he : e < 2048) (hf : f < 0x10000000000000) : (ofFields b e f).exponent = e := by
  rw [exponent, toNat_ofFields he hf, Nat.shiftRight_eq_div_pow]
  cases b <;> simp <;> omega

theorem fraction_ofFields (he : e < 2048) (hf : f < 0x10000000000000) : (ofFields b e f).fraction = f := by
  rw [fraction, toNat_ofFields he hf]
  cases b <;> simp <;> omega

/-- What stands behind the sign of a narrowed number. -/
def narrowed (exponent fraction : Nat) : Nat :=
  if exponent = 2047 then 0x7F800000 + (if fraction = 0 then 0 else fraction >>> 29 ||| 0x400000)
  else if exponent ≥ 1151 then 0x7F800000
  else if exponent ≥ 897 then (exponent - 896) <<< 23 + roundShift fraction 29
  else if exponent = 0 then 0
  else roundShift (0x10000000000000 + fraction) (926 - exponent)

theorem narrow_ofFields (he : e < 2048) (hf : f < 0x10000000000000) :
    (ofFields b e f).narrow = ⟨UInt32.ofNat ((if b then 0x80000000 else 0) + narrowed e f)⟩ := by
  unfold narrow narrowed
  simp only [negative_ofFields he hf, exponent_ofFields he hf, fraction_ofFields he hf]
  split
  · rfl
  · split
    · rfl
    · split
      · rfl
      · split <;> rfl

end Fields

end Double

namespace Single

variable {s : Single}

def isZero (s : Single) : Bool := s.exponent == 0 && s.fraction == 0

def unsignedZero (s : Single) : Single := if s.isZero then ⟨0⟩ else s

theorem exponent_lt (s : Single) : s.exponent < 256 := Nat.mod_lt _ (by decide)

theorem fraction_lt (s : Single) : s.fraction < 0x800000 := Nat.mod_lt _ (by decide)

theorem ofNat_fields (s : Single) :
    ⟨UInt32.ofNat ((if s.negative then 0x80000000 else 0) + (s.exponent <<< 23 + s.fraction))⟩ = s := by
  have hlt := s.bits.toNat_lt
  cases s with
  | mk bits =>
    congr 1
    apply UInt32.toNat_inj.mp
    rw [UInt32.toNat_ofNat']
    simp only [negative, exponent, fraction, Nat.shiftLeft_eq, Nat.shiftRight_eq_div_pow] at hlt ⊢
    by_cases hb : bits.toNat / 2 ^ 31 = 1
    · rw [if_pos (beq_iff_eq.mpr hb)]
      omega
    · rw [if_neg fun h => hb (beq_iff_eq.mp h)]
      omega

/-- What a number becomes when it is widened. Only a subnormal one gets other digits: its leading bit moves to the
front, as far as the exponent makes up for. -/
inductive Widened (s : Single) : Double → Prop
  | infinite (he : s.exponent = 255) (hf : s.fraction = 0) : Widened s (.ofFields s.negative 2047 0)
  | normal (he : s.exponent < 255) (hpos : 0 < s.exponent) :
      Widened s (.ofFields s.negative (s.exponent + 896) (s.fraction <<< 29))
  | zero (he : s.exponent = 0) (hf : s.fraction = 0) : Widened s (.ofFields s.negative 0 0)
  | subnormal {k fraction : Nat} (he : s.exponent = 0) (hk : 30 ≤ k ∧ k ≤ 52)
      (hf : 0x10000000000000 + fraction = s.fraction <<< k) (hlt : fraction < 0x10000000000000) :
      Widened s (.ofFields s.negative (926 - k) fraction)

theorem widened_widen (h : s.isNaN = false) : Widened s s.widen := by
  have he := s.exponent_lt
  have hf := s.fraction_lt
  unfold widen
  dsimp only
  split
  · rename_i h255
    have h0 : s.fraction = 0 := by simpa [isNaN, h255] using h
    rw [if_pos h0]
    exact .infinite h255 h0
  · split
    · exact .normal (by omega) (by omega)
    · rename_i h0
      have h0 : s.exponent = 0 := Decidable.not_not.mp h0
      split
      · rename_i hz
        exact .zero h0 hz
      · rename_i hz
        let top := s.fraction.log2
        have hlow : 2 ^ top ≤ s.fraction := Nat.log2_self_le hz
        have hhigh : s.fraction < 2 ^ (top + 1) := Nat.lt_log2_self
        have htop : top < 23 := (Nat.log2_lt hz).mpr hf
        -- the shift brings the leading bit to place 52
        have hbit : 2 ^ top * 2 ^ (52 - top) = 0x10000000000000 := by
          rw [← Nat.pow_add, Nat.add_sub_cancel' (by omega)]
        have hpos : 0 < 2 ^ (52 - top) := Nat.two_pow_pos _
        have hge : 0x10000000000000 ≤ s.fraction <<< (52 - top) := by
          rw [Nat.shiftLeft_eq, ← hbit]
          exact Nat.mul_le_mul_right _ hlow
        have hlt : s.fraction <<< (52 - top) < 2 * 0x10000000000000 := by
          rw [Nat.shiftLeft_eq, ← hbit, ← Nat.mul_assoc, ← Nat.pow_succ']
          exact Nat.mul_lt_mul_of_pos_right hhigh hpos
        have hexp : 874 + top = 926 - (52 - top) := by omega
        change Widened s (.ofFields s.negative (874 + top) (s.fraction <<< (52 - top) - 0x10000000000000))
        rw [hexp]
        exact .subnormal h0 ⟨by omega, by omega⟩ (by omega) (by omega)

theorem shiftLeft_lt {s : Single} : s.fraction <<< 29 < 0x10000000000000 := by
  have hf := s.fraction_lt
  rw [Nat.shiftLeft_eq]
  omega

/-- The fields of a widened number, of which there is no NaN, and which are all zero only for zero. -/
theorem exists_fields_widen (h : s.isNaN = false) : ∃ e f, e < 2048 ∧ f < 0x10000000000000 ∧
    s.widen = .ofFields s.negative e f ∧ Double.narrowed e f = s.exponent <<< 23 + s.fraction ∧
    (e = 2047 → f = 0) ∧ (e = 0 ∧ f = 0 ↔ s.exponent = 0 ∧ s.fraction = 0) := by
  have hw := widened_widen h
  generalize s.widen = d at hw
  cases hw with
  | infinite he hf => exact ⟨2047, 0, by decide, by decide, rfl, by rw [he, hf]; rfl, fun _ => rfl, by omega⟩
  | normal he hpos =>
    refine ⟨s.exponent + 896, s.fraction <<< 29, by omega, shiftLeft_lt, rfl, ?_, by omega, by omega⟩
    rw [Double.narrowed, if_neg (by omega), if_neg (by omega), if_pos (by omega), roundShift_shiftLeft,
      Nat.add_sub_cancel]
  | zero he hf => exact ⟨0, 0, by decide, by decide, rfl, by rw [he, hf]; rfl, fun _ => rfl, by omega⟩
  | @subnormal k fraction he hk hf hlt =>
    have hshift : 926 - (926 - k) = k := by omega
    have hne : s.fraction ≠ 0 := by
      intro h0
      rw [h0, Nat.zero_shiftLeft] at hf
      omega
    refine ⟨926 - k, fraction, by omega, hlt, rfl, ?_, by omega, by omega⟩
    rw [Double.narrowed, if_neg (by omega), if_neg (by omega), if_neg (by omega), if_neg (by omega), hshift, hf,
      roundShift_shiftLeft, he, Nat.zero_shiftLeft, Nat.zero_add]

theorem narrow_widen (h : s.isNaN = false) : s.widen.narrow = s := by
  obtain ⟨e, f, he, hf, hd, hn, -⟩ := exists_fields_widen h
  rw [hd, Double.narrow_ofFields he hf, hn, ofNat_fields]

/-- A number that is kept without the sign of a zero comes back without it. -/
theorem narrow_kept (h : s.isNaN = false) :
    (if s.isZero then Double.zero else s.widen).narrow = s.unsignedZero := by
  have hz : Double.zero.narrow = ⟨0⟩ := by decide
  unfold unsignedZero
  by_cases h0 : s.isZero = true
  · rw [if_pos h0, if_pos h0, hz]
  · rw [if_neg h0, if_neg h0, narrow_widen h]

theorem isNaN_widen (h : s.isNaN = false) : s.widen.isNaN = false := by
  obtain ⟨e, f, he, hf, hd, -, hnan, -⟩ := exists_fields_widen h
  simpa [hd, Double.isNaN, Double.exponent_ofFields he hf, Double.fraction_ofFields he hf] using hnan

theorem isZero_widen (h : s.isNaN = false) : s.widen.isZero = s.isZero := by
  obtain ⟨e, f, he, hf, hd, -, -, hzero⟩ := exists_fields_widen h
  rw [hd, Bool.eq_iff_iff]
  simpa [isZero, Double.isZero, Double.exponent_ofFields he hf, Double.fraction_ofFields he hf] using hzero

end Single

end RealmLogon
