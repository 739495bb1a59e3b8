import RealmLogon.Bytes.Octets

/-! Numbers as bytes, least significant byte first. Writing and reading are inverse on numbers that
fit and on byte strings of the written length; words of 16, 32 and 64 bits come with both. -/

namespace RealmLogon.LittleEndian

/-- The lowest `n` base-256 digits of a number. -/
def digits : Nat → Nat → Bytes
  | 0, _ => []
  | n + 1, v => UInt8.ofNat v :: digits n (v / 256)

@[simp] theorem length_digits (n v : Nat) : (digits n v).length = n := by
  induction n generalizing v <;> simp_all [digits]

def value : Bytes → Nat
  | [] => 0
  | b :: r => b.toNat + 256 * value r

theorem value_lt (b : Bytes) : value b < Nat.pow 256 b.length := by
  induction b with
  | nil => exact Nat.one_pos
  | cons b r ih =>
    have hb := b.toNat_lt
    have h : Nat.pow 256 (b :: r).length = Nat.pow 256 r.length * 256 := rfl
    rw [h, value]
    omega

@[simp] theorem value_digits (n v : Nat) : value (digits n v) = v % Nat.pow 256 n := by
  induction n generalizing v with
  | zero => exact (Nat.mod_one v).symm
  | succ n ih =>
    simp only [digits, value, ih, UInt8.toNat_ofNat']
    have h : Nat.pow 256 (n + 1) = 256 * Nat.pow 256 n := Nat.mul_comm _ _
    rw [h, Nat.mod_mul]

theorem digits_value (b : Bytes) : digits b.length (value b) = b := by
  induction b with
  | nil => rfl
  | cons b r ih =>
    have hb := b.toNat_lt
    have h1 : (b.toNat + 256 * value r) / 256 = value r := by omega
    have h2 : UInt8.ofNat (b.toNat + 256 * value r) = b := by
      apply UInt8.toNat_inj.mp; rw [UInt8.toNat_ofNat']; omega
    simp only [List.length_cons, value, digits, h1, h2, ih]

/-- A number as a block of `n` bytes; what does not fit is cut off at the high end. -/
def block (n v : Nat) : Octets n := ⟨digits n v, length_digits n v⟩
@[simp] theorem toList_block (n v : Nat) : (block n v).toList = digits n v := rfl

def word16 (w : UInt16) : Bytes := digits 2 w.toNat
def word32 (w : UInt32) : Bytes := digits 4 w.toNat
def word64 (w : UInt64) : Bytes := digits 8 w.toNat

@[simp] theorem length_word16 (w : UInt16) : (word16 w).length = 2 := by simp [word16]
@[simp] theorem length_word32 (w : UInt32) : (word32 w).length = 4 := by simp [word32]
@[simp] theorem length_word64 (w : UInt64) : (word64 w).length = 8 := by simp [word64]

def toWord16 (b : Bytes) : UInt16 := UInt16.ofNat (value b)
def toWord32 (b : Bytes) : UInt32 := UInt32.ofNat (value b)

@[simp] theorem toWord16_word16 (w : UInt16) : toWord16 (word16 w) = w := by
  apply UInt16.toNat_inj.mp
  have := w.toNat_lt
  simp [toWord16, word16]
@[simp] theorem toWord32_word32 (w : UInt32) : toWord32 (word32 w) = w := by
  apply UInt32.toNat_inj.mp
  have := w.toNat_lt
  simp [toWord32, word32]

theorem word16_toWord16 {b : Bytes} (h : b.length = 2) : word16 (toWord16 b) = b := by
  have hv := value_lt b
  rw [h] at hv
  have : (toWord16 b).toNat = value b := by
    simp only [toWord16, UInt16.toNat_ofNat']; exact Nat.mod_eq_of_lt hv
  rw [word16, this, ← h, digits_value]
theorem word32_toWord32 {b : Bytes} (h : b.length = 4) : word32 (toWord32 b) = b := by
  have hv := value_lt b
  rw [h] at hv
  have : (toWord32 b).toNat = value b := by
    simp only [toWord32, UInt32.toNat_ofNat']; exact Nat.mod_eq_of_lt hv
  rw [word32, this, ← h, digits_value]

end RealmLogon.LittleEndian
