/-! Byte strings. `Bytes` has any length; `Octets n` has exactly `n` bytes, so that a salt, a key or
a digest is of the right length by its type. -/

namespace RealmLogon

abbrev Bytes := List UInt8

/-- A byte string of exactly `n` bytes. -/
@[ext] structure Octets (n : Nat) where
  toList : Bytes
  length_toList : toList.length = n
  deriving DecidableEq

namespace Octets

attribute [simp] length_toList

def replicate (n : Nat) (b : UInt8) : Octets n := ⟨List.replicate n b, List.length_replicate⟩
@[simp] theorem toList_replicate (n : Nat) (b : UInt8) :
    (replicate n b).toList = List.replicate n b := rfl

def zero (n : Nat) : Octets n := replicate n 0

instance (n : Nat) : Inhabited (Octets n) := ⟨zero n⟩

def ofFn {n : Nat} (f : Fin n → UInt8) : Octets n := ⟨List.ofFn f, List.length_ofFn⟩
@[simp] theorem toList_ofFn {n : Nat} (f : Fin n → UInt8) : (ofFn f).toList = List.ofFn f := rfl

def ofList? (n : Nat) (b : Bytes) : Option (Octets n) := if h : b.length = n then some ⟨b, h⟩ else none
@[simp] theorem ofList?_toList {n : Nat} (b : Octets n) : ofList? n b.toList = some b := by
  simp [ofList?]

def get {n : Nat} (b : Octets n) (i : Fin n) : UInt8 :=
  b.toList.get ⟨i.val, by simp⟩

def append {m n : Nat} (a : Octets m) (b : Octets n) : Octets (m + n) :=
  ⟨a.toList ++ b.toList, by simp⟩
@[simp] theorem toList_append {m n : Nat} (a : Octets m) (b : Octets n) :
    (append a b).toList = a.toList ++ b.toList := rfl

def xor {n : Nat} (a b : Octets n) : Octets n :=
  ⟨List.zipWith (· ^^^ ·) a.toList b.toList, by simp⟩

end Octets

namespace Bytes

/-- The UTF-8 bytes of a text. -/
def ofString (s : String) : Bytes := s.toByteArray.data.toList

/-- The text that the bytes spell in UTF-8, if they do. -/
def toString? (b : Bytes) : Option String := String.fromUTF8? ⟨b.toArray⟩

@[simp] theorem toString?_ofString (s : String) : toString? (ofString s) = some s := by
  have h : (⟨(ofString s).toArray⟩ : ByteArray) = s.toByteArray := by simp [ofString]
  simp only [toString?, String.fromUTF8?, h]
  rw [dif_pos s.isValidUTF8]; rfl

theorem ofString_injective {s t : String} (h : ofString s = ofString t) : s = t := by
  have hs := toString?_ofString s
  rw [h, toString?_ofString t] at hs
  exact (Option.some.inj hs).symm

theorem ofString_of_toString? {b : Bytes} {s : String} (h : toString? b = some s) :
    ofString s = b := by
  simp only [toString?, String.fromUTF8?] at h
  split at h
  · simp only [Option.some.injEq] at h; subst h; simp [ofString, String.fromUTF8]
  · simp at h

end Bytes

end RealmLogon
