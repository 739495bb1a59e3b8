import RealmLogon.Cipher.ChaCha20
import RealmLogon.Cipher.Poly1305

/-! Sealed secrets: nonce, ciphertext and tag in one byte string. Opening checks the tag before it
decrypts, so a blob that was changed, or sealed under another key, is refused. -/

namespace RealmLogon.Sealed

abbrev MasterKey := Octets 32

inductive Error where
  | encryption
  | decryption
  | tooShort (length : Nat)
  deriving DecidableEq, Repr

def Error.message : Error → String
  | .encryption => "Encryption failed"
  | .decryption => "Decryption failed (invalid auth tag or corrupted data)"
  | .tooShort n => s!"Sealed secret too short ({n} bytes)"

def nonceSize : Nat := 12
def tagSize : Nat := 16

/-- Zeros up to a multiple of 16 bytes. -/
def padding (n : Nat) : Bytes := List.replicate ((16 - n % 16) % 16) 0

/-- The tag of a ciphertext: its key is the first block of the key stream, and the lengths of the
(empty) associated data and of the ciphertext are part of what it covers. -/
def tag (key : MasterKey) (nonce : Octets 12) (ciphertext : Bytes) : Octets 16 :=
  Poly1305.tag ((ChaCha20.block key nonce 0).take 32)
    (ciphertext ++ padding ciphertext.length ++ LittleEndian.digits 8 0 ++
      LittleEndian.digits 8 ciphertext.length)

/-- The block counter has 32 bits, and block 0 makes the tag. -/
def fits (m : Bytes) : Bool := m.length / 64 < 0xFFFFFFFF

def sealSecret (plaintext : Bytes) (key : MasterKey) (nonce : Octets 12) : Except Error Bytes :=
  if fits plaintext then
    let ciphertext := ChaCha20.crypt key nonce 1 plaintext
    .ok (nonce.toList ++ ciphertext ++ (tag key nonce ciphertext).toList)
  else .error .encryption

def openSecret (blob : Bytes) (key : MasterKey) : Except Error Bytes :=
  if h : blob.length < nonceSize + tagSize then .error (.tooShort blob.length)
  else
    let nonce : Octets 12 := ⟨blob.take 12, by simp [nonceSize, tagSize] at h ⊢; omega⟩
    let ciphertext := (blob.drop 12).take (blob.length - 28)
    let received := blob.drop (blob.length - 16)
    if fits ciphertext && (tag key nonce ciphertext).toList == received then
      .ok (ChaCha20.crypt key nonce 1 ciphertext)
    else .error .decryption

end RealmLogon.Sealed
