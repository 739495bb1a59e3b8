import RealmLogon.Cipher.Sealed
import RealmLogon.Entropy
import RealmLogon.Text.Hex

/-! Authenticator secrets as they are stored: sealed if there is a master key, and else as they are. -/

namespace RealmLogon.StoredSecret

inductive Error where
  | text (e : Hex.Error)
  | sealing (e : Sealed.Error)
  deriving DecidableEq

def Error.causes : Error → List String
  | text e => ["Invalid authenticator secret", e.message]
  | sealing e => ["Failed to seal authenticator secret", e.message]

/-- The stored form of a secret, which is given in hexadecimal. Only sealing draws, namely a nonce. -/
def prepare (text : String) (key : Option Sealed.MasterKey) (e : Entropy) : Except Error Bytes × Entropy :=
  match Hex.decode text, key with
  | .error x, _ => (.error (.text x), e)
  | .ok secret, none => (.ok secret, e)
  | .ok secret, some k => ((Sealed.sealSecret secret k (e.peek 12)).mapError .sealing, e.skip 12)

def reveal (key : Option Sealed.MasterKey) (stored : Bytes) : Except Sealed.Error Bytes :=
  match key with
  | some k => Sealed.openSecret stored k
  | none => .ok stored

end RealmLogon.StoredSecret
