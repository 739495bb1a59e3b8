import RealmLogon.Exchange.Group
import RealmLogon.Text.Latin

/-! What an account keeps of its password: a salt and a verifier. -/

namespace RealmLogon.Exchange

open RealmLogon.Text

def privateExponent (login password : String) (salt : Salt) : Nat :=
  let inner := Sha1.hash (Bytes.ofString login ++ 0x3A :: Bytes.ofString password)
  number (Sha1.hash (salt.toList ++ inner.toList))

/-- The verifier of a login and a password, both taken as they are. -/
def verifier (login password : String) (salt : Salt) : Verifier :=
  LittleEndian.block 32 (generatorPow (privateExponent login password salt))

/-- The verifier of a new account: login and password count in upper case. -/
def register (login password : String) (salt : Salt) : Verifier :=
  verifier (Latin.upper login) (Latin.upper password) salt

end RealmLogon.Exchange
