/-! The rules that every logon session follows. Times are in seconds. -/

namespace RealmLogon

inductive BanScope where
  | account
  | ip
  deriving DecidableEq, Repr

structure Policy where
  /-- Clients must prove their executable, if its hash is known. -/
  strictVersionCheck : Bool
  /-- Wrong passwords in a row that cause a ban; zero for none. -/
  maxWrongPasswords : Nat
  banTime : Nat
  banScope : BanScope
  /-- How long a session may idle before and after the logon. -/
  shortTimeout : Nat
  longTimeout : Nat
  deriving DecidableEq

end RealmLogon
