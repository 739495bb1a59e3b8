import RealmLogon.Directory.Realms

/-! The calls that a service makes to its directory. -/

namespace RealmLogon.Directory

inductive Call where
  | isIpBanned (ip : Address)
  | fetchByLogin (login : String)
  | persistLogon (record : LogonRecord)
  | recordFailedLogin (login : String)
  | autoBan (target : BanTarget) (seconds : Nat)
  | countsByAccount (account : UInt32)
  | listRealms
  deriving DecidableEq

def Call.Answer : Call → Type
  | .isIpBanned _ => Bool
  | .fetchByLogin _ => Option Account
  | .persistLogon _ => Unit
  | .recordFailedLogin _ => UInt32
  | .autoBan .. => Unit
  | .countsByAccount _ => CharacterCounts
  | .listRealms => List Realm

/-- The outcome of a call at a time, and the store after it. -/
def Call.perform (c : Call) (s : Store) (now : Int) : Written c.Answer :=
  match c with
  | .isIpBanned ip => (.ok (s.isIpBanned now ip), s)
  | .fetchByLogin login => (s.fetchByLogin now login, s)
  | .persistLogon record => (.ok (), s.persistLogon now record)
  | .recordFailedLogin login => s.recordFailedLogin login
  | .autoBan target seconds => s.autoBan now target seconds
  | .countsByAccount account => (s.countsByAccount account, s)
  | .listRealms => (s.listRealms, s)

end RealmLogon.Directory
