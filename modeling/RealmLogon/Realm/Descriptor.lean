import RealmLogon.Net.Address
import RealmLogon.Number.Real

/-! A realm, and the address at which a client reaches it. -/

namespace RealmLogon

structure Realm where
  id : UInt32
  name : String
  external : Address
  localAddress : Address
  mask : Address
  port : UInt16
  kind : UInt8
  flags : UInt8
  timezone : UInt8
  /-- Clients below this level find the realm locked. -/
  security : UInt8
  population : Single
  build : UInt16
  deriving DecidableEq

/-- A client on the same machine keeps its own address if the realm is there too; a client on the
realm's network gets the local address, any other the external one. -/
def Realm.hostFor (r : Realm) (client : Address) : Address :=
  if client.isLoopback then
    if r.localAddress.isLoopback || r.external.isLoopback then client else r.localAddress
  else if Address.agree r.mask r.localAddress client then r.localAddress
  else r.external

def Realm.endpointFor (r : Realm) (client : Address) : Endpoint := ⟨r.hostFor client, r.port⟩

end RealmLogon
