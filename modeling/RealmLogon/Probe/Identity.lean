import RealmLogon.Exchange.Registration
import RealmLogon.Token
import RealmLogon.Wire.Challenge

/-! What a client claims to be when it logs on, and where its authenticator tokens come from. -/

namespace RealmLogon

structure Identity where
  login : String
  build : UInt16
  version : Octets 3
  platform : String
  os : String
  locale : String
  expansion : Expansion
  /-- The digest of the executable that the version proof is made of; without one it is zeros. -/
  executableHash : Option Digest

namespace Identity

def canonicalLogin (i : Identity) : String := Text.Latin.upper i.login

def challenge (i : Identity) (c : Command) : Challenge where
  command := c
  error := 0
  gameName := Tag.ofName "WoW"
  version := i.version
  build := i.build
  platform := Tag.ofName i.platform
  os := Tag.ofName i.os
  country := Tag.ofName i.locale
  timezoneBias := 0
  ip := ⟨[127, 0, 0, 1], rfl⟩
  login := i.canonicalLogin

end Identity

inductive TokenSource where
  | absent
  /-- A text that is sent as it was typed. -/
  | typed (text : String)
  | secret (bytes : Bytes)

/-- The token at a time. Before the beginning of time the first one holds. -/
def TokenSource.current (clock : Int) : TokenSource → Option String
  | absent => none
  | typed text => some text
  | secret bytes => some (Token.typed (Token.generate bytes (clock.toNat / Token.timeStep) Token.typedDigits))

end RealmLogon
