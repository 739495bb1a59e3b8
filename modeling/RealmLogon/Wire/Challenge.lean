import RealmLogon.Exchange.Group
import RealmLogon.Wire.Reader
import RealmLogon.Wire.Tag

/-! The challenge that opens a logon or a reconnect, and the replies to it. -/

namespace RealmLogon

open LittleEndian Exchange

structure Challenge where
  command : Command
  error : UInt8
  gameName : Octets 4
  version : Octets 3
  build : UInt16
  platform : Octets 4
  os : Octets 4
  country : Octets 4
  timezoneBias : UInt32
  ip : Octets 4
  login : String
  deriving DecidableEq

namespace Challenge

/-- Bytes up to and including the length of the login. -/
def headerSize : Nat := 34

def maxLogin : Nat := 16

def maxSize : Nat := headerSize + maxLogin

/-- Bytes of the header that the declared size counts. -/
def sizedHeader : Nat := headerSize - 4

def encode (c : Challenge) : Bytes :=
  let login := Bytes.ofString c.login
  [c.command.code, c.error] ++ digits 2 (sizedHeader + login.length) ++ c.gameName.toList ++
    c.version.toList ++ word16 c.build ++ c.platform.toList ++ c.os.toList ++ c.country.toList ++
    word32 c.timezoneBias ++ c.ip.toList ++ UInt8.ofNat login.length :: login

/-- The opening commands; any other opcode is reported against the first of them. -/
def opening (code : UInt8) : Reader Command :=
  match Command.ofCode? code with
  | some .logonChallenge => return .logonChallenge
  | some .reconnectChallenge => return .reconnectChallenge
  | _ => Reader.fail (.unexpectedOpcode Command.logonChallenge.code code)

/-- The declared size must count the login exactly, and the login must not be too long. -/
def checkSize (declared : UInt16) (loginLength : Nat) : Reader Unit :=
  if declared.toNat ≠ sizedHeader + loginLength then Reader.fail (.sizeMismatch declared.toNat loginLength)
  else if maxLogin < loginLength then Reader.fail (.challengeTooLarge maxSize (headerSize + loginLength))
  else return ()

def read : Reader Challenge := do
  Reader.ensure headerSize
  let command ← opening (← Reader.byte)
  let error ← Reader.byte
  let declared ← Reader.word16
  let gameName ← Reader.field 4
  let version ← Reader.field 3
  let build ← Reader.word16
  let platform ← Reader.field 4
  let os ← Reader.field 4
  let country ← Reader.field 4
  let timezoneBias ← Reader.word32
  let ip ← Reader.field 4
  let loginLength := (← Reader.byte).toNat
  checkSize declared loginLength
  let login ← Reader.text loginLength .invalidLogin
  return ⟨command, error, gameName, version, build, platform, os, country, timezoneBias, ip, login⟩

def decode : Bytes → Except WireError Challenge := Reader.decode read

def platformName (c : Challenge) : String := Tag.name c.platform
def osName (c : Challenge) : String := Tag.name c.os
def localeName (c : Challenge) : String := Tag.name c.country

end Challenge

/-- A refusal of a challenge. The reply to a logon challenge has one more byte. -/
def challengeFailure (c : Command) (v : Verdict) : Bytes :=
  if c = .logonChallenge then [c.code, 0, v.code] else [c.code, v.code]

structure ChallengeOffer where
  serverKey : Key
  generator : UInt8
  prime : Octets 32
  salt : Salt
  versionChallenge : Octets 16
  securityFlags : UInt8
  deriving DecidableEq

inductive ChallengeReply where
  | offer (o : ChallengeOffer)
  | failure (v : Verdict)
  deriving DecidableEq

namespace ChallengeReply

/-- The authenticator is the only extra that is ever asked for. -/
def encode : ChallengeReply → Bytes
  | .failure v => challengeFailure .logonChallenge v
  | .offer o =>
    let flags := o.securityFlags &&& SecurityFlag.authenticator
    [Command.logonChallenge.code, 0, Verdict.success.code] ++ o.serverKey.toList ++ [1, o.generator, 32] ++
      o.prime.toList ++ o.salt.toList ++ o.versionChallenge.toList ++ [flags] ++
      (if flags = 0 then [] else [1])

/-- The bytes that belong to a security flag, if it is set. -/
def skipExtra (flags flag : UInt8) (size : Nat) : Reader Unit :=
  if flags &&& flag = 0 then return () else do Reader.ensure size; Reader.skip size

def readOffer : Reader ChallengeOffer := do
  let serverKey ← Reader.field 32
  Reader.ensure 3
  Reader.skip 1
  let generator ← Reader.byte
  let primeLength := (← Reader.byte).toNat
  if primeLength ≠ 32 then Reader.fail (.invalidLength "large safe prime" 32 primeLength)
  let prime ← Reader.field 32
  let salt ← Reader.field 32
  let versionChallenge ← Reader.field 16
  Reader.ensure 1
  let flags ← Reader.byte
  skipExtra flags SecurityFlag.pin 20
  skipExtra flags SecurityFlag.matrix 12
  skipExtra flags SecurityFlag.authenticator 1
  return ⟨serverKey, generator, prime, salt, versionChallenge, flags⟩

def read : Reader ChallengeReply := do
  Reader.command .logonChallenge
  Reader.ensure 2
  Reader.skip 1
  let v ← Reader.verdict
  if v = .success then return .offer (← readOffer) else return .failure v

def decode : Bytes → Except WireError ChallengeReply := Reader.decode read

end ChallengeReply

end RealmLogon
