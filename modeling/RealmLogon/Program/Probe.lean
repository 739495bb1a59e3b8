import RealmLogon.CommandLine.Probe
import RealmLogon.Probe.Talk
import RealmLogon.Program.Ending

/-! The probe as a program: it logs on, prints the realm list, and perhaps does so again on a second
connection with the session key of the first. -/

namespace RealmLogon

open Exchange Text

abbrev Dial (σ : Type) := String → σ → Except String σ

namespace ProbeCommand

inductive VersionError where
  | noDigits
  | noDigit
  | tooLarge
  /-- There are not three parts. -/
  | parts
  deriving DecidableEq, Repr

def VersionError.causes (version : String) : VersionError → List String
  | noDigits => [s!"Invalid client version '{version}'", "cannot parse integer from empty string"]
  | noDigit => [s!"Invalid client version '{version}'", "invalid digit found in string"]
  | tooLarge => [s!"Invalid client version '{version}'", "number too large to fit in target type"]
  | parts => [s!"Client version must be major.minor.bugfix, got '{version}'"]

def digits (n : Nat) : List Char → Except VersionError Nat
  | [] => .ok n
  | c :: rest =>
    match Numeral.digit? c with
    | some d => if 10 ≤ d then .error .noDigit else if 256 ≤ 10 * n + d then .error .tooLarge else digits (10 * n + d) rest
    | none => .error .noDigit

/-- A byte in decimal, perhaps after a plus sign. -/
def versionPart : List Char → Except VersionError UInt8
  | [] => .error .noDigits
  | ['+'] => .error .noDigit
  | '+' :: cs => (digits 0 cs).map UInt8.ofNat
  | cs => (digits 0 cs).map UInt8.ofNat

def parseVersion (text : String) : Except VersionError (Octets 3) := do
  match ← (pieces '.' text.toList).mapM versionPart with
  | [a, b, c] => return ⟨[a, b, c], rfl⟩
  | _ => throw .parts

def identity (c : ProbeCommand) : Except (List String) Identity := do
  let version ← (parseVersion c.version).mapError (VersionError.causes c.version)
  let hash ← (c.executableHash.mapM (Hex.parse 20)).mapError fun e => ["Invalid executable hash", e.message]
  return {
    login := c.login
    build := c.build
    version := version
    platform := "x86"
    os := c.os
    locale := c.locale
    expansion := if c.preExpansion then .pre else .post
    executableHash := hash }

def tokenSource (c : ProbeCommand) : Except (List String) TokenSource :=
  match c.totpSecret, c.token with
  | some text, _ => (Hex.decode text).map .secret |>.mapError fun e => ["Invalid authenticator secret", e.message]
  | none, some text => .ok (.typed text)
  | none, none => .ok .absent

def padded (width : Nat) (text : String) : String :=
  text ++ String.ofList (List.replicate (width - text.length) ' ')

def status (r : RealmEntry) : List String :=
  (if r.flags &&& RealmFlag.offline ≠ 0 then ["offline"] else []) ++ (if r.locked then ["locked"] else [])

def buildText : Option BuildVersion → String
  | none => ""
  | some b => s!" {b.major.toNat}.{b.minor.toNat}.{b.bugfix.toNat} ({b.build.toNat})"

def realmLine (r : RealmEntry) : String :=
  s!"  [{r.id.toNat}] {padded 24 r.name} {padded 21 r.address} pop {r.population.oneDecimal} " ++
    s!"chars {r.characters.toNat}{buildText r.build} " ++ ",".intercalate (status r)

def realmLines (realms : List RealmEntry) : List String :=
  s!"{realms.length} realm(s):" :: realms.map realmLine

variable {σ : Type} [Peer σ]

def server (c : ProbeCommand) : String := s!"{c.host}:{c.port.toNat}"

def talk {α : Type} (c : ProbeCommand) (dial : Dial σ) (t : Talk σ α) (s : σ × World) :
    Except (List String) α × (σ × World) :=
  match dial c.server s.1 with
  | .error reason => (.error [s!"Failed to connect to {c.server}", reason], s)
  | .ok far =>
    let r := t.run (far, s.2)
    (r.1.mapError ProbeError.causes, r.2)

def logon (i : Identity) (password : String) (source : TokenSource) : Talk σ (SessionKey × List RealmEntry) := do
  let key ← Talk.logon i password source
  return (key, ← Talk.realmList i)

def resume (i : Identity) (key : SessionKey) : Talk σ (List RealmEntry) := do
  Talk.reconnect i key
  Talk.realmList i

def perform (c : ProbeCommand) (dial : Dial σ) (s : σ × World) : Ending × (σ × World) :=
  let claims : Except (List String) (Identity × TokenSource) := do return (← c.identity, ← c.tokenSource)
  match claims with
  | .error causes => (.failing causes, s)
  | .ok (i, source) =>
    match c.talk dial (logon i c.password source) s with
    | (.error causes, s) => (.failing causes, s)
    | (.ok (key, realms), s) =>
      if c.reconnect then
        match c.talk dial (resume i key) s with
        | (.error causes, s) => (⟨realmLines realms, .failure causes⟩, s)
        | (.ok again, s) => (.printing (realmLines realms ++ realmLines again), s)
      else (.printing (realmLines realms), s)

def run (dial : Dial σ) (s : σ × World) (words : List String) : Ending × (σ × World) :=
  match parse words with
  | .error stop => (stop.ending, s)
  | .ok c => c.perform dial s

end ProbeCommand

end RealmLogon
