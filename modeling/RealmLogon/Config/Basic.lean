import RealmLogon.Build.Table
import RealmLogon.Cipher.Sealed
import RealmLogon.Config.Policy

/-! The configuration of a service, the conditions that it must meet, and what follows from it. -/

namespace RealmLogon

structure Config where
  bindAddress : String
  bindPort : UInt16
  maxConnections : Nat
  databasePath : String
  strictVersionCheck : Bool
  masterKey : Option String
  maxWrongPasswords : Nat
  banTime : Nat
  banScope : BanScope
  shortTimeout : Nat
  longTimeout : Nat
  refreshInterval : Nat
  builds : BuildListing
  geoIpPath : Option String
  logLevel : String
  deriving DecidableEq

inductive ConfigError where
  /-- The file cannot be read. -/
  | unreadable (reason : String)
  /-- The text is no document, or lacks a setting, or has one of the wrong type. -/
  | unparsed
  | rangeOrder
  | rangesOverlap
  | masterKey (cause : Hex.Error)
  | banTime
  | timeouts
  | refreshInterval
  | executableHash (e : BuildError)
  deriving DecidableEq

namespace ConfigError

def causes : ConfigError → List String
  | unreadable reason => ["Failed to read config file", reason]
  | unparsed => ["Failed to parse config file", "TOML parse error"]
  | rangeOrder => ["build ranges must be given as [min, max]"]
  | rangesOverlap => ["pre_expansion and post_expansion build ranges overlap"]
  | masterKey cause => ["totp_master_key must be exactly 64 hex characters (32 bytes)", cause.message]
  | banTime => ["wrong_pass_ban_time_sec must be positive when lockout is enabled"]
  | timeouts => ["timeouts must be positive"]
  | refreshInterval => ["realms.refresh_interval_sec must be positive"]
  | executableHash e => [s!"build {e.build.toNat} has an invalid executable hash", e.cause.message]

end ConfigError

namespace Config

def require (condition : Bool) (e : ConfigError) : Except ConfigError Unit :=
  if condition then .ok () else .error e

def checkMasterKey (text : Option String) : Except ConfigError Unit :=
  match text with
  | none => .ok ()
  | some t => (Hex.parse 32 t).mapError .masterKey |>.map fun _ => ()

def checkHash (build : UInt16) (text : String) : Except ConfigError Unit :=
  (Hex.parse 20 text).mapError (fun e => .executableHash ⟨build, e⟩) |>.map fun _ => ()

def checkHashes (builds : List ListedBuild) : Except ConfigError Unit :=
  builds.forM fun b => (b.winHash.toList ++ b.macHash.toList).forM (checkHash b.build)

/-- The conditions, in the order in which they are reported. -/
def validate (c : Config) : Except ConfigError Unit := do
  let pre := c.builds.pre
  let post := c.builds.post
  require (!pre.isEmpty && !post.isEmpty) .rangeOrder
  require (!pre.overlaps post) .rangesOverlap
  checkMasterKey c.masterKey
  require (c.maxWrongPasswords == 0 || c.banTime != 0) .banTime
  require (c.shortTimeout != 0 && c.longTimeout != 0) .timeouts
  require (c.refreshInterval != 0) .refreshInterval
  checkHashes c.builds.builds

def policy (c : Config) : Policy where
  strictVersionCheck := c.strictVersionCheck
  maxWrongPasswords := c.maxWrongPasswords
  banTime := c.banTime
  banScope := c.banScope
  shortTimeout := c.shortTimeout
  longTimeout := c.longTimeout

def sealingKey (c : Config) : Except Hex.Error (Option Sealed.MasterKey) :=
  match c.masterKey with
  | none => .ok none
  | some t => (Hex.parse 32 t).map some

end Config

end RealmLogon
