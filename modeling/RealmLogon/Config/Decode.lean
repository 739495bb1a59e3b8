import RealmLogon.Config.Basic
import RealmLogon.Toml.Document

/-! Configurations out of documents. Each section is a table, or a list of its settings in their fixed
order; settings that are not known are ignored. -/

namespace RealmLogon

open Toml

inductive Section where
  | named (fields : Fields)
  | listed (items : List Value)

namespace Section

/-- A moment in time counts as a section without settings. -/
def of? : Value → Option Section
  | .table _ fields => some (named fields)
  | .moment => some (named [])
  | .array items => some (listed items)
  | .tables items => some (listed (items.map (.table .header)))
  | _ => none

def get? (s : Section) (place : Nat) (name : String) : Option Value :=
  match s with
  | named fields => fields.get? name
  | listed items => items[place]?

def required {α : Type} (s : Section) (place : Nat) (name : String) (read : Value → Option α) : Option α :=
  (s.get? place name).bind read

def defaulted {α : Type} (s : Section) (place : Nat) (name : String) (read : Value → Option α)
    (default : α) : Option α :=
  match s.get? place name with
  | none => some default
  | some v => read v

/-- A setting that may be missing in a table, but not in a list. -/
def optional {α : Type} (s : Section) (place : Nat) (name : String) (read : Value → Option α) :
    Option (Option α) :=
  match s, s.get? place name with
  | named _, none => some none
  | listed _, none => none
  | _, some v => (read v).map some

end Section

namespace Config

def string : Value → Option String
  | .string s => some s
  | _ => none

def boolean : Value → Option Bool
  | .boolean b => some b
  | _ => none

def natural (bound : Nat) : Value → Option Nat
  | .integer n => if 0 ≤ n ∧ n < bound then some n.toNat else none
  | _ => none

def byte (v : Value) : Option UInt8 := (natural UInt8.size v).map UInt8.ofNat
def word (v : Value) : Option UInt16 := (natural UInt16.size v).map UInt16.ofNat
def count : Value → Option Nat := natural UInt32.size
/-- Integers of a document have 64 bits with a sign. -/
def long : Value → Option Nat := natural 0x8000000000000000

def isNothing : Value → Bool
  | .table _ [] | .array [] => true
  | _ => false

def scopeNamed (name : String) : Option BanScope :=
  if name = "account" then some .account else if name = "ip" then some .ip else none

/-- A scope is named by a text, or by the only key of a table, with nothing under it. -/
def scope : Value → Option BanScope
  | .string s => scopeNamed s
  | .table _ [(name, v)] => if isNothing v then scopeNamed name else none
  | _ => none

/-- The first two numbers of a list. -/
def range : Value → Option BuildRange
  | .array (first :: last :: _) => do return ⟨← word first, ← word last⟩
  | _ => none

def listedBuild (v : Value) : Option ListedBuild := do
  let s ← Section.of? v
  return {
    build := ← s.required 0 "build" word
    major := ← s.required 1 "major" byte
    minor := ← s.required 2 "minor" byte
    bugfix := ← s.required 3 "bugfix" byte
    hotfix := ← s.defaulted 4 "hotfix" string ""
    winHash := ← s.optional 5 "win_hash" string
    macHash := ← s.optional 6 "mac_hash" string }

def listedBuilds : Value → Option (List ListedBuild)
  | .array items => items.mapM listedBuild
  | .tables items => items.mapM fun f => listedBuild (.table .header f)
  | _ => none

def buildListing (s : Section) : Option BuildListing := do
  return {
    pre := ← s.required 0 "pre_expansion" range
    post := ← s.required 1 "post_expansion" range
    builds := ← s.defaulted 2 "info" listedBuilds [] }

/-- A configuration from the sections of a document; four of them must be there. -/
def ofFields (fields : Fields) : Option Config := do
  let top := Section.named fields
  let empty := Section.named []
  let general ← top.required 0 "general" Section.of?
  let database ← top.required 1 "database" Section.of?
  let security ← top.defaulted 2 "security" Section.of? empty
  let timeouts ← top.defaulted 3 "timeouts" Section.of? empty
  let realms ← top.defaulted 4 "realms" Section.of? empty
  let listing ← top.required 5 "builds" Section.of?
  let geoip ← top.defaulted 6 "geoip" Section.of? empty
  let logging ← top.defaulted 7 "logging" Section.of? empty
  return {
    bindAddress := ← general.required 0 "bind_address" string
    bindPort := ← general.defaulted 1 "bind_port" word 3724
    maxConnections := ← general.defaulted 2 "max_connections" long 1024
    databasePath := ← database.required 0 "path" string
    strictVersionCheck := ← security.defaulted 0 "strict_version_check" boolean false
    masterKey := ← security.defaulted 1 "totp_master_key" (fun v => (string v).map some) none
    maxWrongPasswords := ← security.defaulted 2 "wrong_pass_max_count" count 0
    banTime := ← security.defaulted 3 "wrong_pass_ban_time_sec" long 600
    banScope := ← security.defaulted 4 "wrong_pass_ban_type" scope .account
    shortTimeout := ← timeouts.defaulted 0 "short_sec" long 10
    longTimeout := ← timeouts.defaulted 1 "long_sec" long 60
    refreshInterval := ← realms.defaulted 0 "refresh_interval_sec" long 20
    builds := ← buildListing listing
    geoIpPath := ← geoip.optional 0 "csv_path" string
    logLevel := ← logging.defaulted 0 "level" string "info" }

def parse (text : String) : Except ConfigError Config := do
  let c ← match (Toml.parse text).bind ofFields with
    | some c => .ok c
    | none => .error .unparsed
  c.validate
  return c

end Config

end RealmLogon
