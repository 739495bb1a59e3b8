import RealmLogon.CommandLine.Service
import RealmLogon.Config.Decode
import RealmLogon.Connection.Timeline
import RealmLogon.Program.Ending
import RealmLogon.Program.LogFilter
import RealmLogon.Program.Site

/-! The service as a program: it makes a key, registers accounts and realms, or serves clients. Each
task stops at the first thing that goes wrong, and what was written before stays. -/

namespace RealmLogon

structure Serving where
  config : Config
  /-- The database as it was when it was opened. -/
  database : OpenDatabase
  service : Service
  world : World

namespace Serving

def listensAt (s : Serving) : String := s!"{s.config.bindAddress}:{s.config.bindPort.toNat}"

def deaf (s : Serving) (reason : String) : Ending := .failing [s!"Failed to bind to {s.listensAt}", reason]

def timeline (s : Serving) : Timeline := ⟨s.world, 0, [], some (1000 * s.config.refreshInterval)⟩

/-- A client is taken while fewer connections than the limit are open. The program counts up to `2 ^ 61 - 1` of them and
stops at a higher limit; here no limit is too high. -/
def accept (s : Serving) (t : Timeline) (peer : Endpoint) : Option Timeline :=
  if (t.links.filter (!·.isFinished)).length < s.config.maxConnections then some (t.connect s.service peer none)
  else none

end Serving

namespace ServiceCommand

/-- The causes of a failure, the outermost first. -/
abbrev Failure := List String

def doing {α : Type} (what : String) : Except Failure α → Except Failure α
  | .ok a => .ok a
  | .error causes => .error (what :: causes)

/-- The text of a configuration. A database is no text. -/
def configText (site : Site) (path : String) : Except ConfigError String :=
  match site.read path with
  | .ok (.text text) => .ok text
  | .ok (.database _) => .error (.unreadable "stream did not contain valid UTF-8")
  | .error e => .error (.unreadable e.message)

def startup (site : Site) (path : String) : Except Failure Config := do
  let config ← doing s!"Failed to load configuration from {path}" <| do
    (Config.parse (← (configText site path).mapError ConfigError.causes)).mapError ConfigError.causes
  doing "Invalid log level in configuration" ((LogFilter.check config.logLevel).mapError LogFilter.Error.causes)
  return config

/-- The configuration and its database, which is there from then on. -/
def openSite (site : Site) (path : String) : Except Failure (Config × OpenDatabase) × Site :=
  match startup site path with
  | .error causes => (.error causes, site)
  | .ok config =>
    match site.openDatabase config.databasePath with
    | (some database, site) => (.ok (config, database), site)
    | (none, site) =>
      (.error [s!"Failed to open database {config.databasePath}", DirectoryError.database.message], site)

def sealingKey (config : Config) : Except Failure (Option Sealed.MasterKey) :=
  config.sealingKey.mapError fun e => ["Invalid totp_master_key", e.message]

def writing (site : Site) (database : OpenDatabase) (what : String) (told : UInt32 → String)
    (write : Store → Written UInt32) : Ending × Site :=
  if !database.writable then (.failing [what, DirectoryError.database.message], site)
  else
    match write database.store with
    | (.ok id, store) => (.printing [told id], site.saveDatabase database store)
    | (.error e, store) => (.failing [what, e.message], site.saveDatabase database store)

def prepareSecret (text : Option String) (key : Option Sealed.MasterKey) (e : Entropy) :
    Except StoredSecret.Error (Option Bytes) × Entropy :=
  match text with
  | none => (.ok none, e)
  | some t =>
    let r := StoredSecret.prepare t key e
    (r.1.map some, r.2)

/-- Register an account. Its secret is sealed before its salt is drawn. -/
def createAccount (site : Site) (path : String) (entropy : Entropy) (name password : String)
    (security : UInt8) (totpSecret : Option String) : Ending × Site :=
  match openSite site path with
  | (.error causes, site) => (.failing causes, site)
  | (.ok (config, database), site) =>
    match sealingKey config with
    | .error causes => (.failing causes, site)
    | .ok key =>
      match prepareSecret totpSecret key entropy with
      | (.error e, _) => (.failing e.causes, site)
      | (.ok secret, entropy) =>
        writing site database "Failed to create account"
          (fun id => s!"Created account {Text.Latin.upper name} with id {id.toNat}")
          fun store => store.createAccount (entropy.peek 32) name password security secret

def addRealm (site : Site) (path : String) (realm : Realm) : Ending × Site :=
  match openSite site path with
  | (.error causes, site) => (.failing causes, site)
  | (.ok (_, database), site) =>
    writing site database "Failed to add realm" (fun id => s!"Added realm '{realm.name}' with id {id.toNat}")
      fun store => store.addRealm realm

/-- The file of a database that was there before begins with a record that is no range. That of a new one
has nothing but a head, which is no text. -/
def databaseAsTable (isNew : Bool) : Failure :=
  if isNew then
    [GeoIp.Error.unreadable.message, "CSV parse error: record 0 (line 1, field: 0, byte: 0): invalid utf-8: " ++
      "invalid UTF-8 in field 0 near byte index 99"]
  else [(GeoIp.Error.malformed 1).message]

/-- The countries of addresses, from a file if one is named; the sites are from before and after the
database was opened. -/
def loadGeoIp (before site : Site) : Option String → Except Failure GeoIp
  | none => .ok .empty
  | some path =>
    match site.read path with
    | .ok (.text text) => (GeoIp.load (Bytes.ofString text)).mapError fun e => [e.message]
    | .ok (.database _) => .error (databaseAsTable (before.read path matches .error _))
    | .error .directory => .error [GeoIp.Error.unreadable.message, PathError.directory.message]
    | .error e => .error [s!"Failed to open GeoIP database {path}", e.message]

def ready (before site : Site) (config : Config) (database : OpenDatabase) (clock : Int) (entropy : Entropy) :
    Except Failure Serving := do
  let key ← sealingKey config
  let geoip ← loadGeoIp before site config.geoIpPath
  let builds ← (BuildTable.ofListing config.builds).mapError BuildError.causes
  let world : World := ⟨database.store, clock, entropy, [], fun _ _ => false, []⟩
  return ⟨config, database, ⟨config.policy, builds, geoip, key⟩, world.refresh⟩

def serve (before : Site) (path : String) (clock : Int) (entropy : Entropy) : Except Ending Serving × Site :=
  match openSite before path with
  | (.error causes, site) => (.error (.failing causes), site)
  | (.ok (config, database), site) =>
    ((ready before site config database clock entropy).mapError .failing, site)

/-- A run of the program: it ends, or it serves. -/
def run (site : Site) (clock : Int) (entropy : Entropy) (words : List String) :
    Except Ending Serving × Site :=
  match parse words with
  | .error stop => (.error stop.ending, site)
  | .ok c =>
    let ended (r : Ending × Site) : Except Ending Serving × Site := (.error r.1, r.2)
    match c.task with
    | .generateKey => ended (.printing [Hex.encode (entropy.peek 32).toList], site)
    | .serve => serve site c.configPath clock entropy
    | .createAccount name password security totpSecret =>
      ended (createAccount site c.configPath entropy name password security totpSecret)
    | .addRealm realm => ended (addRealm site c.configPath realm)

end ServiceCommand

end RealmLogon
