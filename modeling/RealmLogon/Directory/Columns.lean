import RealmLogon.Directory.Realms

/-! Rows by the names of their columns: how single rows get into the tables, and what stands in them. -/

namespace RealmLogon

abbrev Columns := List (String × Cell)

namespace Columns

def number {α : Type} (c : Columns) (t : Numbered α) : Option Int :=
  match ((c.lookup "id").getD .null).asInteger with
  | .null => Store.nextNumber t
  | .integer n => some n
  | _ => none

/-- A column that prefers integers and must not be empty. -/
def integer (c : Columns) (name : String) (default : Option Int) : Option Cell :=
  match c.lookup name with
  | none => default.map .integer
  | some v => v.asInteger.present

def text (c : Columns) (name : String) (default : Option String) : Option String :=
  match c.lookup name with
  | none => default
  | some v => v.toText?

/-- A column without preference that must not be empty. -/
def present (c : Columns) (name : String) : Option Cell := (c.lookup name).bind Cell.present

def account (c : Columns) (t : Numbered AccountRow) : Option AccountRow := do
  return {
    id := ← c.number t
    username := ← c.text "username" none
    salt := ← c.present "salt"
    verifier := ← c.present "verifier"
    sessionKey := (c.lookup "session_key").getD .null
    totpSecret := (c.lookup "totp_secret").getD .null
    locked := ← c.integer "locked" (some 0)
    lockCountry := ← c.text "lock_country" (some "00")
    lastIp := ← c.text "last_ip" (some "127.0.0.1")
    failedLogins := ← c.integer "failed_logins" (some 0)
    security := ← c.integer "security_level" (some 0)
    locale := ← c.integer "locale" (some 0)
    os := ← c.text "os" (some "")
    timezoneOffset := ← c.integer "timezone_offset" (some 0)
    lastLogin := ((c.lookup "last_login").getD .null).asInteger }

def accountBan (c : Columns) : Option AccountBan := do
  return ⟨← c.integer "id" none, ← c.integer "bandate" none, ← c.integer "unbandate" none,
    ← c.text "bannedby" none, ← c.text "banreason" none, ← c.integer "active" (some 1)⟩

def ipBan (c : Columns) : Option IpBan := do
  return ⟨← c.text "ip" none, ← c.integer "bandate" none, ← c.integer "unbandate" none,
    ← c.text "bannedby" none, ← c.text "banreason" none⟩

def realm (c : Columns) (t : Numbered RealmRow) : Option RealmRow := do
  return {
    id := ← c.number t
    name := ← c.text "name" none
    address := ← c.text "address" (some "127.0.0.1")
    localAddress := ← c.text "local_address" (some "127.0.0.1")
    mask := ← c.text "local_subnet_mask" (some "255.255.255.0")
    port := ← c.integer "port" (some 8085)
    icon := ← c.integer "icon" (some 0)
    flag := ← c.integer "flag" (some 2)
    timezone := ← c.integer "timezone" (some 0)
    security := ← c.integer "allowed_security_level" (some 0)
    population := ← ((c.lookup "population").getD (.real .zero)).asReal.present
    build := ← c.integer "gamebuild" (some 12340) }

def characters (c : Columns) : Option CharactersRow := do
  return ⟨← c.integer "realmid" none, ← c.integer "acctid" none, ← c.integer "numchars" (some 0)⟩

end Columns

def Store.insert (s : Store) (table : String) (c : Columns) : Option Store :=
  match table with
  | "account" => do s.addAccount (← c.account s.accounts)
  | "account_banned" => do s.addAccountBan (← c.accountBan)
  | "ip_banned" => do s.addIpBan (← c.ipBan)
  | "realmlist" => do s.addRealmRow (← c.realm s.realms)
  | "realmcharacters" => do s.addCharacters (← c.characters)
  | _ => none

def AccountRow.columns (r : AccountRow) : Columns :=
  [("id", .integer r.id), ("username", .text r.username), ("salt", r.salt), ("verifier", r.verifier),
    ("session_key", r.sessionKey), ("totp_secret", r.totpSecret), ("locked", r.locked),
    ("lock_country", .text r.lockCountry), ("last_ip", .text r.lastIp), ("failed_logins", r.failedLogins),
    ("security_level", r.security), ("locale", r.locale), ("os", .text r.os),
    ("timezone_offset", r.timezoneOffset), ("last_login", r.lastLogin)]

def AccountBan.columns (b : AccountBan) : Columns :=
  [("id", b.account), ("bandate", b.start), ("unbandate", b.finish), ("bannedby", .text b.author),
    ("banreason", .text b.reason), ("active", b.active)]

def IpBan.columns (b : IpBan) : Columns :=
  [("ip", .text b.ip), ("bandate", b.start), ("unbandate", b.finish), ("bannedby", .text b.author),
    ("banreason", .text b.reason)]

def RealmRow.columns (r : RealmRow) : Columns :=
  [("id", .integer r.id), ("name", .text r.name), ("address", .text r.address),
    ("local_address", .text r.localAddress), ("local_subnet_mask", .text r.mask), ("port", r.port),
    ("icon", r.icon), ("flag", r.flag), ("timezone", r.timezone), ("allowed_security_level", r.security),
    ("population", r.population), ("gamebuild", r.build)]

def CharactersRow.columns (r : CharactersRow) : Columns :=
  [("realmid", r.realm), ("acctid", r.account), ("numchars", r.count)]

/-- The order of values: nothing, numbers, texts, blobs. -/
def Cell.atMost : Cell → Cell → Bool
  | .null, _ => true
  | _, .null => false
  | .integer m, .integer n => m ≤ n
  | .integer m, .real d => m * Double.unit ≤ d.scaled
  | .real d, .integer n => d.scaled ≤ n * Double.unit
  | .real d, .real e => d.scaled ≤ e.scaled
  | .integer _, _ | .real _, _ => true
  | _, .integer _ | _, .real _ => false
  | .text s, .text t => byteOrder s t
  | .text _, .blob _ => true
  | .blob _, .text _ => false
  | .blob a, .blob b => a ≤ b

def byTwo {α : Type} (first second : α → Cell) (a b : α) : Bool :=
  if first a = first b then (second a).atMost (second b) else (first a).atMost (first b)

/-- All tables that have rows, each with its rows by number or by key. -/
def Store.tables (s : Store) : List (String × List Columns) :=
  let all : List (String × List Columns) := [
    ("account", (s.accounts.rows.mergeSort fun a b => a.id ≤ b.id).map (·.columns)),
    ("account_banned", (s.accountBans.mergeSort (byTwo (·.account) (·.start))).map (·.columns)),
    ("ip_banned", (s.ipBans.mergeSort (byTwo (fun b => .text b.ip) (·.start))).map (·.columns)),
    ("realmlist", (s.realms.rows.mergeSort fun a b => a.id ≤ b.id).map (·.columns)),
    ("realmcharacters", (s.characters.mergeSort (byTwo (·.realm) (·.account))).map (·.columns))]
  all.filter fun t => !t.2.isEmpty

end RealmLogon
