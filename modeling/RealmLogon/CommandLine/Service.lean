import RealmLogon.CommandLine.Scan
import RealmLogon.Realm.Descriptor

/-! The command line of the service: where its configuration is, and what it is to do. -/

namespace RealmLogon

inductive ServiceTask where
  | serve
  | generateKey
  | createAccount (name password : String) (security : UInt8) (totpSecret : Option String)
  /-- The number of the realm is not looked at. -/
  | addRealm (realm : Realm)

structure ServiceCommand where
  configPath : String
  task : ServiceTask

namespace ServiceCommand

open CommandLine

def defaultConfigPath : String := "logon-server.conf"

def tasks : List (String × String) :=
  [("serve", "Accept client connections (default)"),
    ("generate-key", "Print a fresh random totp_master_key"),
    ("create-account", "Register an account in the login database"),
    ("add-realm", "Register a realm in the login database")]

/-- A path must not be empty. -/
def grammar : Grammar where
  name := "logon-server"
  about := "Logon server - SRP6 authentication and realm list"
  version := some "0.1.0"
  switches :=
    [.valued "config" (some 'c') (· ≠ "") s!"Configuration file path [default: {defaultConfigPath}]"]
  places := []
  subcommands := tasks

def taskGrammar (name : String) (switches : List Switch) (places : List String) : Grammar :=
  ⟨s!"{grammar.name} {name}", (tasks.lookup name).getD "", none, switches, places, []⟩

def serveGrammar : Grammar := taskGrammar "serve" [] []

def keyGrammar : Grammar := taskGrammar "generate-key" [] []

def accountGrammar : Grammar := taskGrammar "create-account"
  [.valued "security" (some 's') (isNumber UInt8.size) "Security level (0 = player) [default: 0]",
    .valued "totp-secret" none (fun _ => true) "Authenticator secret as hex"]
  ["NAME", "PASSWORD"]

def accountTask (f : Found) : Except Stop ServiceTask :=
  match f.values with
  | [name, password] => .ok (.createAccount name password (f.byte "security" 0) (f.value? "totp-secret"))
  | _ => .error .misuse

def isAddress (text : String) : Bool := (Address.parse text).isSome

def realmGrammar : Grammar := taskGrammar "add-realm"
  [{ Switch.valued "address" (some 'a') isAddress "Address announced to clients outside the local network" with
      isRequired := true },
    .valued "local-address" none isAddress "Address announced to clients inside the local network",
    .valued "subnet-mask" none isAddress "[default: 255.255.255.0]",
    .valued "port" (some 'p') (isNumber UInt16.size) "[default: 8085]",
    .valued "build" (some 'b') (isNumber UInt16.size) "Client build the realm runs [default: 12340]",
    .valued "realm-type" none (isNumber UInt8.size)
      "Realm type (0 = normal, 1 = PvP, 6 = RP, 8 = RP PvP) [default: 0]",
    .valued "timezone" none (isNumber UInt8.size) "[default: 1]",
    .valued "security" none (isNumber UInt8.size) "Lowest security level allowed to join [default: 0]"]
  ["NAME"]

def defaultMask : Address := .v4 0xFFFFFF00

/-- Without a local address the realm has one address for all. -/
def realmTask (f : Found) : Except Stop ServiceTask :=
  match f.values, (f.value? "address").bind Address.parse with
  | [name], some address =>
    .ok <| .addRealm {
      id := 0
      name := name
      external := address
      localAddress := f.read "local-address" Address.parse address
      mask := f.read "subnet-mask" Address.parse defaultMask
      port := f.word "port" 8085
      kind := f.byte "realm-type" 0
      flags := 0
      timezone := f.byte "timezone" 1
      security := f.byte "security" 0
      population := ⟨0⟩
      build := f.word "build" 12340 }
  | _, _ => .error .misuse

def grammarOf? : String → Option Grammar
  | "serve" => some serveGrammar
  | "generate-key" => some keyGrammar
  | "create-account" => some accountGrammar
  | "add-realm" => some realmGrammar
  | _ => none

def explanation : List String → Stop
  | [] => .explanation grammar.help
  | ["help"] => .explanation [
      "Print this message or the help of the given subcommand(s)", "", s!"Usage: {grammar.name} help [COMMAND]...",
      "", "Arguments:", "  [COMMAND]...  Print help for the subcommand(s)"]
  | [name] =>
    match grammarOf? name with
    | some g => .explanation g.help
    | none => .misuse
  | _ => .misuse

def taskNamed : String → List String → Except Stop ServiceTask
  | "generate-key", words => (scan keyGrammar words).map fun _ => .generateKey
  | "create-account", words => (scan accountGrammar words).bind accountTask
  | "add-realm", words => (scan realmGrammar words).bind realmTask
  | "help", words => .error (explanation words)
  | _, words => (scan serveGrammar words).map fun _ => .serve

/-- Without a subcommand the service serves. -/
def parse (words : List String) : Except Stop ServiceCommand := do
  let f ← scan grammar words
  let configPath := (f.value? "config").getD defaultConfigPath
  match f.subcommand with
  | none => return ⟨configPath, .serve⟩
  | some (name, rest) => return ⟨configPath, ← taskNamed name rest⟩

end ServiceCommand

end RealmLogon
