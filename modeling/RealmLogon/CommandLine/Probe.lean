import RealmLogon.CommandLine.Scan

/-! The command line of the probe: whom it logs on, where, and as what. -/

namespace RealmLogon

structure ProbeCommand where
  login : String
  password : String
  host : String
  port : UInt16
  build : UInt16
  version : String
  os : String
  locale : String
  preExpansion : Bool
  executableHash : Option String
  totpSecret : Option String
  token : Option String
  /-- Resume the logon on a second connection. -/
  reconnect : Bool
  deriving DecidableEq

namespace ProbeCommand

open CommandLine

def grammar : Grammar where
  name := "logon-probe"
  about := "Log in to a logon server and print its realm list"
  version := some "0.1.0"
  switches :=
    let any (_ : String) : Bool := true
    [.valued "host" none any "Server host [default: 127.0.0.1]",
      .valued "port" (some 'p') (isNumber UInt16.size) "Server port [default: 3724]",
      .valued "build" (some 'b') (isNumber UInt16.size) "Client build to announce [default: 12340]",
      .valued "client-version" none any "Client version to announce (major.minor.bugfix) [default: 3.3.5]",
      .valued "os" none any "[default: Win]",
      .valued "locale" none any "[default: enUS]",
      .plain "pre-expansion" "Use the original (pre-expansion) packet layouts",
      .valued "exe-hash" none any "Executable hash (hex) for the version proof",
      .valued "totp-secret" none any "Authenticator secret (hex) used to compute the current token",
      .valued "token" none any "Authenticator token sent as typed",
      .plain "reconnect" "Reconnect with the new session key after logging in"]
  places := ["LOGIN", "PASSWORD"]
  subcommands := []

/-- A token is either typed or computed from a secret. -/
def parse (words : List String) : Except Stop ProbeCommand := do
  let f ← scan grammar words
  let text (long default : String) := (f.value? long).getD default
  if f.has "token" && f.has "totp-secret" then throw .misuse
  match f.values with
  | [login, password] =>
    return {
      login := login
      password := password
      host := text "host" "127.0.0.1"
      port := f.word "port" 3724
      build := f.word "build" 12340
      version := text "client-version" "3.3.5"
      os := text "os" "Win"
      locale := text "locale" "enUS"
      preExpansion := f.has "pre-expansion"
      executableHash := f.value? "exe-hash"
      totpSecret := f.value? "totp-secret"
      token := f.value? "token"
      reconnect := f.has "reconnect" }
  | _ => throw .misuse

end ProbeCommand

end RealmLogon
