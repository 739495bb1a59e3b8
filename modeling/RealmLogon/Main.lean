import RealmLogon.Directory.Lines
import RealmLogon.Probe.Replay
import RealmLogon.Program.Probe
import RealmLogon.Program.Service
import Std.Async
import Std.Sync.Mutex
import Std.Time

/-! The two programs on a real machine. The first word `probe` chooses the probe; every other command line
is one of the service, which keeps its login database as lines of text. -/

namespace RealmLogon.Machine

open Std Std.Async Std.Async.TCP.Socket Std.Net

def clock : IO Int := return (← Time.Timestamp.now).toSecondsSinceUnixEpoch.toInt

/-- Random bytes, more than any one decision draws. -/
def entropy : IO Entropy := return .cycle (← IO.getRandomBytes 256).toList

def tell (e : Ending) : IO UInt32 := do
  e.printed.forM IO.println
  e.complaint.forM IO.eprintln
  if e.status = .misuse then IO.eprintln "Error: this command line is not allowed"
  return UInt32.ofNat e.code

def text? (path : String) : IO (Option String) := do
  try return some (← IO.FS.readFile path) catch _ => return none

-- Addresses.

def toIp : Address → IPAddr
  | .v4 bits =>
    let n := bits.toNat
    .v4 (.ofParts (.ofNat (n >>> 24)) (.ofNat (n >>> 16)) (.ofNat (n >>> 8)) (.ofNat n))
  | .v6 g => .v6 ⟨⟨g.toList.toArray, by simp [g.length_toList]⟩⟩

def toSocket (ip : IPAddr) (port : UInt16) : SocketAddress :=
  match ip with
  | .v4 a => .v4 ⟨a, port⟩
  | .v6 a => .v6 ⟨a, port⟩

def toEndpoint : SocketAddress → Endpoint
  | .v4 a => ⟨.v4 (a.addr.octets.foldl (fun n b => n * 256 + b.toUInt32) 0), a.port⟩
  | .v6 a => ⟨.v6 ⟨a.addr.segments.toList, by simp⟩, a.port⟩

def resolve (host : String) : IO IPAddr := do
  match Address.parse host with
  | some a => return toIp a
  | none =>
    match (← (DNS.getAddrInfo host "").block)[0]? with
    | some ip => return ip
    | none => throw (IO.userError "no such host")

-- The service.

/-- The directories around a file. -/
def around (file : List String) : List (List String) := (List.range file.length).map file.take

/-- The files that a command line needs. -/
def site (words : List String) : IO Site := do
  let home := Path.absolute [] (← IO.currentDir).toString
  let bare : Site := ⟨home, Site.commonDirectories, [], []⟩
  let .ok c := ServiceCommand.parse words | return bare
  let configFile := Path.absolute home c.configPath
  let some text ← text? c.configPath | return bare
  let config : Site := { bare with directories := bare.directories ++ around configFile, texts := [(configFile, text)] }
  let .ok parsed := Config.parse text | return config
  let geoip ← parsed.geoIpPath.toList.filterMapM fun path => do
    return (← text? path).map (Path.absolute home path, ·)
  let files := (Location.parse parsed.databasePath).toList.map fun l => Path.absolute home l.path
  let databases ← files.filterMapM fun file => do
    return ((← text? (Path.text file)).bind fun t => Store.ofLines? ((t.splitOn "\n").filter (· ≠ ""))).map (file, ·)
  return { config with
    directories := config.directories ++ (files ++ geoip.map (·.1)).flatMap around
    texts := config.texts ++ geoip
    databases := databases }

def save (s : Site) : IO Unit :=
  s.databases.forM fun (file, store) =>
    IO.FS.writeFile (Path.text file) (String.join (store.toLines.map (· ++ "\n")))

def withWorld {α : Type} (shared : Mutex World) (f : World → α × World) : IO α := do
  let now ← clock
  let fresh ← entropy
  shared.atomically do
    let r := f { (← get) with clock := now, entropy := fresh, calls := [] }
    set r.2
    return r.1

/-- What a connection may get while it waits. -/
inductive Arrival where
  | bytes (b : Bytes)
  | ended
  | late

def arrival (socket : Client) (wait : Option Nat) : Async Arrival := do
  let read : Selectable Arrival := .case (socket.recvSelector 1024) fun
    | some b => return .bytes b.toList
    | none => return .ended
  match wait with
  | none => Selectable.one #[read]
  | some ms =>
    let timer ← Selector.sleep (.ofNat ms)
    Selectable.one #[read, .case timer fun _ => return .late]

/-- Let a connection go on to its end. -/
partial def converse (svc : Service) (shared : Mutex World) (socket : Client) (c : Connection) : IO Unit := do
  let time ← IO.monoMsNow
  let (reply, c) ← withWorld shared fun w =>
    let r := c.settle svc time none w
    ((r.1, r.2.1), r.2.2)
  unless reply.isEmpty do (socket.send ⟨reply.toArray⟩).block
  if c.result?.isSome then socket.shutdown.block
  else
    match ← (arrival socket (c.deadline.map (· - time))).block with
    | .bytes b => converse svc shared socket (c.receive svc b)
    | .ended | .late => socket.shutdown.block

/-- Take clients, as many at a time as are allowed. -/
partial def acceptAll (s : Serving) (shared : Mutex World) (taken : IO.Ref Nat) (server : Server) : IO Unit := do
  let socket ← server.accept.block
  if (← taken.get) < s.config.maxConnections then
    taken.modify (· + 1)
    let talk : IO Unit := do
      let peer := toEndpoint (← socket.getPeerName)
      converse s.service shared socket (.accept s.service peer (← IO.monoMsNow))
    discard <| IO.asTask (do try talk catch _ => pure (); taken.modify (· - 1)) .dedicated
  acceptAll s shared taken server

partial def refreshAll (s : Serving) (shared : Mutex World) : IO Unit := do
  IO.sleep (UInt32.ofNat (1000 * s.config.refreshInterval))
  withWorld shared fun w => ((), w.refresh)
  refreshAll s shared

def serve (s : Serving) (site : Site) : IO UInt32 := do
  let server ← Server.mk
  try
    server.bind (toSocket (← resolve s.config.bindAddress) s.config.bindPort)
    server.listen 128
  catch e => return ← tell (s.deaf (toString e))
  let shared ← Mutex.new s.world
  let taken ← IO.mkRef 0
  discard <| IO.asTask (acceptAll s shared taken server) .dedicated
  discard <| IO.asTask (refreshAll s shared) .dedicated
  let interrupt ← Signal.Waiter.mk .sigint false
  discard <| (← interrupt.wait).block
  let w ← withWorld shared fun w => (w, w)
  save (site.saveDatabase s.database w.store)
  return 0

def runService (words : List String) : IO UInt32 := do
  let (r, site) := ServiceCommand.run (← site words) (← clock) (← entropy) words
  save site
  match r with
  | .error e => tell e
  | .ok s => serve s site

-- The probe.

/-- A connection to a server that is named by host and port. -/
def connect (server : String) : IO Client := do
  let (host, port) := Endpoint.cut server.toList
  let ip ← resolve (String.ofList host)
  let socket ← Client.mk
  (socket.connect (toSocket ip (UInt16.ofNat ((Text.Numeral.parse 10 port).getD 0)))).block
  return socket

/-- Run the probe on what has arrived, and let more arrive while it lacks something. The sockets are those
of the connections so far, each with the number of messages sent on it. -/
partial def converseAll (words : List String) (w : World) (ahead : List (Except String Recording))
    (sockets : List (Client × Nat)) : IO UInt32 := do
  let (e, r, _) := ProbeCommand.run Replay.dial (Replay.start ahead, w) words
  if !r.lacking then tell e
  else
    match r.dialled with
    | [] => tell e
    | (server, sent) :: before =>
      if sockets.length = before.length then
        match ← (connect server).toBaseIO with
        | .ok socket => converseAll words w (ahead ++ [.ok ⟨[], false⟩]) ((socket, 0) :: sockets)
        | .error reason => converseAll words w (ahead ++ [.error (toString reason)]) sockets
      else
        match sockets, ahead.getLast? with
        | (socket, n) :: rest, some (.ok c) =>
          (sent.reverse.drop n).forM fun b => (socket.send ⟨b.toArray⟩).block
          let c ← match ← (socket.recv? (UInt64.ofNat readSize)).block with
            | some b => pure (⟨c.reads ++ [b.toList], false⟩ : Recording)
            | none => pure { c with ended := true }
          converseAll words w (ahead.dropLast ++ [.ok c]) ((socket, sent.length) :: rest)
        | _, _ => tell e

def runProbe (words : List String) : IO UInt32 := do
  converseAll words ⟨.empty, ← clock, ← entropy, [], fun _ _ => false, []⟩ [] []

end RealmLogon.Machine

def main (words : List String) : IO UInt32 :=
  match words with
  | "probe" :: rest => RealmLogon.Machine.runProbe rest
  | _ => RealmLogon.Machine.runService words
