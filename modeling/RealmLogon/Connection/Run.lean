import RealmLogon.Connection.Basic

/-! A connection from its acceptance to the end of its input: the client takes every reply at once, and
no time passes. -/

namespace RealmLogon.Connection

/-- Decide and write, frame after frame, until bytes are missing, a reply finds no room, or the
connection is finished. Also gives what was written. -/
def settle (svc : Service) (time : Nat) (room : Option Nat) (c : Connection) (w : World) :
    Bytes × Connection × World :=
  let decided := c.resolveAt svc time w
  let written := decided.1.write svc time room
  if _h : written.2.buffer.length < c.buffer.length then
    let more := settle svc time (room.map (· - written.1.length)) written.2 decided.2
    (written.1 ++ more.1, more.2)
  else (written.1, written.2, decided.2)
termination_by c.buffer.length

def feed (svc : Service) (c : Connection) (w : World) (chunk : Bytes) : Bytes × Connection × World :=
  (c.receive svc chunk).settle svc 0 none w

def feedAll (svc : Service) (c : Connection) (w : World) : List Bytes → Bytes × Connection × World
  | [] => ([], c.endOfInput, w)
  | chunk :: rest =>
    let first := c.feed svc w chunk
    let more := feedAll svc first.2.1 first.2.2 rest
    (first.1 ++ more.1, more.2)

/-- A whole connection: what it writes, how it ends, and the world after it. -/
def run (svc : Service) (peer : Endpoint) (chunks : List Bytes) (w : World) : Bytes × Connection × World :=
  let opened := (accept svc peer 0).settle svc 0 none w
  let rest := opened.2.1.feedAll svc opened.2.2 chunks
  (opened.1 ++ rest.1, rest.2)

end RealmLogon.Connection
