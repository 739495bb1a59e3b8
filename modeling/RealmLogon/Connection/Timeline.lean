import RealmLogon.Connection.Run

/-! Several connections in time. Bytes go through pipes, and the one towards a client may hold only so
many. What the clients do happens at once; timers go off while time passes. -/

namespace RealmLogon

structure Link where
  connection : Connection
  /-- Bytes of the client that the connection has not read. -/
  inbound : Bytes
  /-- The client has closed its side. -/
  inputClosed : Bool
  /-- Bytes of the connection that the client has not read. -/
  outbound : Bytes
  /-- Most bytes that may wait for the client. -/
  capacity : Option Nat
  /-- The end of the connection has been told. -/
  reported : Bool

namespace Link

def room (l : Link) : Option Nat := l.capacity.map (· - l.outbound.length)

/-- Bytes that the connection takes in one read: its buffer never gets fuller than its limit. -/
def readSize (l : Link) : Nat := bufferLimit - l.connection.buffer.length

def settle (svc : Service) (time : Nat) (l : Link) (w : World) : Link × World :=
  let r := l.connection.settle svc time l.room w
  ({ l with connection := r.2.1, outbound := l.outbound ++ r.1 }, r.2.2)

def isWaiting (l : Link) : Bool :=
  match l.connection.activity with
  | .waiting => true
  | _ => false

def read (svc : Service) (l : Link) : Link :=
  { l with
    connection := l.connection.receive svc (l.inbound.take l.readSize)
    inbound := l.inbound.drop l.readSize }

/-- Let the connection go on until it has to wait for the client or for time. -/
def advance (svc : Service) (time : Nat) (l : Link) (w : World) : Link × World :=
  let r := l.settle svc time w
  if r.1.isWaiting then
    if r.1.inbound = [] then
      if r.1.inputClosed then ({ r.1 with connection := r.1.connection.endOfInput }, r.2) else r
    else
      let next := r.1.read svc
      if _h : next.inbound.length < l.inbound.length then advance svc time next r.2 else r
  else r
termination_by l.inbound.length

def isFinished (l : Link) : Bool := l.connection.result?.isSome

/-- A connection whose deadline has come does not wait any longer. -/
def lapse (time : Nat) (l : Link) : Link :=
  if l.connection.isLate time then { l with connection := l.connection.expire } else l

end Link

structure Timeline where
  world : World
  /-- Milliseconds since the beginning. -/
  time : Nat
  links : List Link
  /-- Milliseconds between two refreshments of the realms. -/
  refreshEvery : Option Nat

structure News where
  link : Nat
  received : Bytes
  result : Option (Except SessionError Unit)

namespace Timeline

def advanceLinks (svc : Service) (time : Nat) : List Link → World → List Link × World
  | [], w => ([], w)
  | l :: ls, w =>
    let first := l.advance svc time w
    let rest := advanceLinks svc time ls first.2
    (first.1 :: rest.1, rest.2)

def advance (svc : Service) (t : Timeline) : Timeline :=
  let r := advanceLinks svc t.time t.links t.world
  { t with links := r.1, world := r.2 }

/-- The next refreshment after a time, none of which is at the beginning. -/
def nextRefresh (t : Timeline) : Option Nat := t.refreshEvery.map fun every => (t.time / every + 1) * every

def nextTimer (t : Timeline) : Option Nat :=
  let deadlines := t.links.filterMap fun l => if l.isFinished then none else l.connection.deadline
  (deadlines ++ t.nextRefresh.toList).min?

/-- What happens at a time: connections whose deadline has come end, and realms are refreshed. -/
def fire (t : Timeline) (time : Nat) : Timeline :=
  let refreshes := t.nextRefresh == some time
  { t with
    time := time
    links := t.links.map (·.lapse time)
    world := if refreshes then t.world.refresh else t.world }

def passUntil (t : Timeline) (goal : Nat) : Timeline :=
  match t.nextTimer with
  | some time =>
    if _h : t.time < time ∧ time ≤ goal then (t.fire time).passUntil goal
    else { t with time := goal }
  | none => { t with time := goal }
termination_by goal - t.time
decreasing_by simp only [fire]; omega

/-- Let some milliseconds pass. A deadline that is no later than now has come before. -/
def pass (t : Timeline) (ms : Nat) : Timeline :=
  { t with links := t.links.map (Link.lapse t.time) }.passUntil (t.time + ms)

def connect (svc : Service) (t : Timeline) (peer : Endpoint) (capacity : Option Nat) : Timeline :=
  { t with links := t.links ++ [⟨.accept svc peer t.time, [], false, [], capacity, false⟩] }

def change (t : Timeline) (n : Nat) (f : Link → Link) : Timeline :=
  { t with links := t.links.modify n fun l => if l.isFinished then l else f l }

def send (t : Timeline) (n : Nat) (b : Bytes) : Timeline :=
  t.change n fun l => if l.inputClosed then l else { l with inbound := l.inbound ++ b }

def close (t : Timeline) (n : Nat) : Timeline := t.change n fun l => { l with inputClosed := true }

def closeAll (t : Timeline) : Timeline := (List.range t.links.length).foldl close t

/-- The news of a connection. If its client reads, it reads everything. -/
def Link.collect (reads : Bool) (n : Nat) (l : Link) : Option News × Link :=
  let received := if reads then l.outbound else []
  let result := if l.reported then none else l.connection.result?
  let news := if received = [] ∧ result.isNone then none else some ⟨n, received, result⟩
  (news, { l with outbound := l.outbound.drop received.length, reported := l.reported || result.isSome })

def collect (t : Timeline) (reads : Bool) : List News × Timeline :=
  let r := t.links.zipIdx.map fun (l, n) => Link.collect reads n l
  (r.filterMap (·.1), { t with links := r.map (·.2) })

end Timeline

end RealmLogon
