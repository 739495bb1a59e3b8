import RealmLogon.Session.Dispatch
import RealmLogon.World

/-! One connection of a client, as a machine that a surrounding moves on: it decides on a reply, it
writes one, it waits for bytes, or it is finished. A single deadline covers deciding, writing and
waiting; it is set anew only after a whole frame has been answered. Times are in milliseconds. -/

namespace RealmLogon

/-- What a connection is at. A phase that stands with it is the one that a timeout would report. -/
inductive Activity where
  /-- Finding out whether the address of the client is banned. -/
  | admitting (rest : Flow Bool)
  /-- Deciding on the reply to a frame. -/
  | deciding (phase : Phase) (rest : Flow Session.Outcome)
  /-- Writing a reply, of which these bytes are left. -/
  | writing (phase : Phase) (rest : Bytes)
  /-- Waiting for bytes of the client. -/
  | waiting
  | finished (result : Except SessionError Unit)

structure Connection where
  session : Session
  /-- Bytes that came and were not part of a complete frame yet. -/
  buffer : Bytes
  deadline : Option Nat
  activity : Activity

namespace Connection

/-- The deadline of the session's phase, from a time on. The clock of a running program is bounded: where the sum is past
its last time the program stops. Here time has no end. -/
def deadlineFrom (svc : Service) (s : Session) (time : Nat) : Option Nat :=
  (s.idleTimeout svc.policy).map fun seconds => time + 1000 * seconds

/-- Whether an address is banned; if the directory does not say, it is not. -/
def admission (ip : Address) : Flow Bool := .call (.isIpBanned ip) fun r => .done (r.toOption.getD false)

def accept (svc : Service) (peer : Endpoint) (time : Nat) : Connection :=
  let s : Session := { peer := peer }
  ⟨s, [], deadlineFrom svc s time, .admitting (admission peer.ip)⟩

def finish (c : Connection) (result : Except SessionError Unit) : Connection :=
  { c with activity := .finished result }

def next (svc : Service) (c : Connection) : Connection :=
  match c.session.nextFrame c.buffer with
  | .error e => c.finish (.error e)
  | .ok none => { c with activity := .waiting }
  | .ok (some (command, n)) =>
    { c with
      buffer := c.buffer.drop n
      activity := .deciding c.session.phase (c.session.dispatch svc command (c.buffer.take n)) }

def bannedReply : Bytes := challengeFailure .logonChallenge .banned

def admitted (svc : Service) (c : Connection) (banned : Bool) : Connection :=
  if banned then
    { c with session := { c.session with phase := .closed }, activity := .writing .closed bannedReply }
  else c.next svc

def decided (c : Connection) (phase : Phase) (o : Session.Outcome) : Connection :=
  match o.2 with
  | .ok reply => { c with session := o.1, activity := .writing phase reply }
  | .error e => { c with session := o.1 }.finish (.error e)

/-- A whole reply has been written: the session is closed, or the next frame has its full time. -/
def written (svc : Service) (c : Connection) (time : Nat) : Connection :=
  if c.session.phase = .closed then c.finish (.ok ())
  else { c with deadline := deadlineFrom svc c.session time }.next svc

/-- Ask one question of what is being decided, or act on the decision. -/
def decide (svc : Service) (c : Connection) (w : World) : Connection × World :=
  match c.activity with
  | .admitting (.done banned) => (c.admitted svc banned, w)
  | .admitting (.ask q k) =>
    let (a, w) := w.answer q
    ({ c with activity := .admitting (k a) }, w)
  | .deciding phase (.done o) => (c.decided phase o, w)
  | .deciding phase (.ask q k) =>
    let (a, w) := w.answer q
    ({ c with activity := .deciding phase (k a) }, w)
  | _ => (c, w)

/-- Ask all questions of what is being decided, and act on the decision. -/
def resolve (svc : Service) (c : Connection) (w : World) : Connection × World :=
  match c.activity with
  | .admitting f =>
    let (banned, w) := w.run f
    (c.admitted svc banned, w)
  | .deciding phase f =>
    let (o, w) := w.run f
    (c.decided phase o, w)
  | _ => (c, w)

def isLate (c : Connection) (time : Nat) : Bool := c.deadline.any (· ≤ time)

/-- The phase that a timeout reports, unless the connection is finished. -/
def pendingPhase? (c : Connection) : Option Phase :=
  match c.activity with
  | .admitting _ | .waiting => some c.session.phase
  | .deciding phase _ | .writing phase _ => some phase
  | .finished _ => none

def expire (c : Connection) : Connection :=
  match c.pendingPhase? with
  | some phase => c.finish (.error (.timeout phase))
  | none => c

/-- Act on a decision that needs no time; if it needs any, the deadline has passed. -/
def resolveAtOnce (svc : Service) (c : Connection) (w : World) : Connection × World :=
  match c.activity with
  | .admitting f =>
    let r := w.runAtOnce f
    (r.1.elim c.expire (c.admitted svc), r.2)
  | .deciding phase f =>
    let r := w.runAtOnce f
    (r.1.elim c.expire (c.decided phase), r.2)
  | _ => (c, w)

def resolveAt (svc : Service) (time : Nat) (c : Connection) (w : World) : Connection × World :=
  if c.isLate time then c.resolveAtOnce svc w else c.resolve svc w

/-- Whether some bytes find room; without a bound they always do. -/
def fits (room : Option Nat) (b : Bytes) : Bool :=
  match room with
  | none => true
  | some n => b.length ≤ n

/-- The surrounding takes as many bytes of a reply as find room. -/
def write (svc : Service) (c : Connection) (time : Nat) (room : Option Nat) : Bytes × Connection :=
  match c.activity with
  | .writing phase rest =>
    if fits room rest then (rest, c.written svc time)
    else
      let n := room.getD 0
      (rest.take n, { c with activity := .writing phase (rest.drop n) })
  | _ => ([], c)

def receive (svc : Service) (c : Connection) (chunk : Bytes) : Connection :=
  match c.activity with
  | .waiting =>
    let c := { c with buffer := c.buffer ++ chunk }
    if bufferLimit < c.buffer.length then c.finish (.error .bufferOverflow) else c.next svc
  | _ => c

def endOfInput (c : Connection) : Connection :=
  match c.activity with
  | .waiting => c.finish (.ok ())
  | _ => c

def result? (c : Connection) : Option (Except SessionError Unit) :=
  match c.activity with
  | .finished r => some r
  | _ => none

end Connection

end RealmLogon
