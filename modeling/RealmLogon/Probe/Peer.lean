import RealmLogon.Connection.Timeline

/-! The far end of a client's connection, as the client meets it: it takes messages, and every read
delivers some of its bytes, until a read delivers none. There are three kinds of it: a connection of a
service in the client's own world, one of a service in a world of its own, and a script, which answers every
message with chunks that were written beforehand. -/

namespace RealmLogon

/-- A read that delivers nothing is the end of the stream. Every other one takes from a stock, which only
a message may renew. -/
class Peer (σ : Type) where
  /-- Take a message, unless the connection is closed. -/
  send : Bytes → σ × World → Option (σ × World)
  read : σ × World → Bytes × (σ × World)
  /-- Most bytes that reads can still deliver. -/
  stock : σ → Nat
  stock_read : ∀ s, (read s).1 ≠ [] → stock (read s).2.1 < stock s.1

def readSize : Nat := 1024

structure Served where
  service : Service
  link : Link

namespace Served

def accept (svc : Service) (peer : Endpoint) : Served :=
  ⟨svc, ⟨.accept svc peer 0, [], false, [], none, false⟩⟩

/-- Let the connection go on; no time passes while the client does nothing. -/
def advance (s : Served) (w : World) : Served × World :=
  let r := s.link.advance s.service 0 w
  ({ s with link := r.1.lapse 0 }, r.2)

def send (b : Bytes) (s : Served × World) : Option (Served × World) :=
  if s.1.link.isFinished then none
  else some ({ s.1 with link := { s.1.link with inbound := s.1.link.inbound ++ b } }.advance s.2)

/-- What has been written comes first. A client that goes on reading waits for the deadline. -/
def read (s : Served × World) : Bytes × (Served × World) :=
  let l := s.1.link
  if l.outbound = [] then
    ([], { s.1 with link := { l with connection := l.connection.expire } }, s.2)
  else
    (l.outbound.take readSize, { s.1 with link := { l with outbound := l.outbound.drop readSize } }, s.2)

def leave (s : Served) (w : World) : Served × World :=
  { s with link := { s.link with inputClosed := true } }.advance w

theorem length_read (s : Served × World) (h : (read s).1 ≠ []) :
    (read s).2.1.link.outbound.length < s.1.link.outbound.length := by
  by_cases he : s.1.link.outbound = []
  · simp [read, he] at h
  · have := List.length_pos_iff.mpr he
    simp only [read, if_neg he, List.length_drop, readSize]
    omega

instance : Peer Served := ⟨send, read, fun s => s.link.outbound.length, length_read⟩

end Served

/-- A service that a client reaches from outside: it has a world of its own. -/
structure Host where
  service : Service
  /-- The address of the client as the service sees it. -/
  client : Endpoint
  world : World
  /-- The connection of the client. -/
  served : Option Served

namespace Host

def leave (h : Host) : Host :=
  match h.served with
  | some s => { h with served := none, world := (s.leave h.world).2 }
  | none => h

def dial (h : Host) : Host := { h.leave with served := some (.accept h.service h.client) }

def send (b : Bytes) (s : Host × World) : Option (Host × World) := do
  let served ← s.1.served
  let r ← Served.send b (served, s.1.world)
  return ({ s.1 with served := some r.1, world := r.2 }, s.2)

def read (s : Host × World) : Bytes × (Host × World) :=
  match s.1.served with
  | none => ([], s)
  | some served =>
    let r := Served.read (served, s.1.world)
    (r.1, { s.1 with served := some r.2.1, world := r.2.2 }, s.2)

def stock (h : Host) : Nat := h.served.elim 0 fun s => s.link.outbound.length

theorem stock_read (s : Host × World) (h : (read s).1 ≠ []) : (read s).2.1.stock < s.1.stock := by
  obtain ⟨⟨service, client, world, served⟩, w⟩ := s
  cases served with
  | none => exact absurd rfl h
  | some x => exact Served.length_read (x, world) h

instance : Peer Host := ⟨send, read, stock, stock_read⟩

end Host

/-- A server that answers each message with the chunks of one turn, and closes after the last turn. -/
structure Script where
  turns : List (List Bytes)
  /-- Chunks of the current turn that are not written yet. -/
  chunks : List Bytes
  /-- Bytes sent to it that it has not taken. -/
  inbox : Bytes
  /-- The chunk written last, as far as it has not been read. -/
  pipe : Bytes
  /-- The messages it has taken, the last one first. -/
  taken : List Bytes
  closed : Bool

namespace Script

def ofTurns (turns : List (List Bytes)) : Script := ⟨turns, [], [], [], [], false⟩

def unwritten (s : Script) : Nat := s.chunks.flatten.length + s.turns.flatten.flatten.length

/-- Go on until there is something to read, or the script waits for a message, or it is over. -/
def advance (s : Script) : Script :=
  if s.pipe ≠ [] then s
  else
    match _hc : s.chunks, _ht : s.turns with
    | c :: cs, _ => advance { s with pipe := c, chunks := cs }
    | [], [] => { s with closed := true }
    | [], t :: ts =>
      if s.inbox = [] then s
      else advance { s with turns := ts, chunks := t, inbox := [], taken := s.inbox :: s.taken }
termination_by (s.turns.length, s.chunks.length)
decreasing_by
  · simp only [_ht, _hc, List.length_cons]; exact Prod.Lex.right _ (by omega)
  · simp only [_ht, List.length_cons]; exact Prod.Lex.left _ _ (by omega)

theorem length_advance (s : Script) : s.advance.pipe.length + s.advance.unwritten = s.pipe.length + s.unwritten := by
  fun_induction advance s with
  | case1 s h => rfl
  | case2 s h c cs hc ih =>
    rw [ih]
    have hp : s.pipe = [] := by simpa using h
    simp [unwritten, hc, hp]; omega
  | case3 s h hc ht => simp [unwritten]
  | case4 s h t ts hc ht hi => rfl
  | case5 s h t ts hc ht hi ih =>
    rw [ih]
    simp [unwritten, hc, ht]

def send (b : Bytes) (s : Script × World) : Option (Script × World) :=
  if s.1.closed then none else some ({ s.1 with inbox := s.1.inbox ++ b }, s.2)

def read (s : Script × World) : Bytes × (Script × World) :=
  let a := s.1.advance
  (a.pipe.take readSize, { a with pipe := a.pipe.drop readSize }, s.2)

/-- The client goes away: a chunk that is left cannot be written, and otherwise one more message is taken. -/
def leave (s : Script) : Script :=
  if s.chunks.flatten = [] ∧ s.turns ≠ [] ∧ s.inbox ≠ [] then { s with inbox := [], taken := s.inbox :: s.taken }
  else s

def stock (s : Script) : Nat := s.pipe.length + s.unwritten

theorem stock_read (s : Script × World) (h : (read s).1 ≠ []) : (read s).2.1.stock < s.1.stock := by
  have hs : s.1.stock = s.1.advance.pipe.length + s.1.advance.unwritten := (length_advance s.1).symm
  have hp : s.1.advance.pipe ≠ [] := by
    intro he
    simp [read, he] at h
  have := List.length_pos_iff.mpr hp
  rw [hs]
  simp only [read, stock, unwritten, List.length_drop, readSize]
  omega

instance : Peer Script := ⟨send, read, stock, stock_read⟩

end Script

end RealmLogon
