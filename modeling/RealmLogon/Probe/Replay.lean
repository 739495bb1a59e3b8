import RealmLogon.Probe.Peer

/-! A far end that is known only so far. A talk is a function of what arrives, so a client can run it
again and again on all that has arrived until now, and send what is new, until the talk lacks nothing. -/

namespace RealmLogon

/-- A connection so far: what its reads have delivered, and whether its stream has ended. -/
structure Recording where
  reads : List Bytes
  ended : Bool

structure Replay where
  /-- Connections that can still be opened, or the reason why one cannot be. -/
  ahead : List (Except String Recording)
  current : Recording
  /-- The servers dialled, each with the messages sent to it; all of them last one first. -/
  dialled : List (String × List Bytes)
  /-- Something is lacking that has not come yet. -/
  lacking : Bool

namespace Replay

def start (ahead : List (Except String Recording)) : Replay := ⟨ahead, ⟨[], false⟩, [], false⟩

/-- Open the next connection. On one that is not there yet nothing has arrived. -/
def dial (server : String) (r : Replay) : Except String Replay :=
  let r := { r with dialled := (server, []) :: r.dialled }
  match r.ahead with
  | .ok c :: rest => .ok { r with ahead := rest, current := c }
  | .error reason :: _ => .error reason
  | [] => .ok { r with current := ⟨[], false⟩, lacking := true }

def note (b : Bytes) (r : Replay) : Replay :=
  match r.dialled with
  | (server, sent) :: rest => { r with dialled := (server, b :: sent) :: rest }
  | [] => r

def send (b : Bytes) (s : Replay × World) : Option (Replay × World) :=
  if s.1.current.reads.isEmpty && s.1.current.ended then none else some (s.1.note b, s.2)

def read (s : Replay × World) : Bytes × (Replay × World) :=
  match s.1.current.reads with
  | b :: rest => (b, { s.1 with current := { s.1.current with reads := rest } }, s.2)
  | [] => ([], { s.1 with lacking := s.1.lacking || !s.1.current.ended }, s.2)

def stock (r : Replay) : Nat := r.current.reads.length

theorem stock_read (s : Replay × World) (h : (read s).1 ≠ []) : (read s).2.1.stock < s.1.stock := by
  obtain ⟨⟨ahead, ⟨reads, ended⟩, dialled, lacking⟩, w⟩ := s
  cases reads with
  | nil => exact absurd rfl h
  | cons b rest => simp [read, stock]

instance : Peer Replay := ⟨send, read, stock, stock_read⟩

end Replay

end RealmLogon
