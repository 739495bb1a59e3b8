import RealmLogon.Directory.Call
import RealmLogon.Entropy

/-! What a session asks of the world around it while it decides on a reply: calls of the directory, the
time, random bytes and the current realms. A decision is a tree of questions, each with a continuation
for every answer; what answers them is left open. -/

namespace RealmLogon

inductive Query where
  | call (c : Directory.Call)
  /-- The time in seconds. -/
  | now
  | draw (n : Nat)
  | realms
  deriving DecidableEq

/-- What a question is answered with. A call of the directory may fail. -/
def Query.Answer : Query → Type
  | .call c => Except DirectoryError c.Answer
  | .now => Int
  | .draw n => Octets n
  | .realms => List Realm

inductive Flow (α : Type) where
  | done (a : α)
  | ask (q : Query) (resume : q.Answer → Flow α)

namespace Flow

variable {α β : Type}

def bind : Flow α → (α → Flow β) → Flow β
  | done a, f => f a
  | ask q k, f => ask q fun x => (k x).bind f

def map (f : α → β) (p : Flow α) : Flow β := p.bind fun a => done (f a)

def call (c : Directory.Call) (k : Except DirectoryError c.Answer → Flow α) : Flow α := ask (.call c) k

def runWith {W : Type} (answer : (q : Query) → W → q.Answer × W) : Flow α → W → α × W
  | done a, w => (a, w)
  | ask q k, w => (k (answer q w).1).runWith answer (answer q w).2

@[simp] theorem runWith_done {W : Type} (answer : (q : Query) → W → q.Answer × W) (a : α) (w : W) :
    (done a).runWith answer w = (a, w) := rfl
@[simp] theorem runWith_ask {W : Type} (answer : (q : Query) → W → q.Answer × W) (q : Query)
    (k : q.Answer → Flow α) (w : W) :
    (ask q k).runWith answer w = (k (answer q w).1).runWith answer (answer q w).2 := rfl

end Flow

end RealmLogon
