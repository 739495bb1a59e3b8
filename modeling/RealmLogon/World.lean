import RealmLogon.Session.Flow

/-! The world that sessions share: the login database, the clock, the random stream and the current
realms. Single calls of the directory may fail; a failing call has no effect, but it is recorded. -/

namespace RealmLogon

structure World where
  store : Store
  clock : Int
  entropy : Entropy
  realms : List Realm
  /-- Whether the call with this number, counted from the first one, fails. -/
  fails : Nat → Directory.Call → Bool
  /-- The calls made so far, the last one first. -/
  calls : List Directory.Call

namespace World

def call (w : World) (c : Directory.Call) : Except DirectoryError c.Answer × World :=
  let logged := { w with calls := c :: w.calls }
  if w.fails w.calls.length c then (.error .unavailable, logged)
  else
    let r := c.perform w.store w.clock
    (r.1, { logged with store := r.2 })

def answer (q : Query) (w : World) : q.Answer × World :=
  match q with
  | .call c => w.call c
  | .now => (w.clock, w)
  | .draw n => (w.entropy.peek n, { w with entropy := w.entropy.skip n })
  | .realms => (w.realms, w)

def run {α : Type} (f : Flow α) (w : World) : α × World := f.runWith answer w

/-- Whether the answer to a question has to be waited for; only a call that fails answers at once. -/
def waits (w : World) : Query → Bool
  | .call c => !w.fails w.calls.length c
  | _ => false

/-- Run a flow as far as nothing has to be waited for. A call that would have to be waited for is made all
the same. -/
def runAtOnce {α : Type} : Flow α → World → Option α × World
  | .done a, w => (some a, w)
  | .ask q k, w =>
    let r := w.answer q
    if w.waits q then (none, r.2) else runAtOnce (k r.1) r.2

/-- Read the realms again; if that fails, they stay as they are. -/
def refresh (w : World) : World :=
  match w.call .listRealms with
  | (.ok realms, w) => { w with realms := realms }
  | (.error _, w) => w

end World

end RealmLogon
