import RealmLogon.Bytes.Octets

/-! The random bytes that a service draws: an endless stream and the number of bytes taken so far. -/

namespace RealmLogon

structure Entropy where
  byte : Nat → UInt8
  taken : Nat

namespace Entropy

/-- A stream that repeats the given bytes, or zeros if there are none. -/
def cycle (source : Bytes) : Entropy :=
  let bytes := source.toArray
  ⟨fun i => bytes.getD (i % bytes.size) 0, 0⟩

def peek (e : Entropy) (n : Nat) : Octets n := .ofFn fun i => e.byte (e.taken + i.val)

def skip (e : Entropy) (n : Nat) : Entropy := { e with taken := e.taken + n }
@[simp] theorem byte_skip (e : Entropy) (n : Nat) : (e.skip n).byte = e.byte := rfl
@[simp] theorem taken_skip (e : Entropy) (n : Nat) : (e.skip n).taken = e.taken + n := rfl

def draw (e : Entropy) (n : Nat) : Octets n × Entropy := (e.peek n, e.skip n)
@[simp] theorem draw_fst (e : Entropy) (n : Nat) : (e.draw n).1 = e.peek n := rfl
@[simp] theorem draw_snd (e : Entropy) (n : Nat) : (e.draw n).2 = e.skip n := rfl

end Entropy

end RealmLogon
