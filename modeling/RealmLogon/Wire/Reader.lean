import RealmLogon.Bytes.LittleEndian
import RealmLogon.Wire.Code
import RealmLogon.Wire.Error

/-! Reading messages from the front of a byte string. `ensure` reports how many bytes are missing; the
reads behind it guard nothing themselves and answer `overrun` on a string that is too short. -/

namespace RealmLogon

/-- A read takes bytes off the front, or fails. -/
abbrev Reader := StateT Bytes (Except WireError)

namespace Reader

def fail {α : Type} (e : WireError) : Reader α := fun _ => .error e

def ensure (n : Nat) : Reader Unit := fun b =>
  if b.length < n then .error (.packetTooSmall n b.length) else .ok ((), b)

def byte : Reader UInt8
  | [] => .error .overrun
  | b :: r => .ok (b, r)

def octets (n : Nat) : Reader (Octets n) := fun b =>
  if h : n ≤ b.length then .ok (⟨b.take n, by simp [h]⟩, b.drop n) else .error .overrun

def word16 : Reader UInt16 := do return LittleEndian.toWord16 (← octets 2).toList
def word32 : Reader UInt32 := do return LittleEndian.toWord32 (← octets 4).toList

def skip (n : Nat) : Reader Unit := fun b => if b.length < n then .error .overrun else .ok ((), b.drop n)

def field (n : Nat) : Reader (Octets n) := do ensure n; octets n

def text (n : Nat) (malformed : WireError) : Reader String := do
  match Bytes.toString? (← field n).toList with
  | some s => return s
  | none => fail malformed

def zeroTerminated : Reader String := fun b =>
  match b.dropWhile (· != 0) with
  | [] => .error .malformedString
  | _ :: rest =>
    match Bytes.toString? (b.takeWhile (· != 0)) with
    | some s => .ok (s, rest)
    | none => .error .malformedString

/-- The byte of one command and of no other. -/
def command (c : Command) : Reader Unit := do
  ensure 1
  let actual ← byte
  if actual = c.code then return () else fail (.unexpectedOpcode c.code actual)

def verdict : Reader Verdict := do
  ensure 1
  let code ← byte
  match Verdict.ofCode? code with
  | some v => return v
  | none => fail (.unknownResult code)

def decode {α : Type} (r : Reader α) (b : Bytes) : Except WireError α := (r.run b).map (·.1)

end Reader

end RealmLogon
