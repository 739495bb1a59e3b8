import RealmLogon.Wire.Challenge
import RealmLogon.Wire.LogonProof
import RealmLogon.Wire.RealmList
import RealmLogon.Wire.Reconnect

/-! Where one message ends and the next begins. Each opcode that is dispatched has a rule: the phase
it belongs to, and how many bytes tell the length of its frame. -/

namespace RealmLogon.Frame

structure Rule where
  command : Command
  phase : Phase
  /-- Bytes that must have come before the length is known. -/
  minSize : Nat
  deriving DecidableEq, Repr

def rule (opcode : UInt8) : Except WireError Rule :=
  match Command.ofCode? opcode with
  | none => .error (.unknownOpcode opcode)
  | some c =>
    match c with
    | .logonChallenge | .reconnectChallenge => .ok ⟨c, .challenge, 4⟩
    | .logonProof => .ok ⟨c, .logonProof, LogonProof.size⟩
    | .reconnectProof => .ok ⟨c, .reconnectProof, ReconnectProof.size⟩
    | .realmList => .ok ⟨c, .authed, realmListRequestSize⟩
    | .xferAccept | .xferCancel => .ok ⟨c, .xfer, 1⟩
    | .xferResume => .ok ⟨c, .xfer, 9⟩
    | .xferInitiate | .xferData => .error (.undispatchedOpcode opcode)

/-- The byte at a place; a place past the end is an overrun. -/
def byteAt (b : Bytes) (i : Nat) : Except WireError UInt8 :=
  match b[i]? with
  | some x => .ok x
  | none => .error .overrun

/-- A challenge declares its size in bytes 2 and 3. -/
def challengeLength (b : Bytes) : Except WireError (Option Nat) := do
  let low ← byteAt b 2
  let high ← byteAt b 3
  let total := 4 + LittleEndian.value [low, high]
  if Challenge.maxSize < total then .error (.challengeTooLarge Challenge.maxSize total) else .ok (some total)

/-- A proof with the authenticator flag goes on with the length of a token, and the token. -/
def proofLength (b : Bytes) : Except WireError (Option Nat) := do
  let flags ← byteAt b LogonProof.flagsAt
  if flags &&& SecurityFlag.authenticator = 0 then .ok (some LogonProof.size)
  else .ok (b[LogonProof.size]?.map fun n => LogonProof.size + 1 + n.toNat)

/-- The length of the frame at the front of the bytes, or none while more bytes are needed. -/
def Rule.length (r : Rule) (b : Bytes) : Except WireError (Option Nat) :=
  if b.length < r.minSize then .ok none
  else
    match r.command with
    | .logonChallenge | .reconnectChallenge => challengeLength b
    | .logonProof => proofLength b
    | _ => .ok (some r.minSize)

end RealmLogon.Frame
