import RealmLogon.Text.Hex

/-! Why bytes are no message. -/

namespace RealmLogon

inductive WireError where
  | unknownOpcode (opcode : UInt8)
  | undispatchedOpcode (opcode : UInt8)
  | packetTooSmall (expected actual : Nat)
  | challengeTooLarge (limit actual : Nat)
  | sizeMismatch (declared loginLength : Nat)
  | invalidLogin
  | unexpectedOpcode (expected actual : UInt8)
  | unknownResult (code : UInt8)
  | invalidLength (field : String) (expected actual : Nat)
  | malformedString
  /-- A read past the end that nothing had guarded. -/
  | overrun
  deriving DecidableEq, Repr

def hexByte (b : UInt8) : String := "0x" ++ Hex.encode [b]

def WireError.message : WireError → String
  | .unknownOpcode b => s!"Unknown opcode: {hexByte b}"
  | .undispatchedOpcode b => s!"Opcode {hexByte b} is never dispatched"
  | .packetTooSmall e a => s!"Packet too small: expected at least {e}, got {a}"
  | .challengeTooLarge m a => s!"Challenge too large: maximum {m}, declared {a}"
  | .sizeMismatch d l => s!"Declared size {d} does not match login length {l}"
  | .invalidLogin => "Login name is not valid UTF-8"
  | .unexpectedOpcode e a => s!"Unexpected opcode: expected {hexByte e}, got {hexByte a}"
  | .unknownResult b => s!"Unknown result code: {hexByte b}"
  | .invalidLength f e a => s!"Invalid {f} length: expected {e}, got {a}"
  | .malformedString => "Malformed string field"
  | .overrun => "Read past the end of the packet"

end RealmLogon
