import RealmLogon.Exchange.Client
import RealmLogon.Probe.Identity
import RealmLogon.Probe.Peer
import RealmLogon.Wire.LogonProof
import RealmLogon.Wire.RealmList
import RealmLogon.Wire.Reconnect

/-! The client's side of a conversation: a password logon, the resumption of an earlier logon and the
realm list, against any far end. Each of them ends at the first thing that goes wrong. -/

namespace RealmLogon

open Exchange

/-- What a server answered with a refusal. -/
inductive Round where
  | logonChallenge | logonProof | reconnectChallenge | reconnectProof
  deriving DecidableEq, Repr

def Round.title : Round → String
  | logonChallenge => "Logon challenge"
  | logonProof => "Logon proof"
  | reconnectChallenge => "Reconnect challenge"
  | reconnectProof => "Reconnect proof"

inductive ProbeError where
  /-- The connection was closed before a message could be sent. -/
  | notSent
  | malformed (e : WireError)
  /-- The stream ended within a reply, after so many bytes of it. -/
  | closedAfter (bytes : Nat)
  | rejected (round : Round) (v : Verdict)
  | degenerateKey
  | tokenRequired
  | wrongServerProof
  deriving DecidableEq, Repr

def ProbeError.causes : ProbeError → List String
  | notSent => ["Failed to send to server", "broken pipe"]
  | malformed e => ["Malformed server response", e.message]
  | closedAfter n => [s!"Server closed the connection after {n} bytes"]
  | rejected round v => [s!"{round.title} rejected: {v.name}"]
  | degenerateKey => ["Server sent a degenerate public key"]
  | tokenRequired => ["Server requires an authenticator token"]
  | wrongServerProof => ["Server proof does not match, the server does not know the verifier"]

/-- A part of a conversation: it changes the far end and the world, and gives a result or fails. -/
abbrev Talk (σ : Type) : Type → Type := ExceptT ProbeError (StateM (σ × World))

namespace Talk

variable {σ : Type} [Peer σ] {α : Type}

def send (b : Bytes) : Talk σ Unit := fun s =>
  match Peer.send b s with
  | some s => (.ok (), s)
  | none => (.error .notSent, s)

/-- Read until the decoder accepts what has come. What comes after a reply in the same read is lost. -/
def receiveAfter (decode : Bytes → Except WireError α) (buffer : Bytes) (s : σ × World) :
    Except ProbeError α × (σ × World) :=
  match decode buffer with
  | .ok a => (.ok a, s)
  | .error (.packetTooSmall _ _) =>
    let r := Peer.read s
    if _h : r.1 = [] then (.error (.closedAfter buffer.length), r.2)
    else receiveAfter decode (buffer ++ r.1) r.2
  | .error e => (.error (.malformed e), s)
termination_by Peer.stock s.1
decreasing_by exact Peer.stock_read s _h

def receive (decode : Bytes → Except WireError α) : Talk σ α := fun s => receiveAfter decode [] s

def draw (n : Nat) : Talk σ (Octets n) := fun s =>
  (.ok (s.2.entropy.peek n), s.1, { s.2 with entropy := s.2.entropy.skip n })

def clock : Talk σ Int := fun s => (.ok s.2.clock, s)

def receiveOffer : Talk σ ChallengeOffer := do
  match ← receive ChallengeReply.decode with
  | .offer o => return o
  | .failure v => throw (.rejected .logonChallenge v)

def tokenFor (o : ChallengeOffer) (source : TokenSource) : Talk σ (Option String) := do
  if o.securityFlags &&& SecurityFlag.authenticator = 0 then return none
  match source.current (← clock) with
  | some token => return some token
  | none => throw .tokenRequired

/-- The server's proof in a reply of either layout. -/
def receiveServerProof (e : Expansion) : Talk σ Digest := do
  match ← receive fun b => LogonProofReply.decode b e with
  | .extended proof _ _ _ => return proof
  | .legacy proof _ => return proof
  | .failure v => throw (.rejected .logonProof v)

/-- Log on with a password. The result is the session key. -/
def logon (i : Identity) (password : String) (source : TokenSource) : Talk σ SessionKey := do
  send (i.challenge .logonChallenge).encode
  let o ← receiveOffer
  let privateKey ← draw 32
  let some c := Client.answer i.canonicalLogin (Text.Latin.upper password) o.salt o.serverKey privateKey
    | throw .degenerateKey
  let token ← tokenFor o source
  let versionProof := Exchange.versionProof c.publicKey.toList (i.executableHash.getD (.zero 20))
  send (LogonProof.encode ⟨c.publicKey, c.proof, versionProof, 0, 0, token⟩)
  let serverProof ← receiveServerProof i.expansion
  if serverProof ≠ c.expectedProof then throw .wrongServerProof
  return c.sessionKey

def receiveNonce : Talk σ Nonce := do
  match ← receive ReconnectChallengeReply.decode with
  | .nonce n _ => return n
  | .failure v => throw (.rejected .reconnectChallenge v)

def reconnect (i : Identity) (key : SessionKey) : Talk σ Unit := do
  send (i.challenge .reconnectChallenge).encode
  let nonce ← receiveNonce
  let clientRandom ← draw 16
  send (ReconnectProof.encode ⟨clientRandom, reconnectProof i.canonicalLogin clientRandom nonce key,
    Exchange.versionProof clientRandom.toList (.zero 20), 0⟩)
  match ← receive ReconnectProofReply.decode with
  | .success => return ()
  | .failure v => throw (.rejected .reconnectProof v)

def realmList (i : Identity) : Talk σ (List RealmEntry) := do
  send realmListRequest
  receive fun b => RealmList.decode b i.expansion

end Talk

end RealmLogon
