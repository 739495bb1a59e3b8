import RealmLogon.Session.Challenge
import RealmLogon.Session.Proof

/-! The realm list, and the choice of the handler for a frame. -/

namespace RealmLogon.Session

def audience (s : Session) (m : Member) : Audience := ⟨s.build, s.expansion, m.security, s.peer.ip⟩

/-- Answer a request for the realm list. Numbers of characters that the directory does not give count as
zero. -/
def realmList (svc : Service) (s : Session) : Flow Outcome :=
  match s.account with
  | none => s.fail (.missingState .account)
  | some m =>
    .call (.countsByAccount m.id) fun (r : Except DirectoryError CharacterCounts) =>
      .ask .realms fun realms =>
        let counts := r.toOption.getD []
        { s with phase := .authed }.reply
          (RealmList.encode s.expansion (Announcement.entries svc.builds (s.audience m) counts realms))

/-- Answer one complete frame. Files are never transferred. -/
def dispatch (svc : Service) (s : Session) (c : Command) (frame : Bytes) : Flow Outcome :=
  match c with
  | .logonChallenge => logonChallenge svc s frame
  | .logonProof => logonProof svc s frame
  | .reconnectChallenge => reconnectChallenge svc s frame
  | .reconnectProof => reconnectProof svc s frame
  | .realmList => realmList svc s
  | .xferInitiate | .xferData | .xferAccept | .xferResume | .xferCancel => s.fail (.xferRejected c.code)

end RealmLogon.Session
