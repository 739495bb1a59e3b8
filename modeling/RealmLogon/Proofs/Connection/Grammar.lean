import RealmLogon.Proofs.Connection.Chronicle
import RealmLogon.Proofs.Wire.Inversion

/-! The language of a connection: which sequences of replies a client can see, which sequences of calls the directory
can see, and what each of them stands next to. -/

namespace RealmLogon

open Exchange Text

namespace Event

def reply? : Event → Option Bytes
  | replied b => some b
  | _ => none

def call? : Event → Option Directory.Call
  | asked (.call c) _ => some c
  | _ => none

end Event

namespace Connection

open Session

def replies (t : List Event) : List Bytes := t.filterMap Event.reply?

def calls (t : List Event) : List Directory.Call := t.filterMap Event.call?

@[simp] theorem replies_append (t u : List Event) : replies (t ++ u) = replies t ++ replies u :=
  List.filterMap_append

@[simp] theorem replies_cons (e : Event) (t : List Event) : replies (e :: t) = e.reply?.toList ++ replies t := by
  cases h : e.reply? <;> simp [replies, h]

@[simp] theorem calls_append (t u : List Event) : calls (t ++ u) = calls t ++ calls u := List.filterMap_append

def IsRealmList (b : Bytes) : Prop := ∃ e realms, b = RealmList.encode e realms

def IsFailure (b : Bytes) : Prop :=
  ∃ v : Verdict, v ≠ .success ∧
    (b = (ChallengeReply.failure v).encode ∨ b = (LogonProofReply.failure v).encode ∨
      b = (ReconnectChallengeReply.failure v).encode ∨ b = (ReconnectProofReply.failure v).encode)

/-- The replies of a whole connection. -/
inductive Script : List Bytes → Prop
  | turnedAway : Script [[0x00, 0x00, 0x03]]
  | logonRefused {v : Verdict} (hv : v ≠ .success) : Script [(ChallengeReply.failure v).encode]
  | proofRefused (o : ChallengeOffer) {v : Verdict} (hv : v ≠ .success) :
      Script [(ChallengeReply.offer o).encode, (LogonProofReply.failure v).encode]
  | loggedOn (o : ChallengeOffer) (e : Expansion) (proof : Digest) {lists : List Bytes}
      (hl : ∀ b ∈ lists, IsRealmList b) :
      Script ((ChallengeReply.offer o).encode :: (acceptance e proof).encode :: lists)
  | reconnectRefused {v : Verdict} (hv : v ≠ .success) : Script [(ReconnectChallengeReply.failure v).encode]
  | resumptionRefused (nonce : Nonce) (salt : Octets 16) {v : Verdict} (hv : v ≠ .success) :
      Script [(ReconnectChallengeReply.nonce nonce salt).encode, (ReconnectProofReply.failure v).encode]
  | resumed (nonce : Nonce) (salt : Octets 16) {lists : List Bytes} (hl : ∀ b ∈ lists, IsRealmList b) :
      Script ((ReconnectChallengeReply.nonce nonce salt).encode :: ReconnectProofReply.success.encode :: lists)

/-- The calls of a whole connection. -/
inductive Inquiry (peer : Endpoint) : List Directory.Call → Prop
  | admitted : Inquiry peer [.isIpBanned peer.ip]
  | found (login : String) : Inquiry peer [.isIpBanned peer.ip, .fetchByLogin login]
  | counted (login name : String) :
      Inquiry peer [.isIpBanned peer.ip, .fetchByLogin login, .recordFailedLogin name]
  | banned (login name : String) (target : BanTarget) (seconds : Nat) :
      Inquiry peer [.isIpBanned peer.ip, .fetchByLogin login, .recordFailedLogin name, .autoBan target seconds]
  | stored (login : String) (record : LogonRecord) (account : UInt32) (lists : Nat) :
      Inquiry peer (.isIpBanned peer.ip :: .fetchByLogin login :: .persistLogon record ::
        List.replicate lists (.countsByAccount account))
  | resumed (login : String) (account : UInt32) (lists : Nat) :
      Inquiry peer (.isIpBanned peer.ip :: .fetchByLogin login :: List.replicate lists (.countsByAccount account))

def declaredSize (frame : Bytes) : Nat := LittleEndian.value ((frame.drop 2).take 2)

/-- Where an event may stand, by what came before it. -/
def Placed (peer : Endpoint) (before : List Event) : Event → Prop
  | .asked (.call (.isIpBanned ip)) _ => before = [] ∧ ip = peer.ip
  | .asked (.call (.fetchByLogin login)) _ => ∃ earlier command frame c,
      before = earlier ++ [.taken .challenge command frame] ∧ Challenge.decode frame = .ok c ∧
        declaredSize frame = 30 + (Bytes.ofString c.login).length ∧ login = Latin.upper c.login
  | .asked (.call (.persistLogon _)) _ => ∃ earlier frame now,
      before = earlier ++ [.taken .logonProof .logonProof frame, .asked .now now]
  | .asked (.call (.recordFailedLogin _)) _ => ∃ earlier frame,
      before = earlier ++ [.taken .logonProof .logonProof frame]
  | .asked (.call (.autoBan ..)) _ => ∃ earlier login n,
      before = earlier ++ [.called (.recordFailedLogin login) (.ok n)]
  | .asked (.call (.countsByAccount _)) _ => ∃ earlier frame, before = earlier ++ [.taken .authed .realmList frame]
  | .asked (.call .listRealms) _ => False
  | .asked .now _ => True
  | .asked (.draw _) _ => True
  | .asked .realms _ => ∃ earlier account counts, before = earlier ++ [.called (.countsByAccount account) counts]
  | .taken .. => True
  | .replied b => IsRealmList b → ∃ earlier realms, before = earlier ++ [.asked .realms realms]

/-- Every entry of a list stands in a relation to the ones before it. -/
def Throughout {α : Type} (P : List α → α → Prop) (before : List α) : List α → Prop
  | [] => True
  | a :: l => P before a ∧ Throughout P (before ++ [a]) l

abbrev OrderlyFrom (peer : Endpoint) (before t : List Event) : Prop := Throughout (Placed peer) before t

section Throughout

variable {α : Type} {P : List α → α → Prop} {before l m : List α} {a : α}

theorem throughout_append : Throughout P before (l ++ m) ↔ Throughout P before l ∧ Throughout P (before ++ l) m := by
  induction l generalizing before with
  | nil => simp [Throughout]
  | cons a l ih => simp [Throughout, ih, and_assoc]

theorem Throughout.at (h : Throughout P [] (l ++ a :: m)) : P l a := by
  obtain ⟨-, ha, -⟩ := throughout_append.mp h
  exact ha

end Throughout

variable {svc : Service} {peer : Endpoint} {before t u es : List Event} {e : Event} {s : Session} {m : Member}
  {b : Bytes} {frame : Bytes} {out : Bytes} {c : Connection} {w : World}

def resultOf : Bytes → Option UInt8
  | 0x00 :: _ :: v :: _ => some v
  | 0x10 :: _ => none
  | _ :: v :: _ => some v
  | _ => none

theorem code_ne_zero {v : Verdict} (hv : v ≠ .success) : v.code ≠ 0 := by
  cases v <;> first | exact absurd rfl hv | decide

theorem resultOf_failure (h : IsFailure b) : ∃ code, code ≠ 0 ∧ resultOf b = some code := by
  obtain ⟨v, hv, rfl | rfl | rfl | rfl⟩ := h
  · exact ⟨v.code, code_ne_zero hv, rfl⟩
  · exact ⟨v.code, code_ne_zero hv, rfl⟩
  · exact ⟨v.code, code_ne_zero hv, rfl⟩
  · exact ⟨v.code, code_ne_zero hv, rfl⟩

theorem not_isFailure (h : resultOf b = some 0 ∨ resultOf b = none) : ¬IsFailure b := by
  intro hf
  obtain ⟨code, hc, he⟩ := resultOf_failure hf
  rcases h with h | h
  · rw [h, Option.some.injEq] at he
    exact hc he.symm
  · rw [h] at he
    cases he

theorem resultOf_acceptance (e : Expansion) (proof : Digest) : resultOf (acceptance e proof).encode = some 0 := by
  unfold acceptance
  split <;> rfl

theorem IsRealmList.not_isFailure (h : IsRealmList b) : ¬IsFailure b := by
  obtain ⟨e, realms, rfl⟩ := h
  exact Connection.not_isFailure (.inr rfl)

theorem Script.not_isFailure_of_dropLast {rs : List Bytes} (h : Script rs) : ∀ b ∈ rs.dropLast, ¬IsFailure b := by
  have hoffer (o : ChallengeOffer) : ¬IsFailure (ChallengeReply.offer o).encode := not_isFailure (.inl rfl)
  have hnonce (nonce : Nonce) (salt : Octets 16) : ¬IsFailure (ReconnectChallengeReply.nonce nonce salt).encode :=
    not_isFailure (.inl rfl)
  cases h with
  | turnedAway => simp
  | logonRefused hv => simp
  | reconnectRefused hv => simp
  | proofRefused o hv => simpa using hoffer o
  | resumptionRefused nonce salt hv => simpa using hnonce nonce salt
  | loggedOn o e proof hl =>
    intro b hb
    rcases List.mem_cons.mp (List.dropLast_subset _ hb) with rfl | hb
    · exact hoffer o
    rcases List.mem_cons.mp hb with rfl | hb
    · exact not_isFailure (.inl (resultOf_acceptance e proof))
    · exact (hl b hb).not_isFailure
  | resumed nonce salt hl =>
    intro b hb
    rcases List.mem_cons.mp (List.dropLast_subset _ hb) with rfl | hb
    · exact hnonce nonce salt
    rcases List.mem_cons.mp hb with rfl | hb
    · exact not_isFailure (.inl rfl)
    · exact (hl b hb).not_isFailure

theorem Script.nil_of_failure {rs before after : List Bytes} (h : Script rs) (hp : before ++ b :: after <+: rs)
    (hf : IsFailure b) : after = [] := by
  cases after with
  | nil => rfl
  | cons next after =>
    obtain ⟨more, rfl⟩ := hp
    exact absurd hf (h.not_isFailure_of_dropLast b (by simp [List.dropLast_append_of_ne_nil]))

/-! What the histories between two frames come to. -/

@[simp] theorem replies_listing (frame : Bytes) (counts : Except DirectoryError CharacterCounts)
    (realms : List Realm) : replies (listing svc s m frame counts realms) = [RealmList.encode s.expansion
      (Announcement.entries svc.builds (s.audience m) (counts.toOption.getD []) realms)] := rfl

@[simp] theorem calls_listing (frame : Bytes) (counts : Except DirectoryError CharacterCounts)
    (realms : List Realm) : calls (listing svc s m frame counts realms) = [.countsByAccount m.id] := rfl

@[simp] theorem replies_offer (o : Offer) :
    replies (o.history peer) = [(offerFor o.exchange o.secret).encode] := rfl

@[simp] theorem calls_offer (o : Offer) : calls (o.history peer) =
    [.isIpBanned peer.ip, .fetchByLogin (Latin.upper o.challenge.login)] := rfl

@[simp] theorem replies_resumption (r : Resumption) :
    replies (r.history peer) = [(ReconnectChallengeReply.nonce r.nonce versionChallenge).encode] := rfl

@[simp] theorem calls_resumption (r : Resumption) : calls (r.history peer) =
    [.isIpBanned peer.ip, .fetchByLogin (Latin.upper r.challenge.login)] := rfl

theorem replies_listings (h : Listings svc s m t) : ∀ b ∈ replies t, IsRealmList b := by
  induction h with
  | none => exact fun b hb => absurd hb List.not_mem_nil
  | more h frame counts realms ih =>
    intro b hb
    rw [replies_append, replies_listing] at hb
    rcases List.mem_append.mp hb with hb | hb
    · exact ih b hb
    · exact ⟨_, _, List.mem_singleton.mp hb⟩

theorem calls_listings (h : Listings svc s m t) : ∃ n, calls t = List.replicate n (.countsByAccount m.id) := by
  induction h with
  | none => exact ⟨0, rfl⟩
  | more h frame counts realms ih =>
    obtain ⟨n, hn⟩ := ih
    exact ⟨n + 1, by rw [calls_append, hn, calls_listing, List.replicate_succ']⟩

theorem replies_proofRefused {o : Offer} {p : LogonProof} {v : Verdict} (h : ProofRefused svc peer o p es v) :
    v ≠ .success ∧ replies es = [] := by
  cases h with
  | wrongPassword hx hc => cases hc <;> exact ⟨by simp, rfl⟩
  | unvouched hx hv => exact ⟨by simp, rfl⟩
  | unstored hx hv e => exact ⟨by simp, rfl⟩

theorem script_of_chronicle (h : Chronicle svc peer t s) : ∃ rs, Script rs ∧ replies t <+: rs := by
  cases h with
  | opened hb => exact ⟨_, .turnedAway, List.nil_prefix⟩
  | turnedAway hb => exact ⟨_, .turnedAway, List.prefix_rfl⟩
  | logonRefused hb hd r hv hs => exact ⟨_, .logonRefused hv, List.prefix_rfl⟩
  | reconnectRefused hb hd r hv hs => exact ⟨_, .reconnectRefused hv, List.prefix_rfl⟩
  | offered o ho =>
    have hv : Verdict.unknownAccount ≠ .success := by decide
    exact ⟨_, .proofRefused _ hv, [_], rfl⟩
  | proofRefused o ho hd hr hs =>
    obtain ⟨hv, he⟩ := replies_proofRefused hr
    rw [replies_append, replies_append, replies_cons, he, replies_offer]
    exact ⟨_, .proofRefused _ hv, List.prefix_rfl⟩
  | loggedOn l hl hr =>
    rw [replies_append]
    exact ⟨_, .loggedOn _ _ _ (replies_listings hr), List.prefix_rfl⟩
  | resuming r hr =>
    have hv : Verdict.unknownAccount ≠ .success := by decide
    exact ⟨_, .resumptionRefused _ _ hv, [_], rfl⟩
  | resumptionRefused r hr hd hs =>
    have hv : Verdict.versionInvalid ≠ .success := by decide
    exact ⟨_, .resumptionRefused _ _ hv, List.prefix_rfl⟩
  | resumed r hg hr =>
    rw [replies_append]
    exact ⟨_, .resumed _ _ (replies_listings hr), List.prefix_rfl⟩

theorem inquiry_of_chronicle (h : Chronicle svc peer t s) : ∃ cs, Inquiry peer cs ∧ calls t <+: cs := by
  cases h with
  | opened hb => exact ⟨_, .admitted, List.prefix_rfl⟩
  | turnedAway hb => exact ⟨_, .admitted, List.prefix_rfl⟩
  | logonRefused hb hd r hv hs => exact ⟨_, .found _, List.prefix_rfl⟩
  | reconnectRefused hb hd r hv hs => exact ⟨_, .found _, List.prefix_rfl⟩
  | offered o ho => exact ⟨_, .found _, List.prefix_rfl⟩
  | proofRefused o ho hd hr hs =>
    cases hr with
    | wrongPassword hx hc =>
      cases hc with
      | uncounted hm => exact ⟨_, .found _, List.prefix_rfl⟩
      | uncountable hm e => exact ⟨_, .counted _ _, List.prefix_rfl⟩
      | counted hm hn => exact ⟨_, .counted _ _, List.prefix_rfl⟩
      | banned hm hn r => exact ⟨_, .banned _ _ _ _, List.prefix_rfl⟩
    | unvouched hx hv => exact ⟨_, .found _, List.prefix_rfl⟩
    | unstored hx hv e => exact ⟨_, .stored _ _ 0 0, List.prefix_rfl⟩
  | loggedOn l hl hr =>
    obtain ⟨n, hn⟩ := calls_listings hr
    rw [calls_append, hn]
    exact ⟨_, .stored _ _ _ n, List.prefix_rfl⟩
  | resuming r hr => exact ⟨_, .found _, List.prefix_rfl⟩
  | resumptionRefused r hr hd hs => exact ⟨_, .found _, List.prefix_rfl⟩
  | resumed r hg hr =>
    obtain ⟨n, hn⟩ := calls_listings hr
    rw [calls_append, hn]
    exact ⟨_, .resumed _ _ n, List.prefix_rfl⟩

/-! What stands next to what. -/

/-- A challenge is read only if it declares its size with the length of the login. -/
theorem declaredSize_of_decode {challenge : Challenge} (h : Challenge.decode frame = .ok challenge) :
    declaredSize frame = 30 + (Bytes.ofString challenge.login).length := by
  obtain ⟨rest, hr⟩ := Reader.decode_eq_ok h
  obtain ⟨-, hl, rfl⟩ := Challenge.read_eq_ok hr
  have hz : Challenge.sizedHeader = 30 := rfl
  have hm : Challenge.maxLogin = 16 := rfl
  have hp : Nat.pow 256 2 = 65536 := rfl
  have hd : declaredSize (challenge.encode ++ rest) = LittleEndian.value
      (LittleEndian.digits 2 (Challenge.sizedHeader + (Bytes.ofString challenge.login).length)) := by
    simp only [declaredSize, Challenge.encode, List.append_assoc]
    rfl
  rw [hd, LittleEndian.value_digits, hp, hz]
  omega

theorem placed_fetchByLogin {command : Command} {challenge : Challenge}
    (hd : Challenge.decode frame = .ok challenge) (r : Except DirectoryError (Option Account)) :
    Placed peer (before ++ [.taken .challenge command frame]) (.called (lookup challenge) r) :=
  ⟨before, command, frame, challenge, rfl, hd, declaredSize_of_decode hd, rfl⟩

theorem placed_replied (code : UInt8) (hb : b.head? = some code) (hc : code ≠ 0x10) :
    Placed peer before (.replied b) := by
  rintro ⟨e, realms, rfl⟩
  exact absurd (Option.some.inj hb).symm hc

theorem orderlyFrom_offer {o : Offer} (ho : o.Granted svc peer) : OrderlyFrom peer [] (o.history peer) :=
  ⟨⟨rfl, rfl⟩, trivial, placed_fetchByLogin ho.decodes _, trivial, placed_replied 0x00 rfl (by decide), trivial⟩

theorem orderlyFrom_resumption {r : Resumption} (hr : r.Granted svc peer) :
    OrderlyFrom peer [] (r.history peer) :=
  ⟨⟨rfl, rfl⟩, trivial, placed_fetchByLogin hr.decodes _, trivial, placed_replied 0x02 rfl (by decide), trivial⟩

theorem orderlyFrom_listings (h : Listings svc s m t) : OrderlyFrom peer before t := by
  induction h with
  | none => trivial
  | more h frame counts realms ih =>
    refine throughout_append.mpr ⟨ih, trivial, ⟨_, _, rfl⟩, ⟨_, _, _, rfl⟩, ?_, trivial⟩
    exact fun _ => ⟨_, _, rfl⟩

theorem orderlyFrom_proofRefused {o : Offer} {p : LogonProof} {v : Verdict} (h : ProofRefused svc peer o p es v)
    (frame : Bytes) : OrderlyFrom peer (before ++ [.taken .logonProof .logonProof frame]) es := by
  cases h with
  | wrongPassword hx hc =>
    cases hc with
    | uncounted hm => trivial
    | uncountable hm e => exact ⟨⟨_, _, rfl⟩, trivial⟩
    | counted hm hn => exact ⟨⟨_, _, rfl⟩, trivial⟩
    | banned hm hn r => exact ⟨⟨_, _, rfl⟩, ⟨_, _, _, rfl⟩, trivial⟩
  | unvouched hx hv => exact ⟨trivial, trivial⟩
  | unstored hx hv e => exact ⟨trivial, ⟨before, frame, _, List.append_assoc ..⟩, trivial⟩

theorem orderlyFrom_of_chronicle (h : Chronicle svc peer t s) : OrderlyFrom peer [] t := by
  cases h with
  | opened hb => exact ⟨⟨rfl, rfl⟩, trivial⟩
  | turnedAway hb => exact ⟨⟨rfl, rfl⟩, placed_replied 0x00 rfl (by decide), trivial⟩
  | logonRefused hb hd r hv hs =>
    exact ⟨⟨rfl, rfl⟩, trivial, placed_fetchByLogin hd r, placed_replied 0x00 rfl (by decide), trivial⟩
  | reconnectRefused hb hd r hv hs =>
    exact ⟨⟨rfl, rfl⟩, trivial, placed_fetchByLogin hd r, placed_replied 0x02 rfl (by decide), trivial⟩
  | offered o ho => exact orderlyFrom_offer ho
  | proofRefused o ho hd hr hs =>
    rename_i frame p es v
    have hproof : OrderlyFrom peer [] (o.history peer ++ .taken .logonProof .logonProof frame :: es) :=
      throughout_append.mpr ⟨orderlyFrom_offer ho, trivial, orderlyFrom_proofRefused hr frame⟩
    exact throughout_append.mpr ⟨hproof, placed_replied 0x01 rfl (by decide), trivial⟩
  | loggedOn l hl hr =>
    refine throughout_append.mpr ⟨throughout_append.mpr ⟨orderlyFrom_offer hl.granted, ?_⟩, orderlyFrom_listings hr⟩
    refine ⟨trivial, trivial, ⟨_, _, _, List.append_assoc ..⟩, placed_replied 0x01 ?_ (by decide), trivial⟩
    unfold acceptance
    split <;> rfl
  | resuming r hr => exact orderlyFrom_resumption hr
  | resumptionRefused r hr hd hs =>
    exact throughout_append.mpr ⟨orderlyFrom_resumption hr, trivial, placed_replied 0x03 rfl (by decide), trivial⟩
  | resumed r hg hr =>
    have hresumed : OrderlyFrom peer [] (r.history peer) :=
      throughout_append.mpr ⟨orderlyFrom_resumption hg.granted, trivial, placed_replied 0x03 rfl (by decide), trivial⟩
    exact throughout_append.mpr ⟨hresumed, orderlyFrom_listings hr⟩

/-! From histories between two frames to conversations. -/

/-- A frame that has only been taken up adds neither a reply nor a call. -/
theorem chronicle_of_overture (h : Overture svc peer t) :
    ∃ u s, Chronicle svc peer u s ∧ replies t <+: replies u ∧ calls t <+: calls u := by
  cases h with
  | within h hp => exact ⟨_, _, h, hp.filterMap _, hp.filterMap _⟩
  | taken h hn =>
    rename_i u s c frame
    have hr : replies (u ++ [.taken s.phase c frame]) = replies u := by
      rw [replies_append]
      exact List.append_nil _
    have hc : calls (u ++ [.taken s.phase c frame]) = calls u := by
      rw [calls_append]
      exact List.append_nil _
    exact ⟨u, s, chronicle_of_served h, hr ▸ List.prefix_rfl, hc ▸ List.prefix_rfl⟩

theorem orderlyFrom_of_overture (h : Overture svc peer t) : OrderlyFrom peer [] t := by
  cases h with
  | within h hp =>
    obtain ⟨more, rfl⟩ := hp
    exact (throughout_append.mp (orderlyFrom_of_chronicle h)).1
  | taken h hn =>
    exact throughout_append.mpr ⟨orderlyFrom_of_chronicle (chronicle_of_served h), trivial, trivial⟩

theorem code_of_rule {opcode : UInt8} {r : Frame.Rule} (h : Frame.rule opcode = .ok r) :
    opcode = r.command.code := by
  unfold Frame.rule at h
  cases hc : Command.ofCode? opcode with
  | none => simp [hc] at h
  | some c =>
    have ho := Command.eq_code_of_ofCode? hc
    simp only [hc] at h
    cases c <;> cases h <;> exact ho

theorem due_opcode {n : Nat} {command : Command} (hn : s.nextFrame b = .ok (some (command, n))) :
    Due s.phase command ∧ b.head? = some command.code := by
  refine ⟨due_of_nextFrame hn, ?_⟩
  obtain ⟨opcode, rest, r, rfl, hr, -, rfl, -, -⟩ := nextFrame_eq_some hn
  rw [List.head?_cons, code_of_rule hr]

/-- A frame that was taken up is a whole one that a session was waiting for. -/
def Awaited (phase : Phase) (command : Command) (frame : Bytes) : Prop :=
  ∃ s : Session, s.Coherent ∧ s.phase = phase ∧ s.nextFrame frame = .ok (some (command, frame.length))

theorem awaited_of_served (h : Served svc peer t s) :
    ∀ phase command frame, .taken phase command frame ∈ t → Awaited phase command frame := by
  induction h with
  | admitted hb => simp
  | turnedAway hb => simp
  | answered h hn hy ih =>
    intro phase command frame hm
    simp only [List.append_assoc, List.cons_append, List.mem_append, List.mem_cons, List.not_mem_nil, reduceCtorEq,
      or_false] at hm
    rcases hm with hm | hm | hm
    · exact ih phase command frame hm
    · cases hm
      exact ⟨_, coherent_of_served h, rfl, hn⟩
    · obtain ⟨q, a, he⟩ := hy.eq_asked _ hm
      cases he

theorem awaited_of_answering {phase : Phase} {f : Flow Outcome} (h : Answering svc peer t s phase f) :
    ∀ phase command frame, .taken phase command frame ∈ t → Awaited phase command frame := by
  intro phase command frame hm
  cases h with
  | taken h hn hl =>
    rcases List.mem_append.mp hm with hm | hm
    · exact awaited_of_served h phase command frame hm
    · rcases List.mem_cons.mp hm with he | hm
      · cases he
        exact ⟨_, coherent_of_served h, rfl, hn⟩
      · obtain ⟨q, a, he⟩ := hl.eq_asked _ hm
        cases he

theorem awaited_of_held (h : Held svc peer t c) :
    ∀ phase command frame, .taken phase command frame ∈ t → Awaited phase command frame := by
  have hadmission {f : Flow Bool} (hl : (admission peer.ip).Leads t f) :
      ∀ phase command frame, .taken phase command frame ∈ t → Awaited phase command frame := by
    intro phase command frame hm
    obtain ⟨q, a, he⟩ := hl.eq_asked _ hm
    cases he
  unfold Held at h
  split at h
  · exact hadmission h.2.2
  · exact awaited_of_answering h
  · exact awaited_of_served h
  · exact awaited_of_served h
  · generalize c.session = s at h
    cases h with
    | unadmitted h phase => exact hadmission h
    | rested h hr => exact awaited_of_served h
    | interrupted h => exact awaited_of_answering h
    | failed h => exact awaited_of_answering h

theorem due_of_held (h : Held svc peer t c) :
    ∀ phase command frame, .taken phase command frame ∈ t → Due phase command ∧ frame.head? = some command.code := by
  intro phase command frame hm
  obtain ⟨s, -, rfl, hn⟩ := awaited_of_held h phase command frame hm
  exact due_opcode hn

/-- A frame whose opcode belongs to another phase ends the connection; nothing is asked for it, and nothing is
sent. -/
theorem next_of_undue {opcode : UInt8} {rest : Bytes} {r : Frame.Rule} (hb : c.buffer = opcode :: rest)
    (hr : Frame.rule opcode = .ok r) (hp : r.phase ≠ c.session.phase) :
    c.next svc = c.finish (.error (.unexpectedState opcode c.session.phase)) ∧ upcoming c.session c.buffer = [] := by
  have hn : c.session.nextFrame c.buffer = .error (.unexpectedState opcode c.session.phase) := by
    simp only [nextFrame, hb, hr]
    rw [if_pos hp]
  simp only [next, upcoming, hn, and_self]

theorem flatMap_sent (t : List Event) : t.flatMap Event.sent = (replies t).flatten := by
  induction t with
  | nil => rfl
  | cons e t ih => cases e <;> simp [ih, Event.reply?]

/-! The calls of a run are the calls of its history. -/

theorem calls_answer (q : Query) (w : World) :
    (w.answer q).2.calls = (calls [.asked q (w.answer q).1]).reverse ++ w.calls := by
  cases q with
  | call call =>
    simp only [World.answer, World.call]
    split <;> rfl
  | now => rfl
  | draw n => rfl
  | realms => rfl

theorem calls_upcoming (s : Session) (b : Bytes) : calls (upcoming s b) = [] := by
  unfold upcoming
  split <;> rfl

/-- A move asks the world one question, or it leaves the world alone. -/
theorem move_cases (svc : Service) (c : Connection) (w : World) (m : Move) :
    (∃ q, c.moveTells w m = [.asked q (w.answer q).1] ∧ (c.move svc w m).2 = (w.answer q).2) ∨
      calls (c.moveTells w m) = [] ∧ (c.move svc w m).2 = w := by
  obtain ⟨s, b, d, a⟩ := c
  cases m with
  | decide =>
    cases a with
    | admitting f =>
      cases f with
      | done banned =>
        cases banned with
        | true => exact .inr ⟨rfl, rfl⟩
        | false => exact .inr ⟨calls_upcoming s b, rfl⟩
      | ask q k => exact .inl ⟨q, rfl, rfl⟩
    | deciding phase f =>
      cases f with
      | done o =>
        obtain ⟨s', r⟩ := o
        cases r <;> exact .inr ⟨rfl, rfl⟩
      | ask q k => exact .inl ⟨q, rfl, rfl⟩
    | writing phase rest => exact .inr ⟨rfl, rfl⟩
    | waiting => exact .inr ⟨rfl, rfl⟩
    | finished r => exact .inr ⟨rfl, rfl⟩
  | write time room =>
    refine .inr ⟨?_, rfl⟩
    simp only [moveTells, writeTells]
    split
    · split
      · exact calls_upcoming ..
      · rfl
    · rfl
  | receive chunk =>
    refine .inr ⟨?_, rfl⟩
    simp only [moveTells, receiveTells]
    split
    · split
      · rfl
      · exact calls_upcoming ..
    · rfl
  | endOfInput => exact .inr ⟨rfl, rfl⟩
  | expire => exact .inr ⟨rfl, rfl⟩

theorem calls_move (svc : Service) (c : Connection) (w : World) (m : Move) :
    (c.move svc w m).2.calls = (calls (c.moveTells w m)).reverse ++ w.calls := by
  obtain ⟨q, ht, hw⟩ | ⟨ht, hw⟩ := move_cases svc c w m
  · rw [ht, hw]
    exact calls_answer q w
  · rw [ht, hw]
    rfl

def Logged (svc : Service) (peer : Endpoint) (w₀ : World) (t : List Event) (out : Bytes) (c : Connection)
    (w : World) : Prop :=
  Conversation svc peer t out c w ∧ w.calls = (calls t).reverse ++ w₀.calls

theorem logged_append {w₀ w' : World} {out' : Bytes} {c' : Connection} (hw : w.calls = (calls t).reverse ++ w₀.calls)
    (h : Conversation svc peer (t ++ u) out' c' w') (hu : w'.calls = (calls u).reverse ++ w.calls) :
    Logged svc peer w₀ (t ++ u) out' c' w' :=
  ⟨h, by rw [hu, hw, calls_append, List.reverse_append, List.append_assoc]⟩

theorem kept_logged (svc : Service) (peer : Endpoint) (w₀ : World) : Kept svc (Logged svc peer w₀) where
  decide h := logged_append h.2 h.1.decide (calls_move svc _ _ .decide)
  write h time room := logged_append h.2 (h.1.write time room) (calls_move svc _ _ (.write time room))
  receive h chunk := logged_append h.2 (h.1.receive chunk) (calls_move svc _ _ (.receive chunk))
  endOfInput h := ⟨h.1.endOfInput, h.2⟩
  expire h := ⟨h.1.expire, h.2⟩

theorem kept_suffix (svc : Service) (cs : List Directory.Call) : Kept svc fun _ _ _ w => cs <:+ w.calls where
  decide {t out c w} h := by
    have hc := calls_move svc c w .decide
    simp only [move] at hc
    rw [hc]
    exact h.trans (List.suffix_append _ _)
  write h time room := h
  receive h chunk := h
  endOfInput h := h
  expire h := h

/-- The first thing that is done for a client is to ask whether its address is banned. -/
theorem calls_resolveAt_accept (svc : Service) (peer : Endpoint) (time now : Nat) (w : World) :
    ((accept svc peer time).resolveAt svc now w).2.calls = .isIpBanned peer.ip :: w.calls := by
  have hc : (w.call (.isIpBanned peer.ip)).2.calls = .isIpBanned peer.ip :: w.calls := by
    unfold World.call
    split <;> rfl
  unfold resolveAt
  split
  · simp only [resolveAtOnce, accept, admission, Flow.call, World.runAtOnce]
    split <;> exact hc
  · exact hc

theorem Inquiry.first {cs : List Directory.Call} (h : Inquiry peer cs) :
    ∃ rest, cs = .isIpBanned peer.ip :: rest ∧ ∀ ip, .isIpBanned ip ∉ rest := by
  cases h with
  | admitted => exact ⟨_, rfl, by simp⟩
  | found login => exact ⟨_, rfl, by simp⟩
  | counted login name => exact ⟨_, rfl, by simp⟩
  | banned login name target seconds => exact ⟨_, rfl, by simp⟩
  | stored login record account lists => exact ⟨_, rfl, by simp⟩
  | resumed login account lists => exact ⟨_, rfl, by simp⟩

/-- A run asks once whether the address of the client is banned, and nothing else before. -/
theorem calls_run (svc : Service) (peer : Endpoint) (chunks : List Bytes) (w : World) :
    ∃ t, Conversation svc peer t (run svc peer chunks w).1 (run svc peer chunks w).2.1
        (run svc peer chunks w).2.2 ∧
      (run svc peer chunks w).2.2.calls = (calls t).reverse ++ w.calls ∧
      ∃ rest, calls t = .isIpBanned peer.ip :: rest ∧ ∀ ip, .isIpBanned ip ∉ rest := by
  obtain ⟨t, ht, hc⟩ := Told.run (kept_logged svc peer w) ⟨.accept 0 w, rfl⟩ chunks
  have hasked : .isIpBanned peer.ip :: w.calls <:+ (run svc peer chunks w).2.2.calls := by
    have hfirst : .isIpBanned peer.ip :: w.calls <:+ ((accept svc peer 0).resolveAt svc 0 w).2.calls :=
      calls_resolveAt_accept svc peer 0 0 w ▸ List.suffix_rfl
    obtain ⟨-, hs⟩ := Told.run_of_resolved (kept_suffix svc _) ⟨[], hfirst⟩ chunks
    exact hs
  refine ⟨t, ht, hc, ?_⟩
  obtain ⟨u, s, hu, -, hp⟩ := chronicle_of_overture (overture_of_held (held_of_conversation ht))
  obtain ⟨cs, hi, hcs⟩ := inquiry_of_chronicle hu
  obtain ⟨rest, rfl, hrest⟩ := hi.first
  cases hcalls : calls t with
  | nil =>
    have hl := hasked.length_le
    rw [hc, hcalls, List.reverse_nil, List.nil_append, List.length_cons] at hl
    omega
  | cons call more =>
    rw [hcalls] at hp
    obtain ⟨rfl, hm⟩ := List.cons_prefix_cons.mp (hp.trans hcs)
    exact ⟨more, rfl, fun ip hip => hrest ip (hm.subset hip)⟩

/-- Whatever comes to a connection, the replies begin one of seven scripts, and nothing is sent after a refusal. The
directory is called in the order of six inquiries: the address first, the account only for a challenge that declares
its size right, a ban only after the count that led to it, and characters once for each realm list. A frame is taken
up only if its opcode is due; any other opcode ends the connection. -/
theorem conversation_grammar (svc : Service) (peer : Endpoint) :
    (∀ chunks w, ∃ t, Conversation svc peer t (run svc peer chunks w).1 (run svc peer chunks w).2.1
        (run svc peer chunks w).2.2 ∧
      (run svc peer chunks w).2.2.calls = (calls t).reverse ++ w.calls ∧
      ∃ rest, calls t = .isIpBanned peer.ip :: rest ∧ ∀ ip, .isIpBanned ip ∉ rest) ∧
    ∀ t out c w, Conversation svc peer t out c w →
      out <+: (replies t).flatten ∧
      (∃ rs, Script rs ∧ replies t <+: rs) ∧
      (∀ before b after, replies t = before ++ b :: after → IsFailure b → after = []) ∧
      (∃ cs, Inquiry peer cs ∧ calls t <+: cs) ∧
      (∀ before e after, t = before ++ e :: after → Placed peer before e) ∧
      (∀ phase command frame, .taken phase command frame ∈ t →
        Due phase command ∧ frame.head? = some command.code) ∧
      ∀ opcode rest r, c.buffer = opcode :: rest → Frame.rule opcode = .ok r → r.phase ≠ c.session.phase →
        c.next svc = c.finish (.error (.unexpectedState opcode c.session.phase)) ∧
          upcoming c.session c.buffer = [] := by
  refine ⟨calls_run svc peer, ?_⟩
  intro t out c w h
  have ho := overture_of_held (held_of_conversation h)
  obtain ⟨u, s, hu, hr, hc⟩ := chronicle_of_overture ho
  obtain ⟨rs, hrs, hscript⟩ := script_of_chronicle hu
  obtain ⟨cs, hcs, hinquiry⟩ := inquiry_of_chronicle hu
  refine ⟨?_, ⟨rs, hrs, hr.trans hscript⟩, ?_, ⟨cs, hcs, hc.trans hinquiry⟩, ?_, due_of_held (held_of_conversation h), ?_⟩
  · rw [← flatMap_sent]
    exact (balanced_of_conversation h).prefix_sent
  · intro before b after he hf
    exact hrs.nil_of_failure (he ▸ hr.trans hscript) hf
  · rintro before e after rfl
    exact (orderlyFrom_of_overture ho).at
  · intro opcode rest r hb hrule hp
    exact next_of_undue hb hrule hp

end Connection

end RealmLogon
