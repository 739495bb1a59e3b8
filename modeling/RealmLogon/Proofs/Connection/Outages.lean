import Mathlib.Data.List.Forall2
import RealmLogon.Proofs.Connection.Dialogue
import RealmLogon.Proofs.Connection.Lockout
import RealmLogon.Proofs.Connection.Reading
import RealmLogon.Proofs.Connection.Visit
import RealmLogon.Proofs.Session.Failures

/-! Whole connections of which any calls of the directory fail. They go like connections in a world where these calls
give harmless answers, and no client gets further by them, but for one whose address is banned. -/

namespace RealmLogon.Connection

open Session

section Lags

variable {svc : Service} {peer : Endpoint} {d d' : Dialogue} {w w' : World}

/-- Two dialogues have said the like and have come to the same, in worlds that differ in failures only. -/
structure Parallel (svc : Service) (d d' : Dialogue) : Prop where
  replies : List.Forall₂ (Alike svc) d.replies d'.replies
  rest : d'.rest = d.rest
  world : d'.world.Mends d.world

/-- A dialogue ends with a refusal, and the other one has said the like of what comes before the refusal. -/
structure CutShort (svc : Service) (d d' : Dialogue) : Prop where
  replies : ∃ said refusal said' more, d.replies = said ++ [refusal] ∧ IsFailure refusal ∧
    d'.replies = said' ++ more ∧ List.Forall₂ (Alike svc) said said'
  rest : d.rest = .ended (.ok ())

/-- The first dialogue does not get further than the second one. -/
def Lags (svc : Service) (d d' : Dialogue) : Prop := Parallel svc d d' ∨ CutShort svc d d'

theorem Parallel.after (h : Parallel svc d d') {l l' : List Bytes} (hl : List.Forall₂ (Alike svc) l l') :
    Parallel svc (d.after l) (d'.after l') :=
  ⟨List.rel_append hl h.replies, h.rest, h.world⟩

theorem CutShort.after (h : CutShort svc d d') {l l' : List Bytes} (hl : List.Forall₂ (Alike svc) l l') :
    CutShort svc (d.after l) (d'.after l') := by
  obtain ⟨said, refusal, said', more, hd, hf, hd', hs⟩ := h.replies
  refine ⟨⟨l ++ said, refusal, l' ++ said', more, ?_, hf, ?_, List.rel_append hl hs⟩, h.rest⟩
  · rw [Dialogue.replies_after, hd, List.append_assoc]
  · rw [Dialogue.replies_after, hd', List.append_assoc]

theorem Lags.after (h : Lags svc d d') {l l' : List Bytes} (hl : List.Forall₂ (Alike svc) l l') :
    Lags svc (d.after l) (d'.after l') :=
  h.imp (·.after hl) (·.after hl)

/-- Once a dialogue has ended with a refusal, it does not matter what else is said in the other one. -/
theorem CutShort.more (h : CutShort svc d d') (w : World) (e : Dialogue) :
    CutShort svc (Dialogue.after ⟨[], d.rest, w⟩ d.replies) (e.after d'.replies) := by
  obtain ⟨said, refusal, said', more, hd, hf, hd', hs⟩ := h.replies
  refine ⟨⟨said, refusal, said', more ++ e.replies, ?_, hf, ?_, hs⟩, h.rest⟩
  · rw [Dialogue.replies_after, List.append_nil, hd]
  · rw [Dialogue.replies_after, hd', List.append_assoc]

theorem parallel_silent (i : Rest) (hw : w'.Mends w) : Parallel svc ⟨[], i, w⟩ ⟨[], i, w'⟩ := ⟨.nil, rfl, hw⟩

theorem cutShort_refused {b : Bytes} (hb : IsFailure b) (w : World) (d' : Dialogue) :
    CutShort svc ⟨[b], .ended (.ok ()), w⟩ d' :=
  ⟨⟨[], b, [], d'.replies, rfl, hb, rfl, .nil⟩, rfl⟩

theorem lags_replyTo (hw : w'.Mends w) (s : Session) (b : Bytes) :
    Lags svc (replyTo World.answer svc s b w) (replyTo World.answer svc s b w') := by
  induction hl : b.length using Nat.strongRecOn generalizing s b w w' with
  | ind l ih =>
    cases hn : s.nextFrame b with
    | error e =>
      rw [replyTo_of_error hn, replyTo_of_error hn]
      exact .inl (parallel_silent _ hw)
    | ok f =>
      cases f with
      | none =>
        rw [replyTo_of_none hn, replyTo_of_none hn]
        exact .inl (parallel_silent _ hw)
      | some f =>
        obtain ⟨c, n⟩ := f
        have hb := Session.nextFrame_bounds hn
        have hd : (b.drop n).length < l := by
          rw [List.length_drop]
          omega
        have hc := compares_dispatch svc hw s c (b.take n)
        rcases ho : w.run (s.dispatch svc c (b.take n)) with ⟨o, w₁⟩
        rcases ho' : w'.run (s.dispatch svc c (b.take n)) with ⟨o', w₁'⟩
        rw [ho, ho'] at hc
        cases hc with
        | refused hs hf =>
          -- The other dialogue may go on; nothing more is said in this one.
          rw [replyTo_of_closed hn ho hs]
          exact .inr (cutShort_refused hf _ _)
        | failed s' e hw =>
          rw [replyTo_of_failed hn ho, replyTo_of_failed hn ho']
          exact .inl (parallel_silent _ hw)
        | replied s' hr hw =>
          by_cases hs : s'.phase = .closed
          · rw [replyTo_of_closed hn ho hs, replyTo_of_closed hn ho' hs]
            exact .inl ⟨.cons hr .nil, rfl, hw⟩
          · rw [replyTo_of_replied hn ho hs, replyTo_of_replied hn ho' hs]
            exact (ih _ hd hw s' _ rfl).after (.cons hr .nil)

theorem lags_hear (hw : w'.Mends w) (chunk : Bytes) (i : Rest) :
    Lags svc (hear World.answer svc chunk w i) (hear World.answer svc chunk w' i) := by
  cases i with
  | waiting s b =>
    simp only [hear]
    split
    · exact .inl (parallel_silent _ hw)
    · exact lags_replyTo hw s _
  | ended r => exact .inl (parallel_silent _ hw)

theorem lags_hearAll (hw : w'.Mends w) (i : Rest) (chunks : List Bytes) :
    Lags svc (hearAll World.answer svc i w chunks) (hearAll World.answer svc i w' chunks) := by
  induction chunks generalizing i w w' with
  | nil => exact .inl (parallel_silent i hw)
  | cons chunk chunks ih =>
    simp only [hearAll]
    have hheard : Lags svc (hear World.answer svc chunk w i) (hear World.answer svc chunk w' i) := lags_hear hw chunk i
    obtain hp | hc := hheard
    · rw [hp.rest]
      exact (ih hp.world _).after hp.replies
    · let d' := hear World.answer svc chunk w' i
      have hm := hc.more (hear World.answer svc chunk w i).world (hearAll World.answer svc d'.rest d'.world chunks)
      rw [hc.rest] at hm ⊢
      rw [hearAll_ended]
      exact .inr hm

/-- No client gets further by failures, unless its address is banned and the failure is that this is not found out. -/
theorem lags_dialogue (hw : w'.Mends w)
    (hb : w.fails w.calls.length (.isIpBanned peer.ip) = true → w.store.isIpBanned w.clock peer.ip = false)
    (chunks : List Bytes) :
    Lags svc (dialogue World.answer svc peer chunks w) (dialogue World.answer svc peer chunks w') := by
  have hd' : w'.call (.isIpBanned peer.ip) =
      (.ok (w.store.isIpBanned w.clock peer.ip), w'.called (.isIpBanned peer.ip)) := by
    rw [World.call_eq hw.isHealthy, hw.store, hw.clock]
    rfl
  have ha' : (admission peer.ip).runWith World.answer w' =
      (w.store.isIpBanned w.clock peer.ip, w'.called (.isIpBanned peer.ip)) := World.run_of_call hd' _
  have hmends (w₁ : World) (hs : w₁.store = w.store) (hc : w₁.clock = w.clock) (he : w₁.entropy = w.entropy)
      (hr : w₁.realms = w.realms) : (w'.called (.isIpBanned peer.ip)).Mends w₁ :=
    ⟨hw.isHealthy, hw.store.trans hs.symm, hw.clock.trans hc.symm, hw.entropy.trans he.symm, hw.realms.trans hr.symm⟩
  obtain ⟨w₁, ha, hw₁⟩ : ∃ w₁, (admission peer.ip).runWith World.answer w = (w.store.isIpBanned w.clock peer.ip, w₁) ∧
      (w'.called (.isIpBanned peer.ip)).Mends w₁ := by
    by_cases hf : w.fails w.calls.length (.isIpBanned peer.ip) = true
    · rw [hb hf]
      exact ⟨_, World.run_of_call (World.call_of_fails hf) _, hmends _ rfl rfl rfl rfl⟩
    · exact ⟨_, World.run_of_call (World.call_of_not_fails hf) _, hmends _ rfl rfl rfl rfl⟩
  unfold dialogue
  rw [ha, ha']
  dsimp only
  split
  · exact .inl ⟨.cons (.same _) .nil, rfl, hw₁⟩
  · exact lags_hearAll hw₁ _ chunks

end Lags

/-- It makes no difference whether calls fail or give the answers that stand in for them. -/
theorem dialogue_masked (svc : Service) (peer : Endpoint) (chunks : List Bytes) (w : World) :
    dialogue World.masked svc peer chunks w = dialogue World.answer svc peer chunks w :=
  dialogue_congr (fun s c frame w => (braced_dispatch svc s c frame).runWith_masked w)
    (fun w => (braced_admission peer.ip).runWith_masked w) chunks w

/-! A logon that is not stored. -/

section Unstored

variable {svc : Service} {peer : Endpoint} {s : Session} {c : Command} {frame : Bytes} {t es : List Event}
  {record : LogonRecord} {e : DirectoryError}

abbrev unstored (record : LogonRecord) (e : DirectoryError) : Event := .called (.persistLogon record) (.error e)

/-- The client is told that the directory is busy, and it is not authenticated. -/
structure Busied (t : List Event) (s : Session) (record : LogonRecord) (e : DirectoryError) : Prop where
  told : ∃ before, t = before ++ [unstored record e, .replied [0x01, 0x08, 0x00, 0x00]]
  phase : s.phase = .closed
  sessionKey : s.sessionKey = none

theorem mem_calls (hm : unstored record e ∈ t) : .persistLogon record ∈ calls t := List.mem_filterMap.mpr ⟨_, hm, rfl⟩

theorem busied_of_answered (hs : s.Coherent) {o : Outcome} (h : Answered svc s frame c es o)
    (hm : unstored record e ∈ es) : ∃ reply, o.2 = .ok reply ∧ Busied (es ++ [.replied reply]) o.1 record e := by
  have hcalls := mem_calls hm
  cases h with
  | logonChallenge hp h => cases h <;> simp [calls, Event.call?] at hcalls
  | reconnectChallenge hp h => cases h <;> simp [calls, Event.call?] at hcalls
  | logonProof hp hx hm' h =>
    cases h with
    | malformed hd => cases hm
    | wrongPassword hd hx hc hh => cases hc <;> simp [calls, Event.call?] at hcalls
    | halted hd hx hc hh => cases hc <;> simp [calls, Event.call?] at hcalls
    | unvouched hd hx hv => simp [calls, Event.call?] at hcalls
    | unstored hd hx hv e' =>
      have hkey : s.sessionKey = none := hs.keyless (.inr hp)
      rcases hm with _ | ⟨_, _ | ⟨_, hm⟩⟩
      · exact ⟨_, rfl, ⟨[_], rfl⟩, rfl, hkey⟩
      · cases hm
    | accepted hd hx hv =>
      rcases hm with _ | ⟨_, _ | ⟨_, hm⟩⟩
      cases hm
  | reconnectProof hp hm' hk hn h => cases hm
  | realmList hp hm' h =>
    cases h
    simp [calls, Event.call?] at hcalls

theorem Busied.not_due (h : Busied t s record e) {n : Nat} : s.nextFrame frame ≠ .ok (some (c, n)) := by
  intro hn
  have hdue := due_of_nextFrame hn
  rw [h.phase] at hdue
  cases hdue

theorem busied_of_served (h : Served svc peer t s) (hm : unstored record e ∈ t) : Busied t s record e := by
  induction h with
  | admitted hb =>
    have hcalls := mem_calls hm
    simp [calls, Event.call?] at hcalls
  | turnedAway hb =>
    have hcalls := mem_calls hm
    simp [calls, Event.call?] at hcalls
  | answered h hn hy ih =>
    rename_i t s s' c frame es reply
    rcases List.mem_append.mp hm with hm | hm
    · rcases List.mem_append.mp hm with hm | _ | ⟨_, hm⟩
      · exact absurd hn (ih hm).not_due
      · obtain ⟨_, ⟨⟩, hb⟩ := busied_of_answered (coherent_of_served h)
          (answered_of_yields (coherent_of_served h) (due_of_nextFrame hn) hy) hm
        obtain ⟨before, hbefore⟩ := hb.told
        refine ⟨⟨t ++ .taken s.phase c frame :: before, ?_⟩, hb.phase, hb.sessionKey⟩
        simp only [List.append_assoc, List.cons_append, hbefore]
    · cases List.mem_singleton.mp hm

theorem not_unstored_of_failed {phase : Phase} {s' : Session} {e' : SessionError}
    (h : Answering svc peer t s phase (.done (s', .error e'))) : unstored record e ∉ t := by
  intro hm
  cases h with
  | taken h hn hl =>
    have ha := answered_of_yields (coherent_of_served h) (due_of_nextFrame hn) hl
    rcases List.mem_append.mp hm with hm | _ | ⟨_, hm⟩
    · exact (busied_of_served h hm).not_due hn
    · obtain ⟨_, ⟨⟩, -⟩ := busied_of_answered (coherent_of_served h) ha hm

/-- Of the calls since a world, its history tells those that failed. -/
structure Recorded (w₀ : World) (t : List Event) (w : World) : Prop where
  fails : w.fails = w₀.fails
  failed : ∀ later earlier call, w.calls = later ++ call :: earlier → w₀.calls.length ≤ earlier.length →
    w₀.fails earlier.length call = true → .called call (.error .unavailable) ∈ t

theorem recorded_refl (w : World) : Recorded w [] w := by
  refine ⟨rfl, fun later earlier call hc hl => ?_⟩
  have hlength := congrArg List.length hc
  rw [List.length_append, List.length_cons] at hlength
  omega

theorem Recorded.append {w₀ w : World} (h : Recorded w₀ t w) (u : List Event) : Recorded w₀ (t ++ u) w :=
  ⟨h.fails, fun later earlier call hc hl hf => List.mem_append_left u (h.failed later earlier call hc hl hf)⟩

theorem Recorded.answer {w₀ w : World} (h : Recorded w₀ t w) (q : Query) :
    Recorded w₀ (t ++ [.asked q (w.answer q).1]) (w.answer q).2 := by
  cases q with
  | call call =>
    have hcalls : (w.answer (.call call)).2.calls = call :: w.calls := by
      change (w.call call).2.calls = _
      unfold World.call
      split <;> rfl
    refine ⟨(World.fails_answer w _).trans h.fails, fun later earlier call' hc hl hf => ?_⟩
    rw [hcalls] at hc
    cases later with
    | nil =>
      cases hc
      rw [← h.fails] at hf
      have ha : (w.answer (.call call)).1 = .error .unavailable := congrArg Prod.fst (World.call_of_fails hf)
      rw [ha]
      exact List.mem_append_right t List.mem_cons_self
    | cons last later =>
      have hold := (List.cons.inj hc).2
      exact List.mem_append_left _ (h.failed later earlier call' hold hl hf)
  | _ => exact ⟨h.fails, (h.append _).failed⟩

theorem recorded_move {w₀ w : World} (h : Recorded w₀ t w) (svc : Service) (c : Connection) (m : Move) :
    Recorded w₀ (t ++ c.moveTells w m) (c.move svc w m).2 := by
  obtain ⟨q, ht, hw⟩ | ⟨-, hw⟩ := move_cases svc c w m
  · rw [ht, hw]
    exact h.answer q
  · rw [hw]
    exact h.append _

theorem kept_recorded (svc : Service) (peer : Endpoint) (w₀ : World) :
    Kept svc fun t out c w => Conversation svc peer t out c w ∧ Recorded w₀ t w where
  decide h := ⟨h.1.decide, recorded_move h.2 svc _ .decide⟩
  write h time room := ⟨h.1.write time room, h.2.append _⟩
  receive h chunk := ⟨h.1.receive chunk, h.2.append _⟩
  endOfInput h := ⟨h.1.endOfInput, h.2⟩
  expire h := ⟨h.1.expire, h.2⟩

/-- A connection that has not timed out, and of which the session key of a logon was not stored, has ended with this. -/
theorem busied_of_conversation {out : Bytes} {c : Connection} {w : World} (h : Conversation svc peer t out c w)
    (hm : unstored record e ∈ t) {r : Except SessionError Unit} (hr : c.activity = .finished r)
    (ht : ∀ phase, r ≠ .error (.timeout phase)) :
    Busied t c.session record e ∧ r = .ok () ∧ t.flatMap Event.sent = out := by
  have hfailed {s : Session} {phase : Phase} {e' : SessionError} (s' : Session)
      (hf : Answering svc peer t s phase (.done (s', .error e'))) : False := not_unstored_of_failed hf hm
  have hended : Ended svc peer t c.session r := by
    have hh := held_of_conversation h
    rw [Held, hr] at hh
    exact hh
  have hsent := sent_of_conversation h fun phase hp => ht phase (Activity.finished.inj (hr.symm.trans hp))
  rw [unwritten, hr, List.append_nil] at hsent
  have hbusied : Busied t c.session record e := by
    generalize c.session = s at hended
    cases hended with
    | unadmitted h phase => exact absurd rfl (ht phase)
    | rested h hr => exact busied_of_served h hm
    | interrupted h => exact absurd rfl (ht _)
    | failed h => exact (hfailed _ h).elim
  refine ⟨hbusied, ?_, hsent⟩
  have hclosed := hbusied.phase
  cases over_of_conversation h hr with
  | closed hp hb => rfl
  | deserted hp hn => rfl
  | undue hp hn => exact absurd hclosed hp
  | overfull hp hl => exact absurd hclosed hp
  | failed h => exact (hfailed _ h).elim
  | late phase => exact absurd rfl (ht phase)

end Unstored

/-- Failures of the directory are masked over a whole connection. It writes what it would write, and ends as it would
end, if the calls that fail gave the answers that stand in for them. A logon whose session key is not stored is
answered with nothing but a busy directory. And unless the failure is that a ban of the client's address is not found
out, every reply but a refusal at the end has its like at the same place in a world without failures. -/
theorem failures_masked (svc : Service) (peer : Endpoint) (chunks : List Bytes) (w : World)
    (h : ¬(run svc peer chunks w).2.1.TimedOut) :
    Reports (dialogue World.masked svc peer chunks w) (run svc peer chunks w) ∧
    (∀ later earlier record, (run svc peer chunks w).2.2.calls = later ++ .persistLogon record :: earlier →
      w.calls.length ≤ earlier.length → w.fails earlier.length (.persistLogon record) = true →
      (∃ before, Conversation svc peer
          (before ++ [.called (.persistLogon record) (.error .unavailable), .replied [0x01, 0x08, 0x00, 0x00]])
          (run svc peer chunks w).1 (run svc peer chunks w).2.1 (run svc peer chunks w).2.2 ∧
        (run svc peer chunks w).1 = before.flatMap Event.sent ++ [0x01, 0x08, 0x00, 0x00]) ∧
      (run svc peer chunks w).2.1.result? = some (.ok ()) ∧
      (run svc peer chunks w).2.1.session.phase = .closed ∧
      (run svc peer chunks w).2.1.session.sessionKey = none) ∧
    ((w.fails w.calls.length (.isIpBanned peer.ip) = true → w.store.isIpBanned w.clock peer.ip = false) →
      Lags svc (dialogue World.masked svc peer chunks w) (dialogue World.masked svc peer chunks w.healed) ∧
      (¬(run svc peer chunks w.healed).2.1.TimedOut →
        Reports (dialogue World.masked svc peer chunks w.healed) (run svc peer chunks w.healed))) := by
  have hreports := reports_run h
  simp only [dialogue_masked]
  refine ⟨hreports, ?_, fun hb => ⟨lags_dialogue (World.mends_healed w) hb chunks, reports_run⟩⟩
  intro later earlier record hcalls hlength hfails
  obtain ⟨t, hconversation, hrecorded⟩ := Told.run (kept_recorded svc peer w) ⟨.accept 0 w, recorded_refl w⟩ chunks
  have hm : unstored record .unavailable ∈ t := hrecorded.failed _ _ _ hcalls hlength hfails
  obtain ⟨r, hr⟩ | hr := finished_or_pending (run svc peer chunks w).2.1
  · have ht : ∀ phase, r ≠ .error (.timeout phase) := by
      rintro phase rfl
      exact h ⟨phase, hr⟩
    obtain ⟨hbusied, rfl, hsent⟩ := busied_of_conversation hconversation hm hr ht
    obtain ⟨before, rfl⟩ := hbusied.told
    refine ⟨⟨before, hconversation, ?_⟩, ?_, hbusied.phase, hbusied.sessionKey⟩
    · rw [← hsent, List.flatMap_append]
      rfl
    · rw [result?, hr]
  · rw [hreports.result] at hr
    cases hr

/-! A client that logs on while single calls fail. -/

namespace Outage

open Intruder

/-- The account and the client, with these bans of addresses, and one call that fails. -/
def world (bans : List IpBan) (failing : Nat) : World :=
  { Intruder.world with store := { Intruder.world.store with ipBans := bans }, fails := fun i _ => i == failing }

def ban : IpBan := ⟨"127.0.0.1", .integer 0, .integer 0, "", ""⟩

def exchange : Exchange.Server := exchangeFor account (Intruder.world.entropy.peek 32)

def proof : LogonProof :=
  let clientKey : Exchange.Key := LittleEndian.block 32 1
  ⟨clientKey, exchange.expectedProof clientKey, .zero 20, 0, 0, none⟩

def session : Session := offered service { peer := client } challenge account none exchange

theorem fetch (bans : List IpBan) : (world bans 0).store.fetchByLogin 0 (Text.Latin.upper challenge.login) =
    .ok (some account) := by
  rw [upper_login]
  exact Intruder.fetch

theorem not_timedOut (chunks : List Bytes) (w : World) : ¬(run service client chunks w).2.1.TimedOut := by
  rintro ⟨phase, hf⟩
  have hs : 0 < service.policy.shortTimeout := by decide
  have hl : 0 < service.policy.longTimeout := by decide
  obtain ⟨t, hp⟩ := paid_of_run hs hl client chunks w
  obtain hw | ⟨r, hr, hn⟩ := hp.rests
  · cases hf.symm.trans hw
  · exact hn phase (Activity.finished.inj (hr.symm.trans hf))

theorem dialogue_offered {w w₁ w₂ : World} (ha : w.run (admission client.ip) = (false, w₁))
    (hc : w₁.call (lookup challenge) = (.ok (some account), w₂)) (he : w₂.entropy = Intruder.world.entropy)
    (chunks : List Bytes) :
    dialogue World.answer service client (challenge.encode :: chunks) w =
      (hearAll World.answer service (.waiting session []) (w₂.drawn 32) chunks).after
        [(offerFor exchange none).encode] := by
  have hn : Session.nextFrame { peer := client } challenge.encode =
      .ok (some (.logonChallenge, challenge.encode.length)) := nextFrame_challenge (.inl rfl) short_login rfl
  have hd : Challenge.decode challenge.encode = .ok challenge := Challenge.decode_encode (.inl rfl) short_login
  have hr : w₁.run (Session.dispatch service { peer := client } .logonChallenge challenge.encode) =
      ((session, .ok (offerFor exchange none).encode), w₂.drawn 32) := by
    rw [run_logonChallenge_of_call service rfl hd hc refusal?_account (.absent rfl) rfl, he]
    rfl
  have hh := hear_of_replied hn (by decide +kernel) hr nofun
  have ha' : (admission client.ip).runWith World.answer w = (false, w₁) := ha
  simp only [dialogue, ha', Bool.false_eq_true, if_false, hearAll, hh]

def record : LogonRecord := session.record account.member (exchange.sessionKey proof.clientKey)

theorem dialogue_unstored : ∃ w, w.calls = [.persistLogon record, lookup challenge, .isIpBanned client.ip] ∧
    dialogue World.answer service client [challenge.encode, proof.encode] (world [] 2) =
      ⟨[(offerFor exchange none).encode, [0x01, 0x08, 0x00, 0x00]], .ended (.ok ()), w⟩ := by
  let w₁ := (world [] 2).called (.isIpBanned client.ip)
  let w₂ := w₁.called (lookup challenge)
  let w₃ := w₂.drawn 32
  let w₄ : World := { w₃ with calls := .persistLogon record :: w₃.calls }
  have ha : (world [] 2).run (admission client.ip) = (false, w₁) :=
    World.run_of_call (World.call_of_not_fails (by decide)) _
  have hc : w₁.call (lookup challenge) = (.ok (some account), w₂) :=
    (World.call_of_not_fails (by decide)).trans
      (congrArg (fun r : Except DirectoryError (Option Account) => (r, w₂)) (fetch []))
  have hk : exchange.accept proof.clientKey proof.proof = some (exchange.sessionKey proof.clientKey) := by
    have hz : ¬Exchange.number (LittleEndian.block 32 1) % Exchange.prime = 0 := by decide +kernel
    exact (if_neg hz).trans (if_pos rfl)
  have hd : LogonProof.decode proof.encode = .ok proof := LogonProof.decode_encode proof (by simp [proof])
  have hn : session.nextFrame proof.encode = .ok (some (.logonProof, proof.encode.length)) :=
    nextFrame_logonProof (by simp [proof]) rfl
  have hl : proof.encode.length ≤ bufferLimit := Nat.le_trans (logonProof_le hn) (by decide)
  have hr : w₃.run (session.dispatch service .logonProof proof.encode) =
      ((spent session, .ok (LogonProofReply.failure .dbBusy).encode), w₄) := by
    rw [run_logonProof_of_vouched service rfl rfl rfl hd hk ⟨rfl, rfl⟩]
    exact World.run_of_call (World.call_of_fails rfl) _
  refine ⟨w₄, rfl, ?_⟩
  have hh := hear_of_closed hn hl hr rfl
  rw [dialogue_offered ha hc rfl, hearAll, hh]
  rfl

/-- The client is told that the directory is busy, and it has no session key. -/
theorem told_busy : ¬(run service client [challenge.encode, proof.encode] (world [] 2)).2.1.TimedOut ∧
    (run service client [challenge.encode, proof.encode] (world [] 2)).2.1.session.sessionKey = none ∧
    (∃ before, (run service client [challenge.encode, proof.encode] (world [] 2)).1 =
      before ++ [0x01, 0x08, 0x00, 0x00]) ∧
    Lags service (dialogue World.masked service client [challenge.encode, proof.encode] (world [] 2))
      (dialogue World.masked service client [challenge.encode, proof.encode] (world [] 2).healed) := by
  have ht := not_timedOut [challenge.encode, proof.encode] (world [] 2)
  obtain ⟨w, hw, hdialogue⟩ := dialogue_unstored
  have hcalls : (run service client [challenge.encode, proof.encode] (world [] 2)).2.2.calls =
      [] ++ .persistLogon record :: [lookup challenge, .isIpBanned client.ip] := by
    rw [(reports_run ht).world, hdialogue]
    exact hw
  obtain ⟨-, hunstored, hlags⟩ := failures_masked service client [challenge.encode, proof.encode] (world [] 2) ht
  obtain ⟨⟨before, -, hout⟩, -, -, hkey⟩ := hunstored _ _ _ hcalls (by decide) rfl
  exact ⟨ht, hkey, ⟨_, hout⟩, (hlags fun hf => absurd hf (by decide)).1⟩

/-- An address that is banned is let in if this is not found out, and it is turned away in a world without failures. -/
theorem banned_let_in : ¬(run service client [challenge.encode] (world [ban] 0)).2.1.TimedOut ∧
    ¬(run service client [challenge.encode] (world [ban] 0).healed).2.1.TimedOut ∧ ∃ o : ChallengeOffer,
    (run service client [challenge.encode] (world [ban] 0)).1 = (ChallengeReply.offer o).encode ∧
    resultOf (run service client [challenge.encode] (world [ban] 0)).1 = some 0 ∧
    (run service client [challenge.encode] (world [ban] 0).healed).1 = [0x00, 0x00, 0x03] := by
  let w₁ : World := { world [ban] 0 with calls := [.isIpBanned client.ip] }
  let w₂ := w₁.called (lookup challenge)
  have ha : (world [ban] 0).run (admission client.ip) = (false, w₁) := World.run_of_call (World.call_of_fails rfl) _
  have hc : w₁.call (lookup challenge) = (.ok (some account), w₂) :=
    (World.call_of_not_fails (by decide)).trans
      (congrArg (fun r : Except DirectoryError (Option Account) => (r, w₂)) (fetch [ban]))
  have hout : (run service client [challenge.encode] (world [ban] 0)).1 = (offerFor exchange none).encode := by
    rw [(reports_run (not_timedOut _ _)).bytes, dialogue_offered ha hc rfl]
    exact List.append_nil _
  have hbanned : (world [ban] 0).healed.store.isIpBanned (world [ban] 0).healed.clock client.ip = true := by
    decide +kernel
  have ha' : (admission client.ip).runWith World.answer (world [ban] 0).healed =
      (true, (world [ban] 0).healed.called (.isIpBanned client.ip)) := by
    refine (World.run_of_call (World.call_eq (World.mends_healed _).isHealthy _) _).trans ?_
    exact congrArg (·, (world [ban] 0).healed.called (.isIpBanned client.ip)) hbanned
  refine ⟨not_timedOut _ _, not_timedOut _ _, _, hout, ?_, ?_⟩
  · rw [hout]
    rfl
  · rw [(reports_run (not_timedOut _ _)).bytes]
    simp only [dialogue, ha', if_true]
    rfl

end Outage

end RealmLogon.Connection
