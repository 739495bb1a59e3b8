import RealmLogon.Proofs.Connection.Grammar
import RealmLogon.Proofs.Session.Answers

/-! What becomes of a decision when calls of the directory fail. A failing call is taken for one that answers something
harmless, and unless the answer was only an ornament of the reply, the client is refused. -/

namespace RealmLogon

open Directory

/-- What a failing call is taken to have answered. Nothing stands in for a logon that is not stored. -/
def Directory.Call.standIn : (c : Call) → Except DirectoryError c.Answer
  | .isIpBanned _ => .ok false
  | .fetchByLogin _ => .ok none
  | .persistLogon _ => .error .unavailable
  | .recordFailedLogin _ => .ok (0 : UInt32)
  | .autoBan .. => .ok ()
  | .countsByAccount _ => .ok ([] : CharacterCounts)
  | .listRealms => .error .unavailable

namespace World

/-- Answer a question like the world does, but where a call fails, give the answer that stands in for it. -/
def masked (q : Query) (w : World) : q.Answer × World :=
  match q with
  | .call c => if w.fails w.calls.length c then (c.standIn, { w with calls := c :: w.calls }) else w.call c
  | .now => w.answer .now
  | .draw n => w.answer (.draw n)
  | .realms => w.answer .realms

def healed (w : World) : World := { w with fails := fun _ _ => false }

/-- The second world has a directory that answers every call, and otherwise they differ in no answer. -/
structure Mends (w' w : World) : Prop where
  isHealthy : w'.IsHealthy
  store : w'.store = w.store
  clock : w'.clock = w.clock
  entropy : w'.entropy = w.entropy
  realms : w'.realms = w.realms

theorem mends_healed (w : World) : w.healed.Mends w := ⟨fun _ _ => rfl, rfl, rfl, rfl, rfl⟩

theorem Mends.answer {w w' : World} (h : w'.Mends w) {q : Query}
    (hq : ∀ c, q = .call c → ¬w.fails w.calls.length c = true) :
    (w'.answer q).1 = (w.answer q).1 ∧ (w'.answer q).2.Mends (w.answer q).2 := by
  cases q with
  | call c =>
    have hc : w.answer (.call c) = ((c.perform w.store w.clock).1, w.called c) := call_of_not_fails (hq c rfl)
    have hc' : w'.answer (.call c) = ((c.perform w'.store w'.clock).1, w'.called c) :=
      call_of_not_fails (by simp [h.isHealthy w'.calls.length c])
    rw [hc, hc', called, called, h.store, h.clock]
    exact ⟨rfl, h.isHealthy, rfl, rfl, h.entropy, h.realms⟩
  | now => exact ⟨h.clock, h⟩
  | draw n =>
    refine ⟨?_, h.isHealthy, h.store, h.clock, ?_, h.realms⟩
    · exact congrArg (fun e : Entropy => e.peek n) h.entropy
    · exact congrArg (fun e : Entropy => e.skip n) h.entropy
  | realms => exact ⟨h.realms, h⟩

end World

namespace Flow

variable {α : Type} {P P' : Flow α → Prop} {f : Flow α} {w w' : World}

/-- Wherever a flow calls the directory, a failure leads to the same as the answer that stands in for it, and what it
leads to is as `P` says. -/
inductive Braced (P : Flow α → Prop) : Flow α → Prop
  | done (a : α) : Braced P (.done a)
  | call {c : Call} {k : Except DirectoryError c.Answer → Flow α}
      (he : k (.error .unavailable) = k c.standIn) (hp : P (k c.standIn)) (hk : ∀ r, Braced P (k r)) : Braced P (.call c k)
  | ask {q : Query} (hq : ∀ c, q ≠ .call c) {k : q.Answer → Flow α} (hk : ∀ a, Braced P (k a)) : Braced P (.ask q k)

theorem Braced.mono (h : Braced P f) (hP : ∀ g, P g → P' g) : Braced P' f := by
  induction h with
  | done a => exact .done a
  | call he hp hk ih => exact .call he (hP _ hp) ih
  | ask hq hk ih => exact .ask hq ih

theorem runWith_call (answer : (q : Query) → World → q.Answer × World) {c : Call}
    {r : Except DirectoryError c.Answer × World} (h : answer (.call c) w = r)
    (k : Except DirectoryError c.Answer → Flow α) :
    (Flow.call c k).runWith answer w = (k r.1).runWith answer r.2 := by
  rw [← h]
  rfl

theorem Braced.runWith_masked (h : Braced P f) (w : World) : f.runWith World.masked w = w.run f := by
  rw [World.run]
  induction h generalizing w with
  | done a => rfl
  | call he hp hk ih =>
    rename_i c k
    by_cases hf : w.fails w.calls.length c = true
    · have hm : World.masked (.call c) w = (c.standIn, { w with calls := c :: w.calls }) := if_pos hf
      rw [runWith_call _ hm, runWith_call _ (World.call_of_fails hf), he, ih]
    · have hm : World.masked (.call c) w = ((c.perform w.store w.clock).1, w.called c) :=
        (if_neg hf).trans (World.call_of_not_fails hf)
      rw [runWith_call _ hm, runWith_call _ (World.call_of_not_fails hf), ih]
  | ask hq hk ih =>
    rename_i q k
    have hm : World.masked q w = World.answer q w := by
      cases q with
      | call c => exact absurd rfl (hq c)
      | _ => rfl
    rw [runWith_ask, runWith_ask, hm, ih]

/-- Either a call fails, and what is left is as `P` says, or a world without failures gives the same. -/
theorem Braced.run_mends (h : Braced P f) (hw : w'.Mends w) :
    (∃ (g : Flow α) (w₁ : World), P g ∧ w.run f = w₁.run g) ∨
      ((w'.run f).1 = (w.run f).1 ∧ (w'.run f).2.Mends (w.run f).2) := by
  induction h generalizing w w' with
  | done a => exact .inr ⟨rfl, hw⟩
  | call he hp hk ih =>
    rename_i c k
    by_cases hf : w.fails w.calls.length c = true
    · refine .inl ⟨_, { w with calls := c :: w.calls }, hp, ?_⟩
      rw [World.run, runWith_call _ (World.call_of_fails hf), he]
      rfl
    · obtain ⟨ha, hw⟩ := hw.answer (q := .call c) (by rintro _ ⟨⟩; exact hf)
      rw [World.run, World.run, runWith_call _ rfl, runWith_call _ rfl, ha]
      exact ih _ hw
  | ask hq hk ih =>
    obtain ⟨ha, hw⟩ := hw.answer fun c hc => absurd hc (hq c)
    simp only [World.run, runWith_ask, ha]
    exact ih _ hw

end Flow

namespace Session

open Exchange Text Connection

/-- The client is refused, and the session closes. -/
def IsRefusal (f : Flow Outcome) : Prop :=
  ∃ (s : Session) (b : Bytes), f = s.reply b ∧ s.phase = .closed ∧ IsFailure b

variable (svc : Service) {s : Session} {frame : Bytes}

theorem braced_withAccount {login : String} {k : Option Account → Flow Outcome} (hn : IsRefusal (k none))
    (hk : ∀ a, (k a).Braced IsRefusal) : (withAccount login k).Braced IsRefusal :=
  .call rfl hn fun r => hk r.toOption.join

theorem braced_offer (s : Session) (a : Account) (flags : UInt8) : (offer s a flags).Braced IsRefusal :=
  .ask (by simp) fun _ => .done _

theorem braced_offerOrRefuse (s : Session) (a : Account) : (offerOrRefuse svc s a).Braced IsRefusal := by
  unfold offerOrRefuse
  dsimp only
  split
  · split
    · exact braced_offer ..
    · exact .done _
  · split
    · exact .done _
    · split
      · exact braced_offer ..
      · exact .done _

theorem braced_logonChallenge (s : Session) (frame : Bytes) : (logonChallenge svc s frame).Braced IsRefusal := by
  cases hd : Challenge.decode frame with
  | error e =>
    simp only [logonChallenge, hd]
    exact .done _
  | ok c =>
    have hunknown : IsFailure (ChallengeReply.failure .unknownAccount).encode := ⟨.unknownAccount, by decide, .inl rfl⟩
    rw [logonChallenge_eq hd]
    refine braced_withAccount ⟨introduced svc s c, _, rfl, rfl, hunknown⟩ fun a => ?_
    cases a with
    | none => exact .done _
    | some a =>
      simp only [logonOf]
      split
      · exact .done _
      · exact braced_offerOrRefuse ..

theorem braced_reconnectChallenge (s : Session) (frame : Bytes) :
    (reconnectChallenge svc s frame).Braced IsRefusal := by
  cases hd : Challenge.decode frame with
  | error e =>
    simp only [reconnectChallenge, hd]
    exact .done _
  | ok c =>
    have hunknown : IsFailure (ReconnectChallengeReply.failure .unknownAccount).encode :=
      ⟨.unknownAccount, by decide, .inr (.inr (.inl rfl))⟩
    rw [reconnectChallenge_eq hd]
    refine braced_withAccount ⟨introduced svc s c, _, rfl, rfl, hunknown⟩ fun a => ?_
    cases a with
    | none => exact .done _
    | some a =>
      simp only [reconnectOf]
      split
      · exact .done _
      · split
        · split
          · exact .done _
          · exact .ask (by simp) fun _ => .done _
        · exact .done _

theorem isFailure_refusedProof : IsFailure refusedProof := ⟨.unknownAccount, by decide, .inr (.inl rfl)⟩

/-- A wrong password is refused whether it can be counted or not. -/
theorem braced_refusePassword (hs : s.phase = .closed) (m : Member) :
    (refusePassword svc s m).Braced IsRefusal := by
  have hrefused : IsRefusal (s.reply refusedProof) := ⟨s, _, rfl, hs, isFailure_refusedProof⟩
  unfold refusePassword
  split
  · exact .done _
  · rename_i hm
    have hzero : (0 : UInt32).toNat < svc.policy.maxWrongPasswords := Nat.pos_of_ne_zero hm
    refine .call (if_pos hzero).symm ?_ fun r => ?_
    · rw [Directory.Call.standIn]
      simpa only [if_pos hzero] using hrefused
    · cases r with
      | error e => exact .done _
      | ok n =>
        dsimp only
        split
        · exact .done _
        · refine .call rfl hrefused fun r => ?_
          split
          · exact .done _
          · exact .done _

theorem braced_acceptProof (hs : s.phase = .closed) (m : Member) (p : LogonProof) (key : SessionKey) :
    (acceptProof s m p key).Braced IsRefusal := by
  have hbusy : IsFailure (LogonProofReply.failure .dbBusy).encode := ⟨.dbBusy, by decide, .inr (.inl rfl)⟩
  refine .call rfl ⟨s, _, rfl, hs, hbusy⟩ fun r => ?_
  cases r <;> exact .done _

theorem braced_checkProof (hs : s.phase = .closed) (x : Server) (m : Member) (secret : Option Bytes)
    (p : LogonProof) : (checkProof svc s x m secret p).Braced IsRefusal := by
  unfold checkProof
  split
  · exact braced_refusePassword svc hs m
  · refine .ask (by simp) fun now => ?_
    dsimp only
    split
    · exact braced_acceptProof hs m p _
    · exact .done _

theorem braced_logonProof (s : Session) (frame : Bytes) : (logonProof svc s frame).Braced IsRefusal := by
  cases hd : LogonProof.decode frame with
  | error e =>
    simp only [logonProof, hd]
    exact .done _
  | ok p =>
    simp only [logonProof, hd]
    split
    · split
      · exact .done _
      · split
        · exact .done _
        · exact braced_checkProof svc rfl ..
    · exact .done _

theorem braced_reconnectProof (s : Session) (frame : Bytes) :
    (Session.reconnectProof svc s frame).Braced IsRefusal := by
  cases hd : ReconnectProof.decode frame with
  | error e =>
    simp only [Session.reconnectProof, hd]
    exact .done _
  | ok p =>
    simp only [Session.reconnectProof, hd]
    repeat' split
    all_goals exact .done _

theorem braced_realmList (s : Session) : (realmList svc s).Braced fun _ => True := by
  unfold realmList
  split
  · exact .done _
  · exact .call rfl trivial fun _ => .ask (by simp) fun _ => .done _

theorem braced_dispatch (s : Session) (c : Command) (frame : Bytes) :
    (s.dispatch svc c frame).Braced fun g => c = .realmList ∨ IsRefusal g := by
  cases c with
  | logonChallenge => exact (braced_logonChallenge svc s frame).mono fun _ => .inr
  | logonProof => exact (braced_logonProof svc s frame).mono fun _ => .inr
  | reconnectChallenge => exact (braced_reconnectChallenge svc s frame).mono fun _ => .inr
  | reconnectProof => exact (braced_reconnectProof svc s frame).mono fun _ => .inr
  | realmList => exact (braced_realmList svc s).mono fun _ _ => .inl rfl
  | _ => exact .done _

/-- A reply, and the reply in a world without failures: they are the same, or they are the same realm list once without
the numbers of characters and once with them. -/
inductive Alike (svc : Service) : Bytes → Bytes → Prop
  | same (b : Bytes) : Alike svc b b
  | uncounted (s : Session) (m : Member) (counts : CharacterCounts) (realms : List Realm) :
      Alike svc (RealmList.encode s.expansion (Announcement.entries svc.builds (s.audience m) [] realms))
        (RealmList.encode s.expansion (Announcement.entries svc.builds (s.audience m) counts realms))

/-- The client is refused because of a failure, or a world without failures comes to the same with a like reply. -/
inductive Compares (svc : Service) : Outcome × World → Outcome × World → Prop
  | refused {s : Session} {b : Bytes} (hs : s.phase = .closed) (hb : IsFailure b) (w : World) (o : Outcome × World) :
      Compares svc ((s, .ok b), w) o
  | failed (s : Session) (e : SessionError) {w w' : World} (hw : w'.Mends w) :
      Compares svc ((s, .error e), w) ((s, .error e), w')
  | replied (s : Session) {b b' : Bytes} (hb : Alike svc b b') {w w' : World} (hw : w'.Mends w) :
      Compares svc ((s, .ok b), w) ((s, .ok b'), w')

variable {svc : Service} {w w' : World}

theorem compares_of_eq {r r' : Outcome × World} (ho : r'.1 = r.1) (hw : r'.2.Mends r.2) : Compares svc r r' := by
  obtain ⟨⟨s, out⟩, w⟩ := r
  obtain ⟨o', w'⟩ := r'
  cases ho
  cases out with
  | error e => exact .failed s e hw
  | ok b => exact .replied s (.same b) hw

theorem realmList_run {m : Member} (hm : s.account = some m) {r : Except DirectoryError CharacterCounts × World}
    (hr : w.call (.countsByAccount m.id) = r) :
    w.run (realmList svc s) = (({ s with phase := .authed }, .ok (RealmList.encode s.expansion
      (Announcement.entries svc.builds (s.audience m) (r.1.toOption.getD []) r.2.realms))), r.2) := by
  simp only [realmList, hm]
  exact Flow.runWith_call World.answer hr _

theorem compares_realmList (hw : w'.Mends w) (s : Session) :
    Compares svc (w.run (realmList svc s)) (w'.run (realmList svc s)) := by
  cases hm : s.account with
  | none =>
    simp only [realmList, hm]
    exact .failed _ _ hw
  | some m =>
    have hr' : w'.call (.countsByAccount m.id) = (w.store.countsByAccount m.id, w'.called (.countsByAccount m.id)) := by
      rw [World.call_of_not_fails (by simp [hw.isHealthy w'.calls.length]), hw.store]
      rfl
    by_cases hf : w.fails w.calls.length (.countsByAccount m.id) = true
    · rw [realmList_run hm (World.call_of_fails hf), realmList_run hm hr']
      have hrealms : (w'.called (.countsByAccount m.id)).realms = w.realms := hw.realms
      rw [hrealms]
      exact .replied _ (.uncounted s m _ _) ⟨hw.isHealthy, hw.store, hw.clock, hw.entropy, hw.realms⟩
    · have hr : w.call (.countsByAccount m.id) = (w.store.countsByAccount m.id, w.called (.countsByAccount m.id)) :=
        World.call_of_not_fails hf
      have hrealms : (w'.called (.countsByAccount m.id)).realms = (w.called (.countsByAccount m.id)).realms := hw.realms
      rw [realmList_run hm hr, realmList_run hm hr', hrealms]
      exact .replied _ (.same _) ⟨hw.isHealthy, hw.store, hw.clock, hw.entropy, hw.realms⟩

/-- Whatever calls fail, the client gets no more than in a world without failures. -/
theorem compares_dispatch (svc : Service) (hw : w'.Mends w) (s : Session) (c : Command) (frame : Bytes) :
    Compares svc (w.run (s.dispatch svc c frame)) (w'.run (s.dispatch svc c frame)) := by
  by_cases hc : c = .realmList
  · subst hc
    exact compares_realmList hw s
  · rcases (braced_dispatch svc s c frame).run_mends hw with ⟨g, w₁, hg, hrun⟩ | ⟨ho, hw⟩
    · obtain ⟨s', b, rfl, hs, hb⟩ := hg.resolve_left hc
      rw [hrun]
      exact .refused hs hb w₁ _
    · exact compares_of_eq ho hw

theorem braced_admission (ip : Address) : (admission ip).Braced fun g => g = .done false :=
  .call rfl rfl fun _ => .done _

end Session

end RealmLogon
