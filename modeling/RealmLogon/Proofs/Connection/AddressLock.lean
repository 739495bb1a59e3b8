import RealmLogon.Proofs.Connection.Authentication
import RealmLogon.Proofs.Connection.Lockout
import RealmLogon.Proofs.Directory.Locks

/-! An account that is bound to its last address, under any interleaving of connections. Whoever looks it up from
elsewhere is refused, so nobody from elsewhere comes as far as storing a logon, and the address stays. -/

namespace RealmLogon

open Directory

namespace World

variable {w : World} {login address : String}

theorem lockedTo_answer (h : w.store.LockedTo login address) (q : Query)
    (hq : ∀ record, q = .call (.persistLogon record) → record.login = login → record.ip.print = address) :
    (w.answer q).2.store.LockedTo login address := by
  cases q with
  | call c =>
    change (w.call c).2.store.LockedTo login address
    unfold call
    split
    · exact h
    · exact Call.lockedTo_perform h c w.clock fun record hc => hq record (hc ▸ rfl)
  | now => exact h
  | draw n => exact h
  | realms => exact h

theorem lockedTo_of_answer {q : Query} (h : (w.answer q).2.store.LockedTo login address) :
    ∃ before, w.store.LockedTo login before := by
  cases q with
  | call c =>
    change (w.call c).2.store.LockedTo login address at h
    unfold call at h
    split at h
    · exact ⟨_, h⟩
    · exact Call.lockedTo_of_perform h
  | now => exact ⟨_, h⟩
  | draw n => exact ⟨_, h⟩
  | realms => exact ⟨_, h⟩

theorem fetch_of_answer {name : String} {a : Account}
    (h : (w.answer (.call (.fetchByLogin name))).1 = (.ok (some a) : Except DirectoryError (Option Account))) :
    w.store.fetchByLogin w.clock name = .ok (some a) := by
  change (w.call (.fetchByLogin name)).1 = (.ok (some a) : Except DirectoryError (Option Account)) at h
  unfold call at h
  split at h
  · cases h
  · exact h

end World

/-- The session waits for a proof, or its client has logged on. -/
def Session.IsLive (s : Session) : Prop := s.phase = .logonProof ∨ s.phase = .reconnectProof ∨ s.phase = .authed

namespace Connection

open Session

variable {svc : Service} {peer : Endpoint} {t u : List Event} {s : Session} {c : Connection} {a : Account} {m : Member}
  {record : LogonRecord}

/-! What a connection has been told of the account for which it waits for a proof, or which has logged on. -/

/-- An account was looked up that may log on from the address of the client. -/
structure Cleared (svc : Service) (peer : Endpoint) (t : List Event) (a : Account) : Prop where
  fetched : ∃ name, .called (.fetchByLogin name) (.ok (some a)) ∈ t
  allowed : refusal? svc.geoip peer.ip a = none

theorem Cleared.append (h : Cleared svc peer t a) (u : List Event) : Cleared svc peer (t ++ u) a := by
  obtain ⟨name, hm⟩ := h.fetched
  exact ⟨⟨name, List.mem_append_left u hm⟩, h.allowed⟩

theorem Cleared.mono (h : Cleared svc peer t a) (hp : t <+: u) : Cleared svc peer u a := by
  obtain ⟨v, rfl⟩ := hp
  exact h.append v

/-- Nobody may log on from elsewhere than the address to which an account is bound. -/
theorem Cleared.lastIp_eq (h : Cleared svc peer t a) (hl : a.ipLocked = true) : a.lastIp = peer.ip.print := by
  have hr := h.allowed
  by_cases he : a.lastIp = peer.ip.print
  · exact he
  · simp only [refusal?, lock?, hl, if_true, if_neg he] at hr
    cases hr

theorem cleared_offer {o : Offer} (ho : o.Granted svc peer) : Cleared svc peer (o.history peer) o.account :=
  ⟨⟨_, .tail _ (.tail _ (.head _))⟩, ho.allowed⟩

theorem cleared_resumption {r : Resumption} (hr : r.Granted svc peer) :
    Cleared svc peer (r.history peer) r.account :=
  ⟨⟨_, .tail _ (.tail _ (.head _))⟩, hr.allowed⟩

theorem cleared_of_stage (h : Stage svc peer t s) (hs : s.IsLive) (hm : s.account = some m) :
    ∃ a, Cleared svc peer t a ∧ a.member = m := by
  cases h with
  | opened hb => cases hm
  | offered o ho =>
    cases hm
    exact ⟨_, cleared_offer ho, rfl⟩
  | resuming r hr =>
    cases hm
    exact ⟨_, cleared_resumption hr, rfl⟩
  | loggedOn l hl hr =>
    cases hm
    rw [Logon.history, List.append_assoc]
    exact ⟨_, (cleared_offer hl.granted).append _, rfl⟩
  | resumed r hg hr =>
    cases hm
    rw [Reconnect.history, List.append_assoc]
    exact ⟨_, (cleared_resumption hg.granted).append _, rfl⟩
  | closed hp ht => simp [Session.IsLive, hp] at hs

theorem cleared_of_answering {phase : Phase} {f : Flow Outcome} (h : Answering svc peer t s phase f) (hs : s.IsLive)
    (hm : s.account = some m) : ∃ a, Cleared svc peer t a ∧ a.member = m := by
  cases h with
  | taken h hn hl =>
    obtain ⟨a, ha, hm⟩ := cleared_of_stage (stage_of_served h) hs hm
    exact ⟨a, ha.append _, hm⟩

/-- Whatever a connection is at, the account of its session was looked up, and may log on from its address. -/
theorem cleared_of_held (h : Held svc peer t c) (hs : c.session.IsLive) (hm : c.session.account = some m) :
    ∃ a, Cleared svc peer t a ∧ a.member = m := by
  unfold Held at h
  split at h
  · obtain ⟨hc, -, -⟩ := h
    rw [hc] at hm
    cases hm
  · exact cleared_of_answering h hs hm
  · exact cleared_of_stage (stage_of_served h) hs hm
  · exact cleared_of_stage (stage_of_served h) hs hm
  · generalize c.session = s at h hs hm
    cases h with
    | unadmitted h phase => cases hm
    | rested h hr => exact cleared_of_stage (stage_of_served h) hs hm
    | interrupted h => exact cleared_of_answering h hs hm
    | failed h =>
      obtain ⟨command, frame, es, ha⟩ := answered_of_answering h
      obtain rfl | hp := ha.session_of_error
      · exact cleared_of_answering h hs hm
      · simp [Session.IsLive, hp] at hs

theorem offer_of_stored (h : Chronicle svc peer t s) (hr : .persistLogon record ∈ calls t) :
    ∃ o : Offer, o.Granted svc peer ∧ o.history peer <+: t ∧ record.login = o.account.login ∧
      record.ip = peer.ip := by
  cases h with
  | proofRefused o ho hd hp hs =>
    rw [List.append_assoc]
    refine ⟨o, ho, List.prefix_append _ _, ?_⟩
    cases hp with
    | unstored hx hv e =>
      rename_i key now
      obtain rfl : (o.session svc peer).record o.account.member key = record := by
        simpa [calls, Event.call?, Offer.history, eq_comm] using hr
      exact ⟨rfl, rfl⟩
    | wrongPassword hx hc => cases hc <;> simp [calls, Event.call?, Offer.history] at hr
    | unvouched hx hv => simp [calls, Event.call?, Offer.history] at hr
  | loggedOn l hl hlist =>
    obtain ⟨n, hn⟩ := calls_listings hlist
    rw [Logon.history, List.append_assoc]
    refine ⟨l.offer, hl.granted, List.prefix_append _ _, ?_⟩
    obtain rfl : (l.offer.session svc peer).record l.offer.account.member l.key = record := by
      simp only [Logon.history, calls_append, hn, List.mem_append, List.mem_replicate] at hr
      simpa [calls, Event.call?, Offer.history, eq_comm] using hr
    exact ⟨rfl, rfl⟩
  | resumed r hg hlist =>
    obtain ⟨n, hn⟩ := calls_listings hlist
    simp only [Reconnect.history, calls_append, hn, List.mem_append, List.mem_replicate] at hr
    simp [calls, Event.call?, Resumption.history] at hr
  | opened hb => simp [calls, Event.call?] at hr
  | turnedAway hb => simp [calls, Event.call?] at hr
  | logonRefused hb hd r hv hs => simp [calls, Event.call?] at hr
  | reconnectRefused hb hd r hv hs => simp [calls, Event.call?] at hr
  | offered o ho => simp at hr
  | resuming r hg => simp at hr
  | resumptionRefused r hg hd hs => simp [calls, Event.call?, Resumption.history] at hr

/-- Who stores a logon was cleared for its account before. -/
theorem cleared_of_stored (h : Overture svc peer t) (hr : .persistLogon record ∈ calls t) :
    ∃ a, Cleared svc peer t a ∧ record.login = a.login ∧ record.ip = peer.ip := by
  cases h with
  | within h ht =>
    obtain ⟨o, ho, hp, hlogin, hip⟩ := offer_of_stored h ((ht.filterMap _).subset hr)
    refine ⟨o.account, (cleared_offer ho).mono ?_, hlogin, hip⟩
    -- What has happened goes beyond the offer, since nothing is stored before.
    rcases List.prefix_or_prefix_of_prefix hp ht with hle | hge
    · exact hle
    · have hm : .persistLogon record ∈ calls (o.history peer) := (hge.filterMap _).subset hr
      simp at hm
  | taken h hn =>
    rename_i u s c frame
    have hu : .persistLogon record ∈ calls u := by simpa [calls, Event.call?] using hr
    obtain ⟨o, ho, hp, hlogin, hip⟩ := offer_of_stored (chronicle_of_served h) hu
    exact ⟨o.account, ((cleared_offer ho).mono hp).append _, hlogin, hip⟩

/-! Many connections. -/

/-- What can follow on a state of some connections, told in a log of its own. Others change nothing of the accounts. -/
inductive Sequel (svc : Service) (ps₀ : List Party) (w₀ : World) : Log → List Party → World → Prop
  | start : Sequel svc ps₀ w₀ [] ps₀ w₀
  | connect {log : Log} {ps : List Party} {w : World} (h : Sequel svc ps₀ w₀ log ps w) (peer : Endpoint)
      (time : Nat) : Sequel svc ps₀ w₀ log (ps ++ [⟨peer, accept svc peer time⟩]) w
  | move {log : Log} {ps : List Party} {w : World} (h : Sequel svc ps₀ w₀ log ps w) {i : Nat} {p : Party}
      (hi : ps[i]? = some p) (m : Move) :
      Sequel svc ps₀ w₀ (log ++ (p.connection.moveTells w m).map (i, ·))
        (ps.set i ⟨p.peer, (p.connection.move svc w m).1⟩) (p.connection.move svc w m).2
  | elsewhere {log : Log} {ps : List Party} {w : World} (h : Sequel svc ps₀ w₀ log ps w) {w' : World}
      (ha : w'.store.accounts = w.store.accounts) : Sequel svc ps₀ w₀ log ps w'

def Looked (t : List Event) : Prop := ∃ name, .fetchByLogin name ∈ calls t

/-- Whoever was given the account was told that it is bound to the address. -/
def Warned (login address : String) (log : Log) : Prop :=
  ∀ i name a, .called (.fetchByLogin name) (.ok (some a)) ∈ log.heard i → a.login = login →
    a.ipLocked = true ∧ a.lastIp = address

variable {log₀ log₁ log : Log} {ps₀ ps₁ ps : List Party} {w₀ w₁ w : World} {login address : String} {i : Nat} {p : Party}

theorem Sequel.trans (h₁ : Sequel svc ps₀ w₀ log₁ ps₁ w₁) (h : Sequel svc ps₁ w₁ log ps w) :
    Sequel svc ps₀ w₀ (log₁ ++ log) ps w := by
  induction h with
  | start =>
    rw [List.append_nil]
    exact h₁
  | connect h peer time ih => exact ih.connect peer time
  | move h hi m ih =>
    rw [← List.append_assoc]
    exact ih.move hi m
  | elsewhere h ha ih => exact ih.elsewhere ha

theorem gathered_of_sequel (hg : Gathered svc log₀ ps₀ w₀) (h : Sequel svc ps₀ w₀ log ps w) :
    Gathered svc (log₀ ++ log) ps w := by
  induction h with
  | start =>
    rw [List.append_nil]
    exact hg
  | connect h peer time ih => exact ih.connect peer time
  | move h hi m ih =>
    rw [← List.append_assoc]
    exact ih.move hi m
  | elsewhere h ha ih => exact ih.elsewhere _

theorem lockedTo_of_sequel (h : Sequel svc ps₀ w₀ log ps w) (hl : w.store.LockedTo login address) :
    ∃ before, w₀.store.LockedTo login before := by
  induction h generalizing address with
  | start => exact ⟨_, hl⟩
  | connect h peer time ih => exact ih hl
  | move h hi m ih =>
    rename_i log ps w i p
    obtain ⟨q, -, hw⟩ | ⟨-, hw⟩ := move_cases svc p.connection w m
    · rw [hw] at hl
      obtain ⟨before, hb⟩ := World.lockedTo_of_answer hl
      exact ih hb
    · rw [hw] at hl
      exact ih hl
  | elsewhere h ha ih => exact ih (hl.congr ha.symm)

theorem sequel_of_crowd (h : Crowd svc w₀ log ps w) : Sequel svc [] w₀ log ps w := by
  induction h with
  | start hw hm => exact .start
  | connect h peer time ih => exact ih.connect peer time
  | move h hi m hm ih => exact ih.move hi m
  | tick h now ih => exact ih.elsewhere rfl
  | refresh h ih => exact ih.elsewhere (by rw [World.store_refresh])

/-- Who has looked the account up since it was bound to an address, and is cleared for it, is there. -/
theorem print_eq_of_cleared (hwarned : Warned login address log) (hlooked : ¬Looked (log₀.heard i))
    (hc : Cleared svc peer ((log₀ ++ log).heard i) a) (ha : a.login = login) : peer.ip.print = address := by
  obtain ⟨name, hm⟩ := hc.fetched
  rw [Log.heard_append] at hm
  obtain hm | hm := List.mem_append.mp hm
  · exact absurd ⟨name, List.mem_filterMap.mpr ⟨_, hm, rfl⟩⟩ hlooked
  · obtain ⟨hlocked, hip⟩ := hwarned i name a hm ha
    rw [← hc.lastIp_eq hlocked, hip]

theorem warned_answer (hwarned : Warned login address log) (hl : w.store.LockedTo login address) (i : Nat) (q : Query) :
    Warned login address (log ++ [.asked q (w.answer q).1].map (i, ·)) := by
  intro j name a hm ha
  rw [Log.heard_append] at hm
  obtain hm | hm := List.mem_append.mp hm
  · exact hwarned j name a hm ha
  · have he := (Prod.mk.inj (List.mem_singleton.mp (Log.mem_heard.mp hm))).2
    obtain ⟨rfl, hr⟩ := Event.asked.inj he
    exact hl.fetched (World.fetch_of_answer (eq_of_heq hr).symm) ha

theorem warned_of_calls (hwarned : Warned login address log) (ht : calls t = []) (i : Nat) :
    Warned login address (log ++ t.map (i, ·)) := by
  intro j name a hm ha
  rw [Log.heard_append] at hm
  obtain hm | hm := List.mem_append.mp hm
  · exact hwarned j name a hm ha
  · obtain ⟨e, he, hj⟩ := List.mem_map.mp (Log.mem_heard.mp hm)
    obtain ⟨-, rfl⟩ := Prod.mk.inj hj
    have hc : .fetchByLogin name ∈ calls t := List.mem_filterMap.mpr ⟨_, he, rfl⟩
    rw [ht] at hc
    cases hc

theorem print_eq_of_stored (hg : Gathered svc (log₀ ++ log) ps w) (hwarned : Warned login address log)
    (hi : ps[i]? = some p) (hlooked : ¬Looked (log₀.heard i))
    (hr : .persistLogon record ∈ calls ((log₀ ++ log).heard i)) (hlogin : record.login = login) :
    record.ip = p.peer.ip ∧ p.peer.ip.print = address := by
  obtain ⟨out, hc⟩ := hg.conversation hi
  obtain ⟨a, ha, hal, hip⟩ := cleared_of_stored (overture_of_held (held_of_conversation hc)) hr
  exact ⟨hip, print_eq_of_cleared hwarned hlooked ha (hal ▸ hlogin)⟩

/-- An account that is bound to an address stays so, if those who had looked it up before store logons from there
only; all others are told. -/
theorem bound_of_sequel (hg : Gathered svc log₀ ps₀ w₀) (hl : w₀.store.LockedTo login address)
    (h : Sequel svc ps₀ w₀ log ps w)
    (hs : ∀ i record, Looked (log₀.heard i) → .persistLogon record ∈ calls (log.heard i) → record.login = login →
      record.ip.print = address) :
    w.store.LockedTo login address ∧ Warned login address log := by
  induction h with
  | start => exact ⟨hl, by simp [Warned, Log.heard]⟩
  | connect h peer time ih => exact ih hs
  | elsewhere h ha ih =>
    obtain ⟨hlock, hwarned⟩ := ih hs
    exact ⟨hlock.congr ha, hwarned⟩
  | move h hi m ih =>
    rename_i log ps w i p
    obtain ⟨hlock, hwarned⟩ := ih fun j record hj hr => hs j record hj (by simp [hr])
    have hgathered := gathered_of_sequel hg (h.move hi m)
    obtain ⟨q, ht, hw⟩ | ⟨ht, hw⟩ := move_cases svc p.connection w m
    · have hwarned := warned_answer hwarned hlock i q
      rw [← ht] at hwarned
      rw [hw]
      refine ⟨World.lockedTo_answer hlock q ?_, hwarned⟩
      rintro record rfl hlogin
      have hcall : .persistLogon record ∈ calls ((log ++ (p.connection.moveTells w m).map (i, ·)).heard i) := by
        rw [Log.heard_append, Log.heard_self, ht, calls_append]
        exact List.mem_append_right _ List.mem_cons_self
      -- Who had looked the account up before is taken care of by `hs`, and who did so since was warned.
      by_cases hlooked : Looked (log₀.heard i)
      · exact hs i record hlooked hcall hlogin
      · have hparty := List.getElem?_set_self (a := ⟨p.peer, (p.connection.move svc w m).1⟩)
          (List.getElem?_eq_some_iff.mp hi).1
        have hoverall : .persistLogon record ∈
            calls ((log₀ ++ (log ++ (p.connection.moveTells w m).map (i, ·))).heard i) := by
          rw [Log.heard_append, calls_append]
          exact List.mem_append_right _ hcall
        obtain ⟨hip, hprint⟩ := print_eq_of_stored hgathered hwarned hparty hlooked hoverall hlogin
        rw [hip, hprint]
    · rw [hw]
      exact ⟨hlock, warned_of_calls hwarned ht i⟩

/-- The session waits for a proof of the account or has logged on to it, or a logon of it was stored. -/
def BelongsTo (login : String) (t : List Event) (c : Connection) : Prop :=
  (c.session.IsLive ∧ ∃ m, c.session.account = some m ∧ m.login = login) ∨
    ∃ record, .persistLogon record ∈ calls t ∧ record.login = login

theorem print_eq_of_belongs (hg : Gathered svc (log₀ ++ log) ps w) (hwarned : Warned login address log)
    (hi : ps[i]? = some p) (hlooked : ¬Looked (log₀.heard i))
    (hb : BelongsTo login ((log₀ ++ log).heard i) p.connection) : p.peer.ip.print = address := by
  obtain ⟨hs, m, hm, rfl⟩ | ⟨record, hr, hlogin⟩ := hb
  · obtain ⟨out, hc⟩ := hg.conversation hi
    obtain ⟨a, ha, rfl⟩ := cleared_of_held (held_of_conversation hc) hs hm
    exact print_eq_of_cleared hwarned hlooked ha rfl
  · exact (print_eq_of_stored hg hwarned hi hlooked hr hlogin).2

/-- An account that is bound to its last address stays with it. Many connections share one directory, whose calls may
fail and come in any order. As long as only connections change the accounts, the last address of a locked account is
still the same later, and every connection that waits for a proof of the account, has logged on to it or has stored a
logon of it comes from there. If others have changed the accounts before, with any connections under way, the same
holds of all connections that look their account up from then on, unless one of the earlier ones stores a logon of the
account from elsewhere. -/
theorem locked_account_stays (svc : Service) (login address : String) :
    (∀ w₀ log₁ ps₁ w₁ log ps w, Sequel svc [] w₀ log₁ ps₁ w₁ → w₁.store.LockedTo login address →
      Sequel svc ps₁ w₁ log ps w → w.store.LockedTo login address ∧
        ∀ i p, ps[i]? = some p → BelongsTo login ((log₁ ++ log).heard i) p.connection → p.peer.ip.print = address) ∧
    ∀ log₀ ps₀ w₀ log ps w, Gathered svc log₀ ps₀ w₀ → w₀.store.LockedTo login address →
      Sequel svc ps₀ w₀ log ps w →
      (∀ i record, Looked (log₀.heard i) → .persistLogon record ∈ calls (log.heard i) → record.login = login →
        record.ip.print = address) →
      w.store.LockedTo login address ∧
        ∀ i p, ps[i]? = some p → ¬Looked (log₀.heard i) → BelongsTo login ((log₀ ++ log).heard i) p.connection →
          p.peer.ip.print = address := by
  refine ⟨?_, ?_⟩
  · intro w₀ log₁ ps₁ w₁ log ps w h₁ hl h
    have hnone : ∀ i, ¬Looked (Log.heard i []) := by simp [Looked, Log.heard, calls]
    obtain ⟨before, hb⟩ := lockedTo_of_sequel h₁ hl
    have hg := gathered_nil svc w₀
    obtain ⟨hl₁, -⟩ := bound_of_sequel hg hb h₁ fun i record hi => absurd hi (hnone i)
    obtain rfl := hl₁.unique hl
    obtain ⟨hlock, hwarned⟩ := bound_of_sequel hg hb (h₁.trans h) fun i record hi => absurd hi (hnone i)
    refine ⟨hlock, fun i p hi hbelongs => ?_⟩
    exact print_eq_of_belongs (gathered_of_sequel hg (h₁.trans h)) hwarned hi (hnone i) hbelongs
  · intro log₀ ps₀ w₀ log ps w hg hl h hs
    obtain ⟨hlock, hwarned⟩ := bound_of_sequel hg hl h hs
    exact ⟨hlock, fun i p hi hlooked => print_eq_of_belongs (gathered_of_sequel hg h) hwarned hi hlooked⟩

/-! A client at the address to which its account is bound. -/

namespace Tenant

open Intruder

def world : World :=
  { Intruder.world with store := { Store.empty with accounts := ⟨[{ row with locked := .integer 1 }], 1⟩ } }

theorem fetch : world.store.fetchByLogin world.clock (Text.Latin.upper challenge.login) =
    .ok (some { Intruder.account with ipLocked := true }) := by
  rw [upper_login]
  decide +kernel

theorem hasRoom : world.store.HasRoom 2 := by
  intro r hr
  cases List.mem_singleton.mp hr
  exact ⟨0, rfl, by decide⟩

/-- The client is offered an exchange, and the account stays bound to its address. -/
theorem stays : ∃ log p w, Sequel service [] world log [p] w ∧ BelongsTo "TESTER" (log.heard 0) p.connection ∧
    w.store.LockedTo "TESTER" "127.0.0.1" ∧ p.peer.ip.print = "127.0.0.1" := by
  have hv : refusal? service.geoip client.ip { Intruder.account with ipLocked := true } = none := by decide +kernel
  have hb : world.store.isIpBanned world.clock client.ip = false := rfl
  have ho : Opens service { Intruder.account with ipLocked := true } none := .absent rfl
  have hw : world.IsHealthy := fun _ _ => rfl
  obtain ⟨t, s, d, w, h, hs, hm, -⟩ := alone_offered hw hasRoom hb rfl short_login fetch hv ho rfl
  have hsequel := sequel_of_crowd h
  have hbelongs : BelongsTo "TESTER" (Log.heard 0 (t.map (0, ·))) ⟨s, [], d, .waiting⟩ :=
    .inl ⟨.inl hs, _, hm, rfl⟩
  obtain ⟨hlock, hall⟩ := (locked_account_stays service "TESTER" "127.0.0.1").1 world [] [] world _ _ _ .start
    ⟨_, rfl, rfl, rfl⟩ hsequel
  exact ⟨_, _, w, hsequel, hbelongs, hlock, hall 0 _ rfl hbelongs⟩

end Tenant

end Connection

end RealmLogon
