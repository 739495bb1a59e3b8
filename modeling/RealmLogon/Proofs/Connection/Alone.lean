import RealmLogon.Proofs.Connection.Crowd
import RealmLogon.Proofs.Session.Requests

/-! A crowd of one: how a connection gets from its acceptance to a whole frame, and from a frame to the reply. -/

namespace RealmLogon

open Directory

namespace World

variable {w : World} {k : Nat}

theorem clock_call (w : World) (c : Call) : (w.call c).2.clock = w.clock := by
  unfold call
  split <;> rfl

theorem clock_answer (w : World) (q : Query) : (w.answer q).2.clock = w.clock := by
  cases q with
  | call c => exact clock_call w c
  | now => rfl
  | draw n => rfl
  | realms => rfl

/-- The program stops only at a ban without room for its end. -/
theorem timeAfter?_of_halts {target : BanTarget} {seconds : Nat}
    (h : DirectoryError.halts (w.call (.autoBan target seconds)).1 = true) :
    Store.timeAfter? w.clock seconds = none := by
  rw [DirectoryError.halts_iff, call] at h
  split at h
  · cases h
  · cases hu : Store.timeAfter? w.clock seconds with
    | none => rfl
    | some last =>
      have hr : (Call.autoBan target seconds).perform w.store w.clock = (.ok (), _) :=
        Store.autoBan_of_some w.store target hu
      rw [hr] at h
      cases h

/-- Running a flow answers its questions. The program stops only at a ban that has no room at that time. -/
theorem yields_run {α : Type} (f : Flow α) (w : World) : ∃ es, f.Yields es (w.run f).1 ∧
    ∀ target seconds r, .called (.autoBan target seconds) r ∈ es → DirectoryError.halts r = true →
      Store.timeAfter? w.clock seconds = none := by
  induction f generalizing w with
  | done a => exact ⟨[], .here _, by simp⟩
  | ask q k ih =>
    obtain ⟨es, h, hes⟩ := ih (w.answer q).1 (w.answer q).2
    refine ⟨_, .ask _ h, fun target seconds r hm hr => ?_⟩
    rcases List.mem_cons.mp hm with he | hm
    · cases he
      exact timeAfter?_of_halts hr
    · rw [← clock_answer w q]
      exact hes target seconds r hm hr

theorem hasRoom_answer (hw : w.IsHealthy) (h : w.store.HasRoom (k + 1)) (q : Query) :
    (w.answer q).2.store.HasRoom k := by
  have hs := h.less
  cases q with
  | call c =>
    have hc : (w.answer (.call c)).2.store = (c.perform w.store w.clock).2 := by
      rw [World.answer, call_eq hw]
      rfl
    rw [hc]
    exact Call.hasRoom_perform h c w.clock
  | now => exact hs
  | draw n => exact hs
  | realms => exact hs

end World

namespace Connection

open Session

/-- A connection that has a world for itself, with its history. -/
def Alone (svc : Service) (w₀ : World) (peer : Endpoint) (t : List Event) (c : Connection) (w : World) : Prop :=
  Crowd svc w₀ (t.map (0, ·)) [⟨peer, c⟩] w

variable {svc : Service} {w₀ w w' : World} {peer : Endpoint} {t : List Event} {c : Connection} {s s' : Session}
  {b : Bytes} {d : Option Nat} {phase : Phase} {k : Nat}

theorem alone_accept (hw : w₀.IsHealthy) (hm : w₀.store.Modest) (peer : Endpoint) (time : Nat) :
    Alone svc w₀ peer [] (accept svc peer time) w₀ :=
  (Crowd.start hw hm).connect peer time

theorem Alone.moved (h : Alone svc w₀ peer t c w) (m : Move) (hm : (c.move svc w m).2.store.Modest) :
    Alone svc w₀ peer (t ++ c.moveTells w m) (c.move svc w m).1 (c.move svc w m).2 := by
  unfold Alone
  rw [List.map_append]
  exact Crowd.move h (i := 0) (p := ⟨peer, c⟩) rfl m hm

theorem Alone.held (h : Alone svc w₀ peer t c w) : Held svc peer t c := by
  obtain ⟨out, hc⟩ := conversation_of_crowd h (i := 0) (p := ⟨peer, c⟩) rfl
  rw [Log.heard_self] at hc
  exact held_of_conversation hc

theorem Alone.modest (h : Alone svc w₀ peer t c w) : w.store.Modest := modest_of_crowd h

theorem Alone.asked {f : Flow Outcome} (h : Alone svc w₀ peer t ⟨s, b, d, .deciding phase f⟩ w)
    (hk : ∀ es o, f.Yields es o → es.length ≤ k) (hroom : w.store.HasRoom k) :
    ∃ es, f.Yields es (w.run f).1 ∧
      Alone svc w₀ peer (t ++ es) ⟨s, b, d, .deciding phase (.done (w.run f).1)⟩ (w.run f).2 := by
  induction f generalizing t w k with
  | done o =>
    refine ⟨[], .here _, ?_⟩
    rw [List.append_nil]
    exact h
  | ask q f ih =>
    obtain ⟨es, o, hy⟩ := (f (w.answer q).1).exists_yields
    have hpos := hk _ _ (.ask _ hy)
    rw [List.length_cons] at hpos
    obtain ⟨k, rfl⟩ : ∃ k', k = k' + 1 := ⟨k - 1, by omega⟩
    have hroom' := World.hasRoom_answer (healthy_of_crowd h) hroom q
    obtain ⟨es, hy, ha⟩ := ih _ (h.moved .decide hroom'.modest)
      (fun es o hes => Nat.le_of_succ_le_succ (hk _ _ (.ask _ hes))) hroom'
    refine ⟨_, .ask _ hy, ?_⟩
    rw [List.append_assoc] at ha
    exact ha

theorem Alone.answered (h : Alone svc w₀ peer t ⟨s, [], d, .waiting⟩ w) {command : Command} {frame : Bytes}
    (hn : s.nextFrame frame = .ok (some (command, frame.length))) (hl : frame.length ≤ bufferLimit)
    (hroom : w.store.HasRoom 2) {reply : Bytes}
    (ho : (w.run (s.dispatch svc command frame)).1 = (s', .ok reply)) :
    ∃ es, Alone svc w₀ peer (t ++ .taken s.phase command frame :: es ++ [.replied reply])
      ⟨s', [], d, .writing s.phase reply⟩ (w.run (s.dispatch svc command frame)).2 := by
  have hreceived := h.moved (.receive frame) h.modest
  have htold : moveTells ⟨s, [], d, .waiting⟩ w (.receive frame) = [.taken s.phase command frame] := by
    simp [moveTells, receiveTells, upcoming, hn, Nat.not_lt.mpr hl]
  have hmoved : move svc ⟨s, [], d, .waiting⟩ w (.receive frame) =
      (⟨s, [], d, .deciding s.phase (s.dispatch svc command frame)⟩, w) := by
    simp [move, receive, next, hn, Nat.not_lt.mpr hl]
  rw [htold, hmoved] at hreceived
  obtain ⟨es, -, ha⟩ := hreceived.asked (fun es o hy =>
    (answered_of_yields (coherent_of_held h.held) (due_of_nextFrame hn) hy).length_le) hroom
  rw [ho] at ha
  have hdecided := ha.moved .decide ha.modest
  rw [List.append_assoc t] at hdecided
  exact ⟨es, hdecided⟩

theorem Alone.written {rest : Bytes} (h : Alone svc w₀ peer t ⟨s, [], d, .writing phase rest⟩ w)
    (hs : s.phase ≠ .closed) (time : Nat) :
    Alone svc w₀ peer t ⟨s, [], deadlineFrom svc s time, .waiting⟩ w := by
  have hwritten := h.moved (.write time none) h.modest
  have htold : moveTells ⟨s, [], d, .writing phase rest⟩ w (.write time none) = [] := by
    simp [moveTells, writeTells, fits, hs, upcoming, nextFrame]
  have hmoved : move svc ⟨s, [], d, .writing phase rest⟩ w (.write time none) =
      (⟨s, [], deadlineFrom svc s time, .waiting⟩, w) := by
    simp [move, write, fits, Connection.written, hs, next, nextFrame]
  rw [htold, hmoved, List.append_nil] at hwritten
  exact hwritten

theorem alone_admitted (hw : w₀.IsHealthy) (hm : w₀.store.Modest)
    (hb : w₀.store.isIpBanned w₀.clock peer.ip = false) (time : Nat) :
    ∃ t, Alone svc w₀ peer t ⟨{ peer := peer }, [], deadlineFrom svc { peer := peer } time, .waiting⟩
      (w₀.called (.isIpBanned peer.ip)) := by
  have hanswer : w₀.answer (.call (.isIpBanned peer.ip)) = (.ok false, w₀.called (.isIpBanned peer.ip)) := by
    rw [World.answer, World.call_eq hw, ← hb]
    rfl
  have haccepted : Alone svc w₀ peer [] (accept svc peer time) w₀ := alone_accept hw hm peer time
  have hmoved : move svc (accept svc peer time) w₀ .decide =
      (⟨{ peer := peer }, [], deadlineFrom svc { peer := peer } time, .admitting (.done false)⟩,
        w₀.called (.isIpBanned peer.ip)) := by
    simp only [Connection.move, decide, accept, admission, Flow.call, hanswer]
    rfl
  have hasked := haccepted.moved .decide
  rw [hmoved] at hasked
  exact ⟨_, (hasked hm).moved .decide hm⟩

theorem alone_offered (hw : w₀.IsHealthy) (hroom : w₀.store.HasRoom 2)
    (hb : w₀.store.isIpBanned w₀.clock peer.ip = false) {c : Challenge} (hc : c.command = .logonChallenge)
    (hl : (Bytes.ofString c.login).length ≤ Challenge.maxLogin) {a : Account}
    (ha : w₀.store.fetchByLogin w₀.clock (Text.Latin.upper c.login) = .ok (some a))
    (hv : refusal? svc.geoip peer.ip a = none) {secret : Option Bytes} (ho : Opens svc a secret)
    (hbuild : (svc.builds.expansion c.build).isValid = true) :
    ∃ t s d w, Alone svc w₀ peer t ⟨s, [], d, .waiting⟩ w ∧ s.phase = .logonProof ∧ s.account = some a.member ∧
      w.store = w₀.store := by
  obtain ⟨t, h⟩ : ∃ t, Alone svc w₀ peer t _ _ := alone_admitted hw hroom.modest hb 0
  have hn : ({ peer := peer } : Session).nextFrame c.encode = .ok (some (.logonChallenge, c.encode.length)) := by
    rw [nextFrame_challenge (.inl hc) hl rfl, hc]
  have hlength : c.encode.length ≤ bufferLimit := by
    have hm : Challenge.maxLogin = 16 := rfl
    have hh : Challenge.headerSize = 34 := rfl
    have hb : bufferLimit = 4096 := rfl
    rw [Challenge.length_encode]
    omega
  have hrun := run_logonChallenge svc (s := { peer := peer }) (w := w₀.called (.isIpBanned peer.ip)) hw rfl
    (Challenge.decode_encode (.inl hc) hl) ha hv ho hbuild
  obtain ⟨es, ha⟩ := h.answered hn hlength hroom (congrArg Prod.fst hrun)
  have hopen : (offered svc { peer := peer } c a secret (exchangeFor a (w₀.entropy.peek 32))).phase ≠ .closed := nofun
  refine ⟨_, _, _, _, ha.written hopen 0, rfl, rfl, ?_⟩
  rw [hrun]
  rfl

end Connection

end RealmLogon
