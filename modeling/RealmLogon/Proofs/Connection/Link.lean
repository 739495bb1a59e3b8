import RealmLogon.Connection.Timeline
import RealmLogon.Proofs.Connection.Serving
import RealmLogon.Proofs.Session.Answers

/-! A link whose client takes turns with the connection: when a message comes, the connection waits for it, and
what it then does is what `serve` says. -/

namespace RealmLogon

open Connection

namespace Connection

variable {svc : Service} {s s' : Session} {m reply : Bytes} {w w' : World} {c : Command}

theorem serve_of_run (hn : s.nextFrame m = .ok (some (c, m.length)))
    (hr : w.run (s.dispatch svc c m) = ((s', .ok reply), w')) (hp : s'.phase ≠ .closed) :
    serve svc s m w = (reply, .waiting s' [], w') := by
  have hf : serveFrame svc s c (m.take m.length) w = (reply, .goesOn s', w') := by
    simp only [serveFrame, List.take_length, hr, if_neg hp]
  rw [serve_of_goesOn hn hf, List.drop_length, serve_of_none rfl, List.append_nil]

theorem serve_of_run_closed (hn : s.nextFrame m = .ok (some (c, m.length)))
    (hr : w.run (s.dispatch svc c m) = ((s', .ok reply), w')) (hp : s'.phase = .closed) :
    serve svc s m w = (reply, .ended (.ok ()), w') := by
  refine serve_of_ends hn ?_
  simp only [serveFrame, List.take_length, hr, if_pos hp]

end Connection

namespace Link

structure Stands (svc : Service) (l : Link) (r : Rest) (out : Bytes) : Prop where
  rest : l.connection.rest? = some r
  punctual : Punctual svc 0 l.connection
  inbound : l.inbound = []
  outbound : l.outbound = out
  inputClosed : l.inputClosed = false
  capacity : l.capacity = none

/-- Left to itself, a link waits for the client's next message, and the world is then `w'`. -/
structure Awaits (svc : Service) (l : Link) (w : World) (s : Session) (w' : World) : Prop where
  settled : ∃ c, l.connection.settle svc 0 none w = ([], c, w') ∧ c.rest? = some (.waiting s []) ∧
    Punctual svc 0 c
  isFinished : l.isFinished = false
  inbound : l.inbound = []
  outbound : l.outbound = []
  inputClosed : l.inputClosed = false
  capacity : l.capacity = none

variable {svc : Service} {l : Link} {s : Session} {w w' : World}

theorem rest?_waiting {c : Connection} {b : Bytes} (h : c.rest? = some (.waiting s b)) :
    c.activity = .waiting ∧ c.session = s ∧ c.buffer = b := by
  unfold rest? at h
  cases ha : c.activity with
  | waiting =>
    simp only [ha, Option.some.injEq, Rest.waiting.injEq] at h
    exact ⟨rfl, h⟩
  | _ => simp [ha] at h

theorem Stands.awaits (h : l.Stands svc (.waiting s []) []) (w : World) : l.Awaits svc w s w := by
  have ha := (rest?_waiting h.rest).1
  refine ⟨⟨_, settle_of_rest h.rest 0 none w, h.rest, h.punctual⟩, ?_, h.inbound, h.outbound, h.inputClosed,
    h.capacity⟩
  simp only [isFinished, result?, ha]
  rfl

theorem awaits_accept {peer : Endpoint} (hs : 0 < svc.policy.shortTimeout) (hl : 0 < svc.policy.longTimeout)
    (hw : w.IsHealthy) (hb : w.store.isIpBanned w.clock peer.ip = false) :
    Awaits svc ⟨.accept svc peer 0, [], false, [], none, false⟩ w { peer := peer }
      (w.called (.isIpBanned peer.ip)) := by
  have hp := punctual_accept hs hl peer 0
  have hrun : welcome peer w = ([], .waiting { peer := peer } [], w.called (.isIpBanned peer.ip)) := by
    have ha : w.run (admission peer.ip) = (false, w.called (.isIpBanned peer.ip)) := by
      refine (World.run_call hw (.isIpBanned peer.ip) _).trans ?_
      change ((w.store.isIpBanned w.clock peer.ip, _) : Bool × World) = _
      rw [hb]
    simp only [welcome, ha, Bool.false_eq_true, if_false]
  have hm := meets_accept svc peer 0 w
  rw [hrun] at hm
  rcases hm with ⟨hn, -⟩ | ⟨h₁, h₂, h₃, h₄⟩
  · exact absurd hp hn
  · exact ⟨⟨_, Prod.ext h₁ (Prod.ext rfl h₃), h₂, h₄ hp⟩, rfl, rfl, rfl, rfl, rfl⟩

theorem advance_of_inbound_nil (hi : l.inbound = []) (hc : l.inputClosed = false) (time : Nat) :
    l.advance svc time w = l.settle svc time w := by
  rw [advance]
  simp only [settle, hi, hc, Bool.false_eq_true, if_false, if_true, ite_self]

/-- A link that has come to rest does not change the world by itself. -/
theorem advance_of_rest {r : Rest} (hr : l.connection.rest? = some r) (hi : l.inbound = []) (time : Nat) :
    (l.advance svc time w).2 = w := by
  have hsettle : l.settle svc time w = (l, w) := by
    simp only [settle, settle_of_rest hr, List.append_nil]
  rw [advance]
  simp only [hsettle, hi, if_true]
  split
  · split <;> rfl
  · rfl

theorem Awaits.advance (h : l.Awaits svc w s w') {m : Bytes} (hm : m ≠ []) (hl : m.length ≤ bufferLimit) :
    ∃ l', ({ l with inbound := l.inbound ++ m }).advance svc 0 w = (l', (serve svc s m w').2.2) ∧
      l'.Stands svc (serve svc s m w').2.1 (serve svc s m w').1 := by
  obtain ⟨c, hsettle, hrest, hp⟩ := h.settled
  obtain ⟨hact, hsession, hbuffer⟩ := rest?_waiting hrest
  have hroom : ({ l with inbound := m }).room = none := by
    simp only [room, h.capacity, Option.map_none]
  have hfirst : ({ l with inbound := m }).settle svc 0 w = ({ l with inbound := m, connection := c }, w') := by
    rw [settle, hroom]
    simp only [hsettle, List.append_nil]
  have hreceive : c.receive svc m = next svc { c with buffer := m } := by
    simp only [receive, hact, hbuffer, List.nil_append]
    rw [if_neg (by omega)]
  let served : Link := { l with inbound := [], connection := c.receive svc m }
  have hread : ({ l with inbound := m, connection := c }).read svc = served := by
    have hsize : ({ l with inbound := m, connection := c }).readSize = bufferLimit := by
      simp only [readSize, hbuffer, List.length_nil, Nat.sub_zero]
    simp only [read, hsize, List.take_of_length_le hl, List.drop_eq_nil_of_le hl]
    rfl
  have hstep : ({ l with inbound := m }).advance svc 0 w = served.settle svc 0 w' := by
    have hlt : served.inbound.length < m.length := List.length_pos_iff.mpr hm
    rw [Link.advance]
    simp only [hfirst, isWaiting, hact, if_true, if_neg hm, hread, dif_pos hlt]
    exact advance_of_inbound_nil (l := served) rfl h.inputClosed 0
  have hbuffered : Punctual svc 0 ⟨s, m, c.deadline, c.activity⟩ := hp.congr rfl
  have hmeets := meets_settle svc 0 { c with buffer := m } w'
  rw [← hreceive, hsession] at hmeets
  rcases hmeets with ⟨hn, -⟩ | ⟨h₁, h₂, h₃, h₄⟩
  · exact absurd hbuffered hn
  · have hserved : served.settle svc 0 w' =
        ({ served with
          connection := ((c.receive svc m).settle svc 0 none w').2.1
          outbound := (serve svc s m w').1 }, (serve svc s m w').2.2) := by
      have hnone : served.room = none := hroom
      rw [settle, hnone]
      simp only [served, h.outbound, List.nil_append, h₁, h₃]
    rw [h.inbound, List.nil_append, hstep, hserved]
    exact ⟨_, rfl, h₂, h₄ hbuffered, rfl, rfl, h.inputClosed, h.capacity⟩

end Link

end RealmLogon
