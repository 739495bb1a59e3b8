import RealmLogon.Proofs.Connection.Grammar
import RealmLogon.Proofs.Connection.Idling
import RealmLogon.Proofs.Session.Requests

/-! Bytes that wait in the buffer of a connection. Every frame of a logon has at least four bytes, and none is longer
than a proof with the longest token; so what has come is taken up frame by frame, and a connection that reads again has
less than one frame left. -/

namespace RealmLogon

namespace Frame

variable {opcode : UInt8} {r : Rule} {b : Bytes} {n : Nat}

theorem challengeLength_ne_none (b : Bytes) : challengeLength b ≠ .ok none := by
  intro h
  unfold challengeLength at h
  cases hl : byteAt b 2 with
  | error e => simp [hl, bind, Except.bind] at h
  | ok low =>
    cases hh : byteAt b 3 with
    | error e => simp [hl, hh, bind, Except.bind] at h
    | ok high =>
      simp only [hl, hh, bind, Except.bind] at h
      split at h <;> cases h

/-- Of a proof whose length is not known, the length of its token has not come. -/
theorem length_le_of_proofLength (h : proofLength b = .ok none) : b.length ≤ LogonProof.size := by
  unfold proofLength at h
  cases hf : byteAt b LogonProof.flagsAt with
  | error e => simp [hf, bind, Except.bind] at h
  | ok flags =>
    simp only [hf, bind, Except.bind] at h
    split at h
    · cases h
    · rw [Except.ok.injEq, Option.map_eq_none_iff] at h
      exact List.getElem?_eq_none_iff.mp h

theorem length_within (hr : rule opcode = .ok r) (hp : r.phase ≠ .xfer) (h : r.length b = .ok (some n)) :
    4 ≤ n ∧ n ≤ longest := by
  rcases length_cases hr with hl | hl | ⟨m, -, hm, hl⟩
  · rw [hl] at h
    split at h
    · cases h
    · exact ⟨(challengeLength_take h).1, Nat.le_trans (challengeLength_bounds h).2 (by decide)⟩
  · rw [hl] at h
    split at h
    · cases h
    · exact ⟨Nat.le_trans (by decide) (proofLength_take h).1, (proofLength_bounds h).2⟩
  · rw [hl] at h
    split at h
    · cases h
    · cases h
      exact hm hp

theorem lt_longest (hr : rule opcode = .ok r) (hp : r.phase ≠ .xfer) (h : r.length b = .ok none) :
    b.length < longest := by
  have hsize : LogonProof.size < longest := by decide
  rcases length_cases hr with hl | hl | ⟨m, -, hm, hl⟩
  · rw [hl] at h
    split at h
    · have hfour : 4 < longest := by decide
      omega
    · exact absurd h (challengeLength_ne_none b)
  · rw [hl] at h
    split at h
    · omega
    · exact Nat.lt_of_le_of_lt (length_le_of_proofLength h) hsize
  · rw [hl] at h
    split at h
    · have hlong := (hm hp).2
      omega
    · cases h

end Frame

namespace Session

variable {s : Session} {b : Bytes} {c : Command} {n : Nat}

theorem Coherent.phase_ne_xfer (hs : s.Coherent) : s.phase ≠ .xfer := by
  rcases hs.phase with hp | hp | hp | hp | hp <;> rw [hp] <;> decide

theorem nextFrame_within (hs : s.Coherent) (h : s.nextFrame b = .ok (some (c, n))) :
    4 ≤ n ∧ n ≤ Frame.longest := by
  obtain ⟨opcode, rest, r, rfl, hr, hp, -, hl, -⟩ := nextFrame_eq_some h
  exact Frame.length_within hr (hp ▸ hs.phase_ne_xfer) hl

/-- Bytes that are no whole frame yet are fewer than those of the longest one. -/
theorem lt_longest_of_none (hs : s.Coherent) (h : s.nextFrame b = .ok none) : b.length < Frame.longest := by
  cases b with
  | nil => decide
  | cons opcode b =>
    cases hr : Frame.rule opcode with
    | error e => simp [nextFrame, hr] at h
    | ok r =>
      simp only [nextFrame, hr] at h
      by_cases hp : r.phase = s.phase
      · have hx : r.phase ≠ .xfer := hp ▸ hs.phase_ne_xfer
        rw [if_neg fun hne => hne hp] at h
        cases hl : r.length (opcode :: b) with
        | error e => simp [hl] at h
        | ok l =>
          cases l with
          | none => exact Frame.lt_longest hr hx hl
          | some l =>
            have hle := (Frame.length_within hr hx hl).2
            simp only [hl] at h
            split at h
            · cases h
            · omega
      · rw [if_pos hp] at h
        cases h

theorem nextFrame_longest (hp : s.phase = .logonProof) {p : LogonProof} {token : String} (ht : p.token = some token)
    (hl : (Bytes.ofString token).length = 255) : s.nextFrame p.encode = .ok (some (.logonProof, Frame.longest)) := by
  have hlength : p.encode.length = Frame.longest := by
    have hsize : Frame.longest = 331 := rfl
    simp only [p.encode_eq, LogonProof.sentToken, ht, List.length_append, List.length_cons, List.length_nil,
      Octets.length_toList, hl]
    omega
  have hshort : ∀ t ∈ p.token, (Bytes.ofString t).length < 256 := by
    intro t hm
    rw [ht, Option.mem_some_iff] at hm
    rw [← hm]
    omega
  rw [← hlength]
  exact nextFrame_logonProof hshort hp

theorem nextFrame_ne_overflow (b : Bytes) : s.nextFrame b ≠ .error .bufferOverflow := by
  unfold nextFrame
  repeat' split
  all_goals simp

end Session

namespace Connection

open Session

def heard (t : List Event) : Nat := t.countP fun
  | .taken .. => true
  | _ => false

theorem heard_append (t u : List Event) : heard (t ++ u) = heard t + heard u := List.countP_append

/-- Frames of at least four bytes are at most a quarter of these. -/
theorem heard_le {t : List Event} (h : ∀ phase command frame, .taken phase command frame ∈ t → 4 ≤ frame.length) :
    4 * heard t ≤ (t.flatMap Event.frame).length := by
  induction t with
  | nil => exact Nat.le_refl 0
  | cons x t ih =>
    have hrest := ih fun phase command frame hm => h phase command frame (List.mem_cons_of_mem x hm)
    rw [List.flatMap_cons, List.length_append]
    cases x with
    | taken phase command frame =>
      have hx := h phase command frame List.mem_cons_self
      have hcount : heard (.taken phase command frame :: t) = heard t + 1 := List.countP_cons_of_pos rfl
      rw [hcount, Event.frame_taken]
      omega
    | asked q a =>
      have hcount : heard (.asked q a :: t) = heard t := List.countP_cons_of_neg nofun
      rw [hcount]
      omega
    | replied reply =>
      have hcount : heard (.replied reply :: t) = heard t := List.countP_cons_of_neg nofun
      rw [hcount]
      omega

section Moves

variable {svc : Service} {peer : Endpoint} {t : List Event} {out : Bytes} {c : Connection} {w : World}

theorem frames_within (h : Conversation svc peer t out c w) :
    ∀ phase command frame, .taken phase command frame ∈ t → 4 ≤ frame.length ∧ frame.length ≤ Frame.longest := by
  intro phase command frame hm
  obtain ⟨s, hs, -, hn⟩ := awaited_of_held (held_of_conversation h) phase command frame hm
  exact nextFrame_within hs hn

theorem lt_longest_of_waiting (h : Conversation svc peer t out c w) (ha : c.activity = .waiting) :
    c.buffer.length < Frame.longest := by
  have hs := stopped_of_conversation h
  rw [Stopped, ha] at hs
  exact lt_longest_of_none (coherent_of_held (held_of_conversation h)) hs.2

/-- Whatever a move takes up comes out of the buffer, and nothing comes into it but what is read. -/
theorem backlog_move (h : Conversation svc peer t out c w) (m : Move) :
    4 * heard (c.moveTells w m) + (c.move svc w m).1.buffer.length ≤ c.buffer.length + (c.brings m).length := by
  have hframes := frames_within (conversation_move h m)
  have hheard : 4 * heard (c.moveTells w m) ≤ ((c.moveTells w m).flatMap Event.frame).length :=
    heard_le fun phase command frame hm => (hframes phase command frame (List.mem_append_right t hm)).1
  have hbytes := congrArg List.length (input_move svc t c w m)
  simp only [input, List.flatMap_append, List.length_append] at hbytes
  omega

theorem brings_of_busy (h : c.activity ≠ .waiting) (m : Move) : c.brings m = [] := by
  obtain ⟨s, b, d, a⟩ := c
  cases m with
  | receive chunk =>
    cases a with
    | waiting => exact absurd rfl h
    | _ => rfl
  | _ => rfl

/-- A connection that reads moderately keeps its buffer within the limit. -/
theorem length_buffer_move (h : Conversation svc peer t out c w) (hb : c.buffer.length ≤ bufferLimit) {m : Move}
    (hm : ∀ chunk, m = .receive chunk → chunk.length + Frame.longest ≤ bufferLimit + 1) :
    (c.move svc w m).1.buffer.length ≤ bufferLimit := by
  have hmove := backlog_move h m
  by_cases ha : c.activity = .waiting
  · have hwaiting := lt_longest_of_waiting h ha
    cases m with
    | receive chunk =>
      have hchunk := hm chunk rfl
      simp only [brings, ha] at hmove
      omega
    | _ =>
      simp only [brings, List.length_nil] at hmove
      omega
  · rw [brings_of_busy ha, List.length_nil] at hmove
    omega

theorem ne_overflow (h : Conversation svc peer t out c w) (hb : c.buffer.length ≤ bufferLimit) :
    c.activity ≠ .finished (.error .bufferOverflow) := by
  intro ha
  have hover := over_of_conversation h ha
  generalize hr : (Except.error SessionError.bufferOverflow : Except SessionError Unit) = r at hover
  cases hover with
  | closed hp hu => cases hr
  | deserted hp hn => cases hr
  | undue hp hn =>
    cases hr
    exact nextFrame_ne_overflow _ hn
  | overfull hp hl => omega
  | failed hf =>
    cases hr
    obtain ⟨command, frame, es, hanswered⟩ := answered_of_answering hf
    obtain ⟨-, ⟨e, he⟩ | ⟨login, he⟩⟩ | ⟨he, -⟩ := hanswered.fault
    · cases he
    · cases he
    · cases he
  | late phase => cases hr

end Moves

section Settle

variable {svc : Service} {peer : Endpoint} {t : List Event} {out : Bytes} {c : Connection} {w : World} {n : Nat}

theorem write_next (svc : Service) (c : Connection) (time : Nat) (room : Option Nat) :
    (c.next svc).write svc time room = ([], c.next svc) := by
  unfold next
  split <;> rfl

theorem written_cases (svc : Service) (c : Connection) (time : Nat) :
    (c.written svc time).buffer.length < c.buffer.length ∨ ∃ i, (c.written svc time).rest? = some i := by
  unfold written
  split
  · exact .inr ⟨_, rfl⟩
  · exact next_cases svc _

/-- One decision and one reply take up a frame, or there is nothing left to do. -/
theorem round_cases (svc : Service) (time : Nat) (c : Connection) (w : World) :
    ((c.resolveAt svc time w).1.write svc time none).2.buffer.length < c.buffer.length ∨
      ∃ i, ((c.resolveAt svc time w).1.write svc time none).2.rest? = some i := by
  rcases resolveAt_cases svc time c w with hr | ⟨-, w', hr⟩
  · rw [hr]
    obtain ⟨s, b, d, a⟩ := c
    cases a with
    | admitting f =>
      rcases ho : w.run f with ⟨banned, w'⟩
      simp only [resolve, ho]
      cases banned with
      | true => exact written_cases svc ⟨{ s with phase := .closed }, b, d, .writing .closed bannedReply⟩ time
      | false =>
        simp only [admitted, Bool.false_eq_true, if_false, write_next]
        exact next_cases svc _
    | deciding phase f =>
      rcases ho : w.run f with ⟨⟨s', r⟩, w'⟩
      simp only [resolve, ho]
      cases r with
      | error e => exact .inr ⟨_, rfl⟩
      | ok reply => exact written_cases svc ⟨s', b, d, .writing phase reply⟩ time
    | writing phase rest => exact written_cases svc ⟨s, b, d, .writing phase rest⟩ time
    | waiting => exact .inr ⟨_, rfl⟩
    | finished r => exact .inr ⟨_, rfl⟩
  · rw [hr]
    obtain ⟨s, b, d, a⟩ := c
    cases a <;> exact .inr ⟨_, rfl⟩

theorem settle_rests (svc : Service) (time : Nat) (c : Connection) (w : World) :
    ∃ i, (c.settle svc time none w).2.1.rest? = some i := by
  -- Each round that is not the last makes the buffer shorter.
  induction hl : c.buffer.length using Nat.strongRecOn generalizing c w with
  | ind l ih =>
    have hround := round_cases svc time c w
    rw [settle_eq rfl rfl hround]
    rcases hround with hlt | ⟨i, hi⟩
    · exact ih _ (hl ▸ hlt) _ _ rfl
    · rw [settle_of_rest hi]
      exact ⟨i, hi⟩

/-- What every move but a read keeps, a connection does not break by itself. -/
theorem driven_of_moves {P : List Event → Bytes → Connection → World → Prop}
    (hP : ∀ {t out c w} (m : Move), c.brings m = [] → P t out c w →
      P (t ++ c.moveTells w m) (out ++ c.moveWrites svc m) (c.move svc w m).1 (c.move svc w m).2) :
    Driven svc P where
  decide h := by simpa only [moveWrites, moveTells, Connection.move, List.append_nil] using hP .decide rfl h
  write h time room := hP (.write time room) rfl h
  expire h := by simpa only [moveWrites, moveTells, Connection.move, List.append_nil] using hP .expire rfl h

/-- A conversation has gone on, and its frames have come out of so many bytes. -/
def Consumed (svc : Service) (peer : Endpoint) (t : List Event) (n : Nat) (t' : List Event) (out : Bytes)
    (c : Connection) (w : World) : Prop :=
  ∃ events, t' = t ++ events ∧ Conversation svc peer t' out c w ∧ 4 * heard events + c.buffer.length ≤ n

theorem driven_consumed (svc : Service) (peer : Endpoint) (t : List Event) (n : Nat) :
    Driven svc (Consumed svc peer t n) := by
  refine driven_of_moves fun {_ _ c w} m hm h => ?_
  obtain ⟨events, rfl, hc, hn⟩ := h
  have hmove := backlog_move hc m
  rw [hm, List.length_nil] at hmove
  refine ⟨events ++ c.moveTells w m, List.append_assoc .., conversation_move hc m, ?_⟩
  rw [heard_append]
  omega

theorem settle_consumed (h : Conversation svc peer t out c w) (time : Nat) (room : Option Nat) :
    ∃ events out', Conversation svc peer (t ++ events) out' (c.settle svc time room w).2.1
        (c.settle svc time room w).2.2 ∧
      4 * heard events + (c.settle svc time room w).2.1.buffer.length ≤ c.buffer.length := by
  have hstart : Consumed svc peer t c.buffer.length t out c w := by
    refine ⟨[], (List.append_nil t).symm, h, ?_⟩
    simp [heard]
  obtain ⟨t', events, rfl, hc, hn⟩ :=
    Told.settle ((driven_consumed svc peer t c.buffer.length).drivenAt time) ⟨t, hstart⟩ room
  exact ⟨events, _, hc, hn⟩

def Modest (svc : Service) (peer : Endpoint) (t : List Event) (out : Bytes) (c : Connection) (w : World) : Prop :=
  Conversation svc peer t out c w ∧ c.buffer.length ≤ bufferLimit

theorem driven_modest (svc : Service) (peer : Endpoint) : Driven svc (Modest svc peer) := by
  refine driven_of_moves fun m hm ⟨hc, hb⟩ => ⟨conversation_move hc m, ?_⟩
  have hmove := backlog_move hc m
  rw [hm, List.length_nil] at hmove
  omega

theorem modest_feedAll {chunks : List Bytes} (h : Told (Modest svc peer) out c w)
    (hchunks : ∀ chunk ∈ chunks, chunk.length + Frame.longest ≤ bufferLimit + 1) :
    Told (Modest svc peer) (out ++ (c.feedAll svc w chunks).1) (c.feedAll svc w chunks).2.1
      (c.feedAll svc w chunks).2.2 := by
  induction chunks generalizing out c w with
  | nil =>
    obtain ⟨t, hc, hb⟩ := h
    rw [feedAll, List.append_nil]
    refine ⟨t, hc.endOfInput, length_buffer_move hc hb (m := .endOfInput) fun chunk hm => ?_⟩
    cases hm
  | cons chunk chunks ih =>
    obtain ⟨t, hc, hb⟩ := h
    have hread : Modest svc peer (t ++ c.receiveTells chunk) out (c.receive svc chunk) w := by
      refine ⟨hc.receive chunk, length_buffer_move hc hb (m := .receive chunk) fun x hx => ?_⟩
      cases hx
      exact hchunks chunk List.mem_cons_self
    have hsettled := Told.settle ((driven_modest svc peer).drivenAt 0) ⟨_, hread⟩ none
    rw [feedAll, ← List.append_assoc]
    exact ih hsettled fun x hx => hchunks x (List.mem_cons_of_mem chunk hx)

theorem modest_run (svc : Service) (peer : Endpoint) {chunks : List Bytes}
    (hchunks : ∀ chunk ∈ chunks, chunk.length + Frame.longest ≤ bufferLimit + 1) (w : World) :
    Told (Modest svc peer) (run svc peer chunks w).1 (run svc peer chunks w).2.1 (run svc peer chunks w).2.2 := by
  have haccept : Told (Modest svc peer) [] (accept svc peer 0) w := ⟨[], .accept 0 w, Nat.zero_le _⟩
  exact modest_feedAll (haccept.settle ((driven_modest svc peer).drivenAt 0) none) hchunks

end Settle

section Watched

variable {svc : Service} {peer : Endpoint} {k : Watch} {c : Connection} {now : Nat} {m : Move}

def Occurrence.chunk : Occurrence → Bytes
  | receive chunk => chunk
  | _ => []

def delivered (timeline : List (Nat × World × Occurrence)) : Bytes := timeline.flatMap fun x => x.2.2.chunk

theorem move?_receive {o : Occurrence} {chunk : Bytes} (h : o.move? c now = some (.receive chunk)) :
    o.chunk = chunk := by
  cases o with
  | receive chunk' =>
    cases h
    rfl
  | timer =>
    simp only [Occurrence.move?] at h
    split at h <;> cases h
  | _ => cases h

theorem length_brings_le {o : Occurrence} (h : o.move? c now = some m) : (c.brings m).length ≤ o.chunk.length := by
  cases m with
  | receive chunk =>
    rw [move?_receive h]
    simp only [brings]
    split
    · exact Nat.le_refl _
    · exact Nat.zero_le _
  | _ => exact Nat.zero_le _

theorem make_consumed {t : List Event} {out : Bytes} {w' : World} (h : Conversation svc peer t out k.connection w')
    (w : World) (m : Move) :
    ∃ events, (k.make svc w m).history = k.history ++ events ∧
      4 * heard (events.map Prod.snd) + (k.make svc w m).connection.buffer.length ≤
        k.connection.buffer.length + (k.connection.brings m).length := by
  refine ⟨(k.connection.moveTells w m).map (k.now, ·), rfl, ?_⟩
  rw [List.map_map, Function.comp_def, List.map_id']
  exact backlog_move (h.elsewhere w) m

theorem step_consumed (h : Timely svc peer k) (x : Nat × World × Occurrence) :
    ∃ events, (k.step svc x).history = k.history ++ events ∧
      4 * heard (events.map Prod.snd) + (k.step svc x).connection.buffer.length ≤
        k.connection.buffer.length + x.2.2.chunk.length := by
  obtain ⟨w', hc⟩ := h.conversation
  obtain hs | ⟨-, hs⟩ | ⟨m, -, hm, hs⟩ := step_cases h x
  · rw [hs]
    refine ⟨[], (List.append_nil _).symm, ?_⟩
    simp [heard, Watch.wait]
  · obtain ⟨events, hevents, hle⟩ := make_consumed (k := k.wait (k.limit svc)) hc x.2.1 .expire
    rw [hs]
    exact ⟨events, hevents, Nat.le_trans hle (Nat.add_le_add_left (Nat.zero_le _) _)⟩
  · obtain ⟨events, hevents, hle⟩ := make_consumed (k := k.wait (k.now + x.1)) hc x.2.1 m
    rw [hs]
    exact ⟨events, hevents, Nat.le_trans hle (Nat.add_le_add_left (length_brings_le hm) _)⟩

theorem foldl_consumed (h : Timely svc peer k) (more : List (Nat × World × Occurrence)) :
    ∃ events, (more.foldl (Watch.step svc) k).history = k.history ++ events ∧
      4 * heard (events.map Prod.snd) + (more.foldl (Watch.step svc) k).connection.buffer.length ≤
        k.connection.buffer.length + (delivered more).length := by
  induction more generalizing k with
  | nil =>
    refine ⟨[], (List.append_nil _).symm, ?_⟩
    simp [heard, delivered]
  | cons x more ih =>
    obtain ⟨first, hfirst, hle⟩ := step_consumed h x
    obtain ⟨events, hevents, hrest⟩ := ih (h.step x)
    refine ⟨first ++ events, ?_, ?_⟩
    · rw [List.foldl_cons, hevents, hfirst, List.append_assoc]
    · have hdelivered : (delivered (x :: more)).length = x.2.2.chunk.length + (delivered more).length := by
        rw [delivered, List.flatMap_cons, List.length_append, delivered]
      rw [List.foldl_cons, List.map_append, heard_append, hdelivered]
      omega

theorem length_buffer_step (h : Timely svc peer k) (hb : k.connection.buffer.length ≤ bufferLimit)
    {x : Nat × World × Occurrence} (hx : x.2.2.chunk.length + Frame.longest ≤ bufferLimit + 1) :
    (k.step svc x).connection.buffer.length ≤ bufferLimit := by
  obtain ⟨w', hc⟩ := h.conversation
  obtain hs | ⟨-, hs⟩ | ⟨m, -, hm, hs⟩ := step_cases h x
  · rw [hs]
    exact hb
  · rw [hs]
    exact length_buffer_move (hc.elsewhere x.2.1) hb (m := .expire) nofun
  · rw [hs]
    refine length_buffer_move (hc.elsewhere x.2.1) hb fun chunk he => ?_
    subst he
    rwa [← move?_receive hm]

theorem length_buffer_watch (svc : Service) (peer : Endpoint) (start : Nat)
    {timeline : List (Nat × World × Occurrence)}
    (hx : ∀ x ∈ timeline, x.2.2.chunk.length + Frame.longest ≤ bufferLimit + 1) :
    (watch svc peer start timeline).connection.buffer.length ≤ bufferLimit := by
  have hfold {k : Watch} (h : Timely svc peer k) (hb : k.connection.buffer.length ≤ bufferLimit) :
      (timeline.foldl (Watch.step svc) k).connection.buffer.length ≤ bufferLimit := by
    induction timeline generalizing k with
    | nil => exact hb
    | cons x timeline ih =>
      have hstep := length_buffer_step h hb (hx x List.mem_cons_self)
      exact ih (fun y hy => hx y (List.mem_cons_of_mem x hy)) (h.step x) hstep
  exact hfold (timely_accept svc peer start) (Nat.zero_le _)

end Watched

/-- A connection works off what it reads. The frames that it takes up have four bytes or more, so those that it takes
up by itself are at most a quarter of the bytes in its buffer, and then it has come to rest; when it reads again, less
than one frame is left; and reads that are not too long never fill the buffer. -/
structure KeepsUp (svc : Service) (peer : Endpoint) (start : Nat) (timeline : List (Nat × World × Occurrence))
    (k : Watch) : Prop where
  frames : ∀ time phase command frame, (time, .taken phase command frame) ∈ k.history →
    4 ≤ frame.length ∧ frame.length ≤ 331
  consumes : ∀ more, ∃ events, (watch svc peer start (timeline ++ more)).history = k.history ++ events ∧
    4 * heard (events.map Prod.snd) + (watch svc peer start (timeline ++ more)).connection.buffer.length ≤
      k.connection.buffer.length + (delivered more).length
  settles : ∀ time w, (∃ i, (k.connection.settle svc time none w).2.1.rest? = some i) ∧
    ∃ events out, Conversation svc peer (k.history.map Prod.snd ++ events) out
        (k.connection.settle svc time none w).2.1 (k.connection.settle svc time none w).2.2 ∧
      4 * heard events + (k.connection.settle svc time none w).2.1.buffer.length ≤ k.connection.buffer.length
  waits : k.connection.activity = .waiting → k.connection.buffer.length < 331
  fits : (∀ x ∈ timeline, x.2.2.chunk.length ≤ 3766) →
    k.connection.activity ≠ .finished (.error .bufferOverflow)

theorem keepsUp_watch (svc : Service) (peer : Endpoint) (start : Nat) (timeline : List (Nat × World × Occurrence)) :
    KeepsUp svc peer start timeline (watch svc peer start timeline) := by
  have htimely := timely_watch svc peer start timeline
  obtain ⟨w, hc⟩ := htimely.conversation
  exact {
    frames := fun time phase command frame hm =>
      frames_within hc phase command frame (List.mem_map.mpr ⟨_, hm, rfl⟩)
    consumes := fun more => by
      rw [watch_append]
      exact foldl_consumed htimely more
    settles := fun time w' => ⟨settle_rests svc time _ w', settle_consumed (hc.elsewhere w') time none⟩
    waits := lt_longest_of_waiting hc
    fits := fun hx => ne_overflow hc (length_buffer_watch svc peer start fun x hm => Nat.add_le_add_right (hx x hm) 331) }

/-- Whatever a client sends and however it is cut, a connection keeps up with it, and reads of at most 3766 bytes never
end it with an overflow. The longest frame is a proof with a token of 255 bytes. -/
theorem backlog_stays_small (svc : Service) (peer : Endpoint) :
    (∀ start timeline, KeepsUp svc peer start timeline (watch svc peer start timeline)) ∧
    (∀ chunks w, (∀ chunk ∈ chunks, chunk.length ≤ 3766) →
      (run svc peer chunks w).2.1.activity ≠ .finished (.error .bufferOverflow)) ∧
    ∀ (s : Session) (p : LogonProof) (token : String), s.phase = .logonProof → p.token = some token →
      (Bytes.ofString token).length = 255 → s.nextFrame p.encode = .ok (some (.logonProof, 331)) := by
  refine ⟨keepsUp_watch svc peer, fun chunks w hchunks => ?_, fun s p token hp ht hl => nextFrame_longest hp ht hl⟩
  obtain ⟨t, hc, hb⟩ := modest_run svc peer (fun chunk hm => Nat.add_le_add_right (hchunks chunk hm) 331) w
  exact ne_overflow hc hb

namespace Intruder

/-- Three bytes of a frame that never comes to its end, and 3766 bytes at once, the first four of them a frame. -/
theorem drip_fits : (watch service client 0 drip).connection.activity ≠ .finished (.error .bufferOverflow) ∧
    (watch service client 0 (drip.take 2)).connection.buffer.length < 331 ∧
    (run service client [List.replicate 3766 0] world).2.1.activity ≠ .finished (.error .bufferOverflow) := by
  obtain ⟨hwatch, hrun, -⟩ := backlog_stays_small service client
  refine ⟨(hwatch 0 drip).fits ?_, (hwatch 0 (drip.take 2)).waits ?_, hrun _ world ?_⟩
  · simp [drip, Occurrence.chunk]
  · rfl
  · intro chunk hm
    rw [List.mem_singleton.mp hm]
    exact Nat.le_of_eq List.length_replicate

end Intruder

end Connection

end RealmLogon
