import RealmLogon.Proofs.Connection.Serving

/-! How the bytes of a client are cut into reads, and when the reads come, makes no difference, as long as no
read is too large and none comes too late. -/

namespace RealmLogon.Connection

def elapse (before now : Nat) (c : Connection) : Connection :=
  if before < now ∧ c.isLate now = true then c.expire else c

def feedTimed (svc : Service) (c : Connection) (w : World) (closing : Nat) :
    Nat → List (Nat × Bytes) → Bytes × Connection × World
  | time, [] => ([], (c.elapse time closing).endOfInput, w)
  | time, (now, chunk) :: reads =>
    let first := ((c.elapse time now).receive svc chunk).settle svc now none w
    let more := feedTimed svc first.2.1 first.2.2 closing now reads
    (first.1 ++ more.1, more.2)

/-- A whole connection that is accepted at time 0. -/
def runTimed (svc : Service) (peer : Endpoint) (reads : List (Nat × Bytes)) (closing : Nat) (w : World) :
    Bytes × Connection × World :=
  let opened := (accept svc peer 0).settle svc 0 none w
  let rest := opened.2.1.feedTimed svc opened.2.2 closing 0 reads
  (opened.1 ++ rest.1, rest.2)

/-- A deadline or too many bytes have ended the connection. -/
def Disrupted (c : Connection) : Prop := c.TimedOut ∨ c.activity = .finished (.error .bufferOverflow)

variable {svc : Service} {peer : Endpoint} {c : Connection} {w : World} {time closing : Nat}

theorem feedTimed_zero (svc : Service) (c : Connection) (w : World) (chunks : List Bytes) :
    c.feedTimed svc w 0 0 (chunks.map (0, ·)) = c.feedAll svc w chunks := by
  induction chunks generalizing c w with
  | nil => rfl
  | cons chunk chunks ih =>
    simp only [List.map_cons, feedTimed, feedAll, feed, ih]
    rfl

theorem runTimed_zero (svc : Service) (peer : Endpoint) (chunks : List Bytes) (w : World) :
    runTimed svc peer (chunks.map (0, ·)) 0 w = run svc peer chunks w := by
  simp only [runTimed, run, feedTimed_zero]

/-- How a connection ends when no more bytes come. -/
def Rest.result : Rest → Except SessionError Unit
  | .waiting _ _ => .ok ()
  | .ended r => r

theorem extend_append (svc : Service) (i : Rest) (b more : Bytes) (w : World) :
    i.extend svc (b ++ more) w =
      ((i.extend svc b w).1 ++ ((i.extend svc b w).2.1.extend svc more (i.extend svc b w).2.2).1,
        ((i.extend svc b w).2.1.extend svc more (i.extend svc b w).2.2).2) := by
  cases i with
  | waiting s buffer =>
    simp only [Rest.extend]
    rw [← List.append_assoc]
    exact serve_append svc s (buffer ++ b) more w
  | ended r => rfl

theorem elapse_of_finished {r : Except SessionError Unit} (h : c.activity = .finished r) (before now : Nat) :
    c.elapse before now = c := by
  simp only [elapse, expire, pendingPhase?, h, ite_self]

theorem feedTimed_of_finished {r : Except SessionError Unit} (h : c.activity = .finished r) (w : World)
    (closing time : Nat) (reads : List (Nat × Bytes)) :
    c.feedTimed svc w closing time reads = ([], c, w) := by
  induction reads generalizing time with
  | nil => simp only [feedTimed, elapse_of_finished h, endOfInput, h]
  | cons read reads ih =>
    have hr : c.rest? = some (.ended r) := by
      simp only [rest?, h]
    have hc : c.receive svc read.2 = c := by
      simp only [receive, h]
    simp only [feedTimed, elapse_of_finished h, hc, settle_of_rest hr, ih]
    rfl

theorem elapse_cases {i : Rest} (hi : c.rest? = some i) (before now : Nat) :
    c.elapse before now = c ∨ (c.isLate now = true ∧ (c.elapse before now).TimedOut) := by
  unfold elapse
  split
  · rename_i hlate
    obtain ⟨s, b, d, a⟩ := c
    cases a with
    | waiting => exact .inr ⟨hlate.2, s.phase, rfl⟩
    | finished r => exact .inl rfl
    | _ => cases hi
  · exact .inl rfl

theorem meets_read {i : Rest} (hi : c.rest? = some i) (svc : Service) (before now : Nat) (chunk : Bytes) (w : World) :
    (bufferLimit < i.size + chunk.length ∧
        (((c.elapse before now).receive svc chunk).settle svc now none w).2.1.activity =
          .finished (.error .bufferOverflow)) ∨
      Meets svc now c (((c.elapse before now).receive svc chunk).settle svc now none w) (i.extend svc chunk w) := by
  rcases elapse_cases hi before now with he | ⟨hl, phase, ha⟩
  · rw [he]
    exact meets_receive hi svc now chunk w
  · have hr : (c.elapse before now).rest? = some (.ended (.error (.timeout phase))) := by
      simp only [rest?, ha]
    have hc : (c.elapse before now).receive svc chunk = c.elapse before now := by
      simp only [receive, ha]
    have hn : ¬Punctual svc now c := fun hp => by
      have he := hp.early
      rw [hl] at he
      cases he
    rw [hc, settle_of_rest hr]
    exact .inr (.inl ⟨hn, phase, ha⟩)

theorem result_endOfInput {i : Rest} (hi : c.rest? = some i) : c.endOfInput.result? = some i.result := by
  obtain ⟨s, b, d, a⟩ := c
  cases a with
  | waiting =>
    cases hi
    rfl
  | finished r =>
    cases hi
    rfl
  | _ => cases hi

/-- A connection that has come to what it is to come to by some bytes does so by the further ones, unless it is
disrupted. -/
theorem feedTimed_meets {i : Rest} {b : Bytes} {w : World} (hc : c.rest? = some (i.extend svc b w).2.1)
    (closing time : Nat) (reads : List (Nat × Bytes)) :
    Disrupted (c.feedTimed svc (i.extend svc b w).2.2 closing time reads).2.1 ∨
      ((i.extend svc b w).1 ++ (c.feedTimed svc (i.extend svc b w).2.2 closing time reads).1 =
          (i.extend svc (b ++ reads.flatMap (·.2)) w).1 ∧
        (c.feedTimed svc (i.extend svc b w).2.2 closing time reads).2.1.result? =
          some (i.extend svc (b ++ reads.flatMap (·.2)) w).2.1.result ∧
        (c.feedTimed svc (i.extend svc b w).2.2 closing time reads).2.2 =
          (i.extend svc (b ++ reads.flatMap (·.2)) w).2.2) := by
  -- Along the reads; what came before them goes into `b`.
  induction reads generalizing c b time with
  | nil =>
    rw [List.flatMap_nil, List.append_nil, feedTimed]
    rcases elapse_cases hc time closing with he | ⟨-, phase, he⟩
    · rw [he]
      exact .inr ⟨List.append_nil _, result_endOfInput hc, rfl⟩
    · refine .inl (.inl ⟨phase, ?_⟩)
      simp only [endOfInput, he]
  | cons read reads ih =>
    obtain ⟨now, chunk⟩ := read
    have hm := meets_read hc svc time now chunk (i.extend svc b w).2.2
    rcases hf : ((c.elapse time now).receive svc chunk).settle svc now none (i.extend svc b w).2.2 with ⟨out, c', w'⟩
    rw [hf] at hm
    simp only [feedTimed, hf]
    rcases hm with ⟨-, ho⟩ | ⟨-, phase, ht⟩ | ⟨h₁, h₂, h₃, -⟩
    · simp only [feedTimed_of_finished ho]
      exact .inl (.inr ho)
    · simp only [feedTimed_of_finished ht]
      exact .inl (.inl ⟨phase, ht⟩)
    · have ha := extend_append svc i b chunk w
      have hc' : c'.rest? = some (i.extend svc (b ++ chunk) w).2.1 := by
        rw [ha]
        exact h₂
      have hw : w' = (i.extend svc (b ++ chunk) w).2.2 := by
        rw [ha]
        exact h₃
      have ho : (i.extend svc (b ++ chunk) w).1 = (i.extend svc b w).1 ++ out := by
        rw [ha, ← h₁]
      have hi := ih hc' now
      rw [← hw, ho] at hi
      simpa only [List.flatMap_cons, List.append_assoc] using hi

/-- What a connection is to come to by all the bytes of its client. -/
def converse (svc : Service) (peer : Endpoint) (stream : Bytes) (w : World) : Bytes × Rest × World :=
  let opened := welcome peer w
  let rest := opened.2.1.extend svc stream opened.2.2
  (opened.1 ++ rest.1, rest.2)

theorem extend_welcome (svc : Service) (peer : Endpoint) (w : World) :
    (welcome peer w).2.1.extend svc [] (welcome peer w).2.2 = ([], (welcome peer w).2) := by
  rcases ho : w.run (admission peer.ip) with ⟨banned, w'⟩
  cases banned with
  | true => simp only [welcome, ho, if_true, Rest.extend]
  | false =>
    simp only [welcome, ho, Bool.false_eq_true, if_false, Rest.extend]
    exact serve_of_none rfl w'

theorem runTimed_meets (svc : Service) (peer : Endpoint) (reads : List (Nat × Bytes)) (closing : Nat)
    (w : World) :
    Disrupted (runTimed svc peer reads closing w).2.1 ∨
      ((runTimed svc peer reads closing w).1 = (converse svc peer (reads.flatMap (·.2)) w).1 ∧
        (runTimed svc peer reads closing w).2.1.result? =
          some (converse svc peer (reads.flatMap (·.2)) w).2.1.result ∧
        (runTimed svc peer reads closing w).2.2 = (converse svc peer (reads.flatMap (·.2)) w).2.2) := by
  have hm := meets_accept svc peer 0 w
  simp only [runTimed]
  rcases hf : (accept svc peer 0).settle svc 0 none w with ⟨out, c, w'⟩
  rw [hf] at hm
  rcases hm with ⟨-, phase, ht⟩ | ⟨h₁, h₂, h₃, -⟩
  · simp only [feedTimed_of_finished ht]
    exact .inl (.inl ⟨phase, ht⟩)
  · have he := extend_welcome svc peer w
    have hc : c.rest? = some ((welcome peer w).2.1.extend svc [] (welcome peer w).2.2).2.1 := by
      rw [he, h₂]
    have hi := feedTimed_meets hc closing 0 reads
    simp only [he, List.nil_append] at hi
    simp only at h₁ h₃
    rw [h₁, h₃]
    rcases hi with hi | ⟨hout, hres, hw⟩
    · exact .inl hi
    · exact .inr ⟨by rw [hout]; rfl, hres, hw⟩

/-- The bytes that a connection writes, its end and the world after it depend on the bytes of its client alone,
not on how they are cut into reads nor on when these come. Directory calls and random bytes are part of the
world. -/
theorem chunking_independent (svc : Service) (peer : Endpoint) (w : World) :
    (∀ chunks, run svc peer chunks w = runTimed svc peer (chunks.map (0, ·)) 0 w) ∧
    ∀ reads reads' closing closing', reads.flatMap (·.2) = reads'.flatMap (·.2) →
      ¬Disrupted (runTimed svc peer reads closing w).2.1 →
      ¬Disrupted (runTimed svc peer reads' closing' w).2.1 →
      (runTimed svc peer reads closing w).1 = (runTimed svc peer reads' closing' w).1 ∧
      (runTimed svc peer reads closing w).2.2 = (runTimed svc peer reads' closing' w).2.2 ∧
      ∃ result, (runTimed svc peer reads closing w).2.1.result? = some result ∧
        (runTimed svc peer reads' closing' w).2.1.result? = some result := by
  refine ⟨fun chunks => (runTimed_zero svc peer chunks w).symm, ?_⟩
  intro reads reads' closing closing' hs hd hd'
  obtain ⟨h₁, h₂, h₃⟩ := (runTimed_meets svc peer reads closing w).resolve_left hd
  obtain ⟨h₁', h₂', h₃'⟩ := (runTimed_meets svc peer reads' closing' w).resolve_left hd'
  refine ⟨?_, ?_, _, h₂, ?_⟩
  · rw [h₁, h₁', hs]
  · rw [h₃, h₃', hs]
  · rw [h₂', hs]

end RealmLogon.Connection
