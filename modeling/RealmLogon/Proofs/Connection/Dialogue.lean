import RealmLogon.Proofs.Connection.Chunking

/-! A connection as a dialogue: frame by frame a reply, kept apart from the other replies, with what answers the
questions of the session left open. With the answers of a world it is a run whose time does not pass. -/

namespace RealmLogon.Connection

/-- The replies of a connection, what it has come to by them, and the world after them. -/
structure Dialogue where
  replies : List Bytes
  rest : Rest
  world : World

namespace Dialogue

def after (d : Dialogue) (earlier : List Bytes) : Dialogue := { d with replies := earlier ++ d.replies }

def told (d : Dialogue) : Bytes × Rest × World := (d.replies.flatten, d.rest, d.world)

@[simp] theorem replies_after (d : Dialogue) (earlier : List Bytes) :
    (d.after earlier).replies = earlier ++ d.replies := rfl

end Dialogue

section Dialogue

variable (answer : (q : Query) → World → q.Answer × World) (svc : Service)

def replyTo (s : Session) (b : Bytes) (w : World) : Dialogue :=
  match _hn : s.nextFrame b with
  | .error e => ⟨[], .ended (.error e), w⟩
  | .ok none => ⟨[], .waiting s b, w⟩
  | .ok (some (c, n)) =>
    let o := (s.dispatch svc c (b.take n)).runWith answer w
    match o.1.2 with
    | .error e => ⟨[], .ended (.error e), o.2⟩
    | .ok reply =>
      if o.1.1.phase = .closed then ⟨[reply], .ended (.ok ()), o.2⟩
      else (replyTo o.1.1 (b.drop n) o.2).after [reply]
termination_by b.length
decreasing_by
  have hb := Session.nextFrame_bounds _hn
  rw [List.length_drop]
  omega

/-- Hear some more bytes, unless they are too many or the connection has ended. -/
def hear (chunk : Bytes) (w : World) : Rest → Dialogue
  | .waiting s b =>
    if bufferLimit < (b ++ chunk).length then ⟨[], .ended (.error .bufferOverflow), w⟩
    else replyTo answer svc s (b ++ chunk) w
  | .ended r => ⟨[], .ended r, w⟩

def hearAll (i : Rest) (w : World) : List Bytes → Dialogue
  | [] => ⟨[], i, w⟩
  | chunk :: chunks =>
    let d := hear answer svc chunk w i
    (hearAll d.rest d.world chunks).after d.replies

/-- A whole connection; a client whose address is banned is turned away. -/
def dialogue (peer : Endpoint) (chunks : List Bytes) (w : World) : Dialogue :=
  let r := (admission peer.ip).runWith answer w
  if r.1 then ⟨[bannedReply], .ended (.ok ()), r.2⟩
  else hearAll answer svc (.waiting { peer := peer } []) r.2 chunks

end Dialogue

section ReplyTo

variable {answer : (q : Query) → World → q.Answer × World} {svc : Service} {s s' : Session} {b reply : Bytes}
  {w w' : World} {c : Command} {n : Nat}

theorem replyTo_of_error {e : SessionError} (hn : s.nextFrame b = .error e) (w : World) :
    replyTo answer svc s b w = ⟨[], .ended (.error e), w⟩ := by
  rw [replyTo]
  split <;> simp_all

theorem replyTo_of_none (hn : s.nextFrame b = .ok none) (w : World) :
    replyTo answer svc s b w = ⟨[], .waiting s b, w⟩ := by
  rw [replyTo]
  split <;> simp_all

theorem replyTo_of_some (hn : s.nextFrame b = .ok (some (c, n))) {o : Session.Outcome}
    (hr : (s.dispatch svc c (b.take n)).runWith answer w = (o, w')) :
    replyTo answer svc s b w =
      match o.2 with
      | .error e => ⟨[], .ended (.error e), w'⟩
      | .ok reply =>
        if o.1.phase = .closed then ⟨[reply], .ended (.ok ()), w'⟩
        else (replyTo answer svc o.1 (b.drop n) w').after [reply] := by
  rw [replyTo]
  split
  · simp_all
  · simp_all
  · rename_i c' n' hn'
    obtain ⟨rfl, rfl⟩ : c' = c ∧ n' = n := by simpa [hn, eq_comm] using hn'
    simp only [hr]

theorem replyTo_of_failed (hn : s.nextFrame b = .ok (some (c, n))) {e : SessionError}
    (hr : (s.dispatch svc c (b.take n)).runWith answer w = ((s', .error e), w')) :
    replyTo answer svc s b w = ⟨[], .ended (.error e), w'⟩ := replyTo_of_some hn hr

theorem replyTo_of_closed (hn : s.nextFrame b = .ok (some (c, n)))
    (hr : (s.dispatch svc c (b.take n)).runWith answer w = ((s', .ok reply), w')) (hs : s'.phase = .closed) :
    replyTo answer svc s b w = ⟨[reply], .ended (.ok ()), w'⟩ :=
  (replyTo_of_some hn hr).trans (if_pos hs)

theorem replyTo_of_replied (hn : s.nextFrame b = .ok (some (c, n)))
    (hr : (s.dispatch svc c (b.take n)).runWith answer w = ((s', .ok reply), w')) (hs : s'.phase ≠ .closed) :
    replyTo answer svc s b w = (replyTo answer svc s' (b.drop n) w').after [reply] :=
  (replyTo_of_some hn hr).trans (if_neg hs)

theorem hear_of_replied (hn : s.nextFrame b = .ok (some (c, b.length))) (hl : b.length ≤ bufferLimit)
    (hr : (s.dispatch svc c b).runWith answer w = ((s', .ok reply), w')) (hs : s'.phase ≠ .closed) :
    hear answer svc b w (.waiting s []) = ⟨[reply], .waiting s' [], w'⟩ := by
  rw [hear, List.nil_append, if_neg (Nat.not_lt.mpr hl)]
  rw [← List.take_length (l := b)] at hr
  rw [replyTo_of_replied hn hr hs, List.drop_length, replyTo_of_none rfl]
  rfl

theorem hear_of_closed (hn : s.nextFrame b = .ok (some (c, b.length))) (hl : b.length ≤ bufferLimit)
    (hr : (s.dispatch svc c b).runWith answer w = ((s', .ok reply), w')) (hs : s'.phase = .closed) :
    hear answer svc b w (.waiting s []) = ⟨[reply], .ended (.ok ()), w'⟩ := by
  rw [hear, List.nil_append, if_neg (Nat.not_lt.mpr hl)]
  rw [← List.take_length (l := b)] at hr
  exact replyTo_of_closed hn hr hs

/-- The dialogue depends on the answers only as far as the handlers do. -/
theorem replyTo_congr {answer' : (q : Query) → World → q.Answer × World}
    (h : ∀ s c frame w, (Session.dispatch svc s c frame).runWith answer w =
      (Session.dispatch svc s c frame).runWith answer' w) (s : Session) (b : Bytes) (w : World) :
    replyTo answer svc s b w = replyTo answer' svc s b w := by
  induction hl : b.length using Nat.strongRecOn generalizing s b w with
  | ind l ih =>
    cases hn : s.nextFrame b with
    | error e => rw [replyTo_of_error hn, replyTo_of_error hn]
    | ok f =>
      cases f with
      | none => rw [replyTo_of_none hn, replyTo_of_none hn]
      | some f =>
        obtain ⟨c, n⟩ := f
        have hb := Session.nextFrame_bounds hn
        have hd : (b.drop n).length < l := by
          rw [List.length_drop]
          omega
        rw [replyTo_of_some hn rfl, replyTo_of_some hn rfl, h, ih _ hd _ _ _ rfl]

theorem dialogue_congr {answer' : (q : Query) → World → q.Answer × World}
    (h : ∀ s c frame w, (Session.dispatch svc s c frame).runWith answer w =
      (Session.dispatch svc s c frame).runWith answer' w) {peer : Endpoint}
    (ha : ∀ w, (admission peer.ip).runWith answer w = (admission peer.ip).runWith answer' w)
    (chunks : List Bytes) (w : World) :
    dialogue answer svc peer chunks w = dialogue answer' svc peer chunks w := by
  have hhear (chunk : Bytes) (w : World) (i : Rest) : hear answer svc chunk w i = hear answer' svc chunk w i := by
    cases i with
    | waiting s b => simp only [hear, replyTo_congr h]
    | ended r => rfl
  have hall (i : Rest) (w : World) : hearAll answer svc i w chunks = hearAll answer' svc i w chunks := by
    induction chunks generalizing i w with
    | nil => rfl
    | cons chunk chunks ih => simp only [hearAll, hhear, ih]
  simp only [dialogue, ha, hall]

end ReplyTo

section Run

variable {svc : Service} {peer : Endpoint} {c : Connection}

theorem told_replyTo (svc : Service) (s : Session) (b : Bytes) (w : World) :
    (replyTo World.answer svc s b w).told = serve svc s b w := by
  induction hl : b.length using Nat.strongRecOn generalizing s b w with
  | ind l ih =>
    cases hn : s.nextFrame b with
    | error e =>
      rw [replyTo_of_error hn, serve_of_error hn]
      rfl
    | ok f =>
      cases f with
      | none =>
        rw [replyTo_of_none hn, serve_of_none hn]
        rfl
      | some f =>
        obtain ⟨c, n⟩ := f
        have hb := Session.nextFrame_bounds hn
        have hd : (b.drop n).length < l := by
          rw [List.length_drop]
          omega
        rcases ho : w.run (s.dispatch svc c (b.take n)) with ⟨⟨s', r⟩, w'⟩
        cases r with
        | error e =>
          have hf : serveFrame svc s c (b.take n) w = ([], .ends (.error e), w') := by
            simp only [serveFrame, ho]
          rw [replyTo_of_failed hn ho, serve_of_ends hn hf]
          rfl
        | ok reply =>
          by_cases hs : s'.phase = .closed
          · have hf : serveFrame svc s c (b.take n) w = (reply, .ends (.ok ()), w') := by
              simp only [serveFrame, ho, if_pos hs]
            rw [replyTo_of_closed hn ho hs, serve_of_ends hn hf]
            simp only [Dialogue.told, List.flatten_cons, List.flatten_nil, List.append_nil]
          · have hf : serveFrame svc s c (b.take n) w = (reply, .goesOn s', w') := by
              simp only [serveFrame, ho, if_neg hs]
            rw [replyTo_of_replied hn ho hs, serve_of_goesOn hn hf, ← ih _ hd s' _ w' rfl]
            rfl

theorem meets_hear {i : Rest} (hi : c.rest? = some i) (svc : Service) (chunk : Bytes) (w : World) :
    Meets svc 0 c (c.feed svc w chunk) (hear World.answer svc chunk w i).told := by
  unfold feed
  obtain ⟨s, b, d, a⟩ := c
  cases a with
  | waiting =>
    cases hi
    by_cases hl : bufferLimit < (b ++ chunk).length
    · have hr : receive svc ⟨s, b, d, .waiting⟩ chunk =
          finish ⟨s, b ++ chunk, d, .waiting⟩ (.error .bufferOverflow) := by
        simp only [receive, if_pos hl]
      rw [hr, settle_of_rest (r := .ended (.error .bufferOverflow)) rfl, hear, if_pos hl]
      exact .inr ⟨rfl, rfl, rfl, fun h => h.congr rfl⟩
    · have hr : receive svc ⟨s, b, d, .waiting⟩ chunk = next svc ⟨s, b ++ chunk, d, .waiting⟩ := by
        simp only [receive, if_neg hl]
      rw [hr, hear, if_neg hl, told_replyTo]
      exact (meets_settle svc 0 ⟨s, b ++ chunk, d, .waiting⟩ w).mono fun h => h.congr rfl
  | finished r =>
    cases hi
    have hr : receive svc ⟨s, b, d, .finished r⟩ chunk = ⟨s, b, d, .finished r⟩ := rfl
    rw [hr, settle_of_rest (r := .ended r) rfl]
    exact .inr ⟨rfl, rfl, rfl, id⟩
  | _ => cases hi

/-- A run as a dialogue tells it: its bytes, its end, and the world after it. -/
structure Reports (d : Dialogue) (r : Bytes × Connection × World) : Prop where
  bytes : r.1 = d.replies.flatten
  result : r.2.1.result? = some d.rest.result
  world : r.2.2 = d.world

theorem Reports.after {d : Dialogue} {out : Bytes} {r : Connection × World} (h : Reports d (out, r))
    {first : Bytes} {earlier : List Bytes} (he : first = earlier.flatten) :
    Reports (d.after earlier) (first ++ out, r) := by
  refine ⟨?_, h.result, h.world⟩
  rw [he, Dialogue.replies_after, List.flatten_append, ← h.bytes]

theorem timedOut_or_reports {i : Rest} (hi : c.rest? = some i) (chunks : List Bytes) (w : World) :
    (c.feedAll svc w chunks).2.1.TimedOut ∨
      Reports (hearAll World.answer svc i w chunks) (c.feedAll svc w chunks) := by
  induction chunks generalizing c i w with
  | nil => exact .inr ⟨rfl, result_endOfInput hi, rfl⟩
  | cons chunk chunks ih =>
    simp only [feedAll, hearAll]
    rcases meets_hear hi svc chunk w with ⟨-, phase, ht⟩ | ⟨hout, hrest, hworld, -⟩
    · have hstop : (c.feed svc w chunk).2.1.feedAll svc (c.feed svc w chunk).2.2 chunks =
          ([], (c.feed svc w chunk).2.1, (c.feed svc w chunk).2.2) := by
        rw [← feedTimed_zero]
        exact feedTimed_of_finished ht _ 0 0 _
      rw [hstop]
      exact .inl ⟨phase, ht⟩
    · refine (ih hrest _).imp_right fun hr => ?_
      rw [hworld] at hr ⊢
      exact hr.after hout

theorem hearAll_ended (answer : (q : Query) → World → q.Answer × World) (svc : Service)
    (r : Except SessionError Unit) (w : World) (chunks : List Bytes) :
    hearAll answer svc (.ended r) w chunks = ⟨[], .ended r, w⟩ := by
  induction chunks with
  | nil => rfl
  | cons chunk chunks ih =>
    rw [hearAll, hear, ih]
    rfl

theorem reports_run {chunks : List Bytes} {w : World} (h : ¬(run svc peer chunks w).2.1.TimedOut) :
    Reports (dialogue World.answer svc peer chunks w) (run svc peer chunks w) := by
  rcases ho : (accept svc peer 0).settle svc 0 none w with ⟨out, c, w₁⟩
  have hm := meets_accept svc peer 0 w
  simp only [run, ho] at h hm ⊢
  rcases hm with ⟨-, phase, ht⟩ | ⟨hout, hrest, hworld, -⟩
  · have hstop : c.feedAll svc w₁ chunks = ([], c, w₁) := by
      rw [← feedTimed_zero]
      exact feedTimed_of_finished ht _ 0 0 _
    rw [hstop] at h
    exact absurd ⟨phase, ht⟩ h
  · have hr := (timedOut_or_reports hrest chunks w₁).resolve_left h
    change out = _ at hout
    change w₁ = _ at hworld
    rw [hout]
    rw [hworld] at hr ⊢
    rcases ha : w.run (admission peer.ip) with ⟨banned, w₂⟩
    have ha' : (admission peer.ip).runWith World.answer w = (banned, w₂) := ha
    cases banned with
    | true =>
      simp only [welcome, ha, if_true, hearAll_ended] at hr ⊢
      simp only [dialogue, ha', if_true]
      have hb : bannedReply = [bannedReply].flatten := (List.append_nil _).symm
      exact hr.after hb
    | false =>
      simp only [welcome, ha, Bool.false_eq_true, if_false] at hr ⊢
      simp only [dialogue, ha', Bool.false_eq_true, if_false]
      exact hr

end Run

end RealmLogon.Connection
