import RealmLogon.Connection.Timeline
import RealmLogon.Proofs.Connection.Watch

/-! The timers of a service with many clients. Time goes from one timer to the next, and no deadline is passed over:
each connection is one that is watched. -/

namespace RealmLogon

open Connection

namespace Connection

/-- A connection as someone with a clock sees it at a time, with the last bytes that it has written. -/
def Watched (svc : Service) (time : Nat) (out : Bytes) (c : Connection) : Prop :=
  ∃ peer start timeline, (watch svc peer start timeline).connection = c ∧
    (watch svc peer start timeline).now = time ∧ out <:+ (watch svc peer start timeline).written.map Prod.snd

variable {svc : Service} {peer : Endpoint} {k : Watch} {time : Nat} {out : Bytes} {c : Connection}

theorem watched_accept (svc : Service) (peer : Endpoint) (time : Nat) : Watched svc time [] (accept svc peer time) :=
  ⟨peer, time, [], rfl, rfl, List.suffix_rfl⟩

/-- What happens at once happens before any deadline. -/
theorem step_now (h : Timely svc peer k) (w : World) {o : Occurrence} {m : Move}
    (hm : o.move? k.connection k.now = some m) : k.step svc (0, w, o) = k.make svc w m := by
  have hp : k.pass svc w 0 = k := by
    obtain ⟨-, hp⟩ | ⟨hr, hl, -⟩ := pass_cases h w 0
    · exact hp
    · exact absurd (h.pending hr).2.1 (Nat.not_le_of_lt hl)
  simp only [Watch.step, hp, hm]

theorem Watched.moved (h : Watched svc time out c) (w : World) {o : Occurrence} {m : Move}
    (hm : o.move? c time = some m) : Watched svc time (out ++ c.moveWrites svc m) (c.move svc w m).1 := by
  obtain ⟨peer, start, timeline, rfl, rfl, hout⟩ := h
  have hstep : watch svc peer start (timeline ++ [(0, w, o)]) = (watch svc peer start timeline).make svc w m :=
    (watch_append ..).trans (step_now (timely_watch svc peer start timeline) w hm)
  refine ⟨peer, start, timeline ++ [(0, w, o)], congrArg Watch.connection hstep,
    (congrArg Watch.now hstep).trans rfl, ?_⟩
  obtain ⟨before, hbefore⟩ := hout
  refine ⟨before, ?_⟩
  rw [hstep, ← List.append_assoc, hbefore]
  simp only [Watch.make, List.map_append, List.map_map, Function.comp_def, List.map_id']

theorem Watched.movedSilently (h : Watched svc time out c) (w : World) {o : Occurrence} {m : Move}
    (hm : o.move? c time = some m) (hs : c.moveWrites svc m = []) : Watched svc time out (c.move svc w m).1 := by
  have hmoved := h.moved w hm
  rwa [hs, List.append_nil] at hmoved

theorem drivenAt_watched (svc : Service) (time : Nat) : DrivenAt svc time fun _ out c _ => Watched svc time out c where
  decide {_ _ _ w} h := h.movedSilently w (o := .decide) rfl rfl
  write {_ _ _ w} h room := h.moved w (o := .write room) rfl
  expire {_ _ _ w} h hl := h.movedSilently w (o := .timer) (if_pos hl) rfl

theorem Watched.lapsed (h : Watched svc time out c) (w : World) {later : Nat} (ht : time ≤ later)
    (hd : c.result? = none → ∀ d, c.deadline = some d → later ≤ d) :
    Watched svc later out (if c.isLate later then c.expire else c) := by
  obtain ⟨peer, start, timeline, rfl, rfl, hout⟩ := h
  have htimely := timely_watch svc peer start timeline
  generalize hk : watch svc peer start timeline = k at *
  let x : Nat × World × Occurrence := (later - k.now, w, .timer)
  have hnow : k.now + (later - k.now) = later := by omega
  have hpass : k.pass svc w (later - k.now) = k.wait later := by
    obtain ⟨-, hp⟩ | ⟨hr, hl, -⟩ := pass_cases htimely w (later - k.now)
    · rw [hp, hnow]
    · rw [hnow] at hl
      exact absurd (hd hr _ (htimely.pending hr).2.2) (Nat.not_le_of_lt hl)
  have hstep : watch svc peer start (timeline ++ [x]) = k.step svc x := by
    rw [watch_append, hk]
    rfl
  refine ⟨peer, start, timeline ++ [x], ?_⟩
  rw [hstep]
  simp only [Watch.step, x, hpass]
  cases hlate : (k.wait later).connection.isLate (k.wait later).now with
  | true =>
    have hl : k.connection.isLate later = true := hlate
    simp only [Occurrence.move?, hlate, hl, if_true]
    exact ⟨rfl, rfl, by simpa [Watch.make, Watch.wait, moveWrites] using hout⟩
  | false =>
    have hl : k.connection.isLate later = false := hlate
    simp only [Occurrence.move?, hlate, hl, Bool.false_eq_true, if_false]
    exact ⟨rfl, rfl, hout⟩

theorem Watched.le_deadline (h : Watched svc time out c) (hr : c.result? = none) {d : Nat} (hd : c.deadline = some d) :
    time ≤ d := by
  obtain ⟨peer, start, timeline, rfl, rfl, -⟩ := h
  obtain ⟨-, hnow, hdeadline⟩ := (timely_watch svc peer start timeline).pending hr
  cases hdeadline.symm.trans hd
  exact hnow

end Connection

namespace Link

variable {svc : Service} {time : Nat} {l : Link} {w : World}

/-- The connection of a link is watched, and what its client has not read is the last that it has written. -/
def Watched (svc : Service) (time : Nat) (l : Link) : Prop := Connection.Watched svc time l.outbound l.connection

theorem watched_settle (h : l.Watched svc time) (w : World) : (l.settle svc time w).1.Watched svc time := by
  have htold : Told (fun _ out c _ => Connection.Watched svc time out c) l.outbound l.connection w := ⟨[], h⟩
  obtain ⟨t, h⟩ := htold.settle (drivenAt_watched svc time) l.room
  exact h

theorem watched_read (h : l.Watched svc time) (w : World) : (l.read svc).Watched svc time :=
  Connection.Watched.movedSilently h w (o := .receive (l.inbound.take l.readSize)) rfl rfl

theorem watched_endOfInput (h : l.Watched svc time) (w : World) :
    ({ l with connection := l.connection.endOfInput } : Link).Watched svc time :=
  Connection.Watched.movedSilently h w (o := .endOfInput) rfl rfl

theorem watched_advance (h : l.Watched svc time) (w : World) : (l.advance svc time w).1.Watched svc time := by
  fun_induction advance svc time l w
  case case1 l w r hwaiting hread hclosed => exact watched_endOfInput (watched_settle h w) w
  case case2 l w r hwaiting hread hopen => exact watched_settle h w
  case case3 l w r hwaiting hread next hlt ih => exact ih (watched_read (watched_settle h w) w)
  case case4 l w r hwaiting hread next hge => exact watched_settle h w
  case case5 l w r hbusy => exact watched_settle h w

theorem watched_lapse (h : l.Watched svc time) (w : World) {later : Nat} (ht : time ≤ later)
    (hd : l.connection.result? = none → ∀ d, l.connection.deadline = some d → later ≤ d) :
    (l.lapse later).Watched svc later := by
  have hlapsed := Connection.Watched.lapsed h w ht hd
  unfold lapse
  split at hlapsed
  · rw [if_pos ‹_›]
    exact hlapsed
  · rw [if_neg ‹_›]
    exact hlapsed

theorem lapse_eq (h : l.connection.result? = none → l.connection.isLate time = false) : l.lapse time = l := by
  unfold lapse
  obtain ⟨r, hr⟩ | hr := l.connection.finished_or_pending
  · have he : l.connection.expire = l.connection := by
      simp only [expire, pendingPhase?, hr]
    rw [he, ite_self]
  · rw [h hr]
    exact if_neg Bool.false_ne_true

theorem early_lapse (h : (l.lapse time).connection.result? = none) : (l.lapse time).connection.isLate time = false := by
  unfold lapse at h ⊢
  split at h
  · obtain ⟨⟨s, b, d, a⟩, inbound, closed, outbound, capacity, reported⟩ := l
    cases a <;> cases h
  · rw [if_neg ‹_›]
    exact Bool.eq_false_iff.mpr ‹_›

end Link

namespace Timeline

variable {svc : Service} {t : Timeline}

/-- A service with many clients from its start on, whatever they do. -/
inductive Reached (svc : Service) : Timeline → Prop
  /-- It begins without clients; its configuration sees to it that realms are not refreshed all the time. -/
  | start (w : World) (time : Nat) {every : Option Nat} (h : every ≠ some 0) : Reached svc ⟨w, time, [], every⟩
  | connect {t : Timeline} (h : Reached svc t) (peer : Endpoint) (capacity : Option Nat) :
      Reached svc (t.connect svc peer capacity)
  | send {t : Timeline} (h : Reached svc t) (n : Nat) (b : Bytes) : Reached svc (t.send n b)
  | close {t : Timeline} (h : Reached svc t) (n : Nat) : Reached svc (t.close n)
  | advance {t : Timeline} (h : Reached svc t) : Reached svc (t.advance svc)
  | pass {t : Timeline} (h : Reached svc t) (ms : Nat) : Reached svc (t.pass ms)
  | collect {t : Timeline} (h : Reached svc t) (reads : Bool) : Reached svc (t.collect reads).2
  | elsewhere {t : Timeline} (h : Reached svc t) (w : World) : Reached svc { t with world := w }

/-- All connections of a timeline are watched, and realms are not refreshed all the time. -/
structure Watched (svc : Service) (t : Timeline) : Prop where
  links : ∀ l ∈ t.links, l.Watched svc t.time
  refreshEvery : t.refreshEvery ≠ some 0

def Early (t : Timeline) : Prop := ∀ l ∈ t.links, l.connection.result? = none → l.connection.isLate t.time = false

theorem forall_modify {α : Type} {P : α → Prop} {xs : List α} (h : ∀ x ∈ xs, P x) {f : α → α}
    (hf : ∀ x, P x → P (f x)) (n : Nat) : ∀ x ∈ xs.modify n f, P x := by
  intro x hx
  obtain ⟨i, hi, rfl⟩ := List.mem_iff_getElem.mp hx
  rw [List.getElem_modify]
  split
  · exact hf _ (h _ (List.getElem_mem _))
  · exact h _ (List.getElem_mem _)

theorem Watched.change (h : t.Watched svc) {f : Link → Link}
    (hf : ∀ l : Link, (f l).connection = l.connection ∧ (f l).outbound = l.outbound) (n : Nat) :
    (t.change n f).Watched svc := by
  refine ⟨forall_modify h.links (fun l hl => ?_) n, h.refreshEvery⟩
  split
  · exact hl
  · obtain ⟨hc, ho⟩ := hf l
    rw [Link.Watched, hc, ho]
    exact hl

theorem watched_advanceLinks {time : Nat} {ls : List Link} (h : ∀ l ∈ ls, l.Watched svc time) (w : World) :
    ∀ l ∈ (advanceLinks svc time ls w).1, l.Watched svc time := by
  induction ls generalizing w with
  | nil => exact h
  | cons l ls ih =>
    refine List.forall_mem_cons.mpr ⟨Link.watched_advance (h l List.mem_cons_self) w, ?_⟩
    exact ih (fun l' hl' => h l' (List.mem_cons_of_mem l hl')) _

theorem nextTimer_le {time : Nat} (h : t.nextTimer = some time) {l : Link} (hl : l ∈ t.links)
    (hr : l.connection.result? = none) {d : Nat} (hd : l.connection.deadline = some d) : time ≤ d := by
  refine (List.min?_eq_some_iff.mp h).2 d (List.mem_append_left _ (List.mem_filterMap.mpr ⟨l, hl, ?_⟩))
  simp only [Link.isFinished, hr, Option.isSome_none, Bool.false_eq_true, if_false, hd]

theorem nextTimer_eq_none (h : t.nextTimer = none) {l : Link} (hl : l ∈ t.links)
    (hr : l.connection.result? = none) : l.connection.deadline = none := by
  have hnil := List.append_eq_nil_iff.mp (List.min?_eq_none_iff.mp h)
  have hnone := List.filterMap_eq_nil_iff.mp hnil.1 l hl
  simpa only [Link.isFinished, hr, Option.isSome_none, Bool.false_eq_true, if_false] using hnone

theorem lt_nextTimer (he : t.Early) (hr : t.refreshEvery ≠ some 0) {time : Nat} (h : t.nextTimer = some time) :
    t.time < time := by
  obtain hm | hm := List.mem_append.mp (List.min?_eq_some_iff.mp h).1
  · obtain ⟨l, hl, hd⟩ := List.mem_filterMap.mp hm
    split at hd
    · cases hd
    · have hpending : l.connection.result? = none := by
        simpa [Link.isFinished] using ‹¬l.isFinished = true›
      have hearly := he l hl hpending
      rw [isLate, hd] at hearly
      exact Nat.lt_of_not_le (of_decide_eq_false hearly)
  · rw [Option.mem_toList, nextRefresh, Option.map_eq_some_iff] at hm
    obtain ⟨every, hevery, rfl⟩ := hm
    have hpos : 0 < every := Nat.pos_of_ne_zero fun hz => hr (hz ▸ hevery)
    exact (Nat.div_lt_iff_lt_mul hpos).mp (Nat.lt_succ_self _)

theorem Watched.lapse (h : t.Watched svc) {later : Nat} (ht : t.time ≤ later)
    (hd : ∀ l ∈ t.links, l.connection.result? = none → ∀ d, l.connection.deadline = some d → later ≤ d) :
    ∀ l ∈ t.links.map (·.lapse later), l.Watched svc later := by
  intro l hl
  obtain ⟨l, hm, rfl⟩ := List.mem_map.mp hl
  exact Link.watched_lapse (h.links l hm) t.world ht (hd l hm)

theorem early_fire (t : Timeline) (time : Nat) : (t.fire time).Early := by
  intro l hl
  obtain ⟨l, -, rfl⟩ := List.mem_map.mp hl
  exact Link.early_lapse

/-- Before the next deadline nothing happens while time goes on. -/
theorem Watched.idle (h : t.Watched svc) {later : Nat} (ht : t.time ≤ later)
    (hd : ∀ l ∈ t.links, l.connection.result? = none → ∀ d, l.connection.deadline = some d → later < d) :
    ({ t with time := later } : Timeline).Watched svc := by
  refine ⟨fun l hl => ?_, h.refreshEvery⟩
  have hearly (hr : l.connection.result? = none) : l.connection.isLate later = false := by
    unfold isLate
    cases hdeadline : l.connection.deadline with
    | none => rfl
    | some d => exact decide_eq_false (Nat.not_le_of_lt (hd l hl hr d hdeadline))
  have hlapsed := Link.watched_lapse (h.links l hl) t.world ht fun hr d hd' => Nat.le_of_lt (hd l hl hr d hd')
  rwa [Link.lapse_eq hearly] at hlapsed

/-- Time passes from timer to timer, and the next one is always later than now. -/
theorem Watched.passUntil (h : t.Watched svc) (he : t.Early) {goal : Nat} (hg : t.time ≤ goal) :
    (t.passUntil goal).Watched svc := by
  fun_induction Timeline.passUntil t goal
  case case1 t time htimer hle ih =>
    have hfired : (t.fire time).Watched svc :=
      ⟨h.lapse (Nat.le_of_lt hle.1) fun l hl hr d hd => nextTimer_le htimer hl hr hd, h.refreshEvery⟩
    exact ih hfired (early_fire t time) hle.2
  case case2 t time htimer hnot =>
    have hnext := lt_nextTimer he h.refreshEvery htimer
    refine h.idle hg fun l hl hr d hd => ?_
    have hle := nextTimer_le htimer hl hr hd
    omega
  case case3 t htimer =>
    refine h.idle hg fun l hl hr d hd => ?_
    cases (nextTimer_eq_none htimer hl hr).symm.trans hd

theorem Watched.pass (h : t.Watched svc) (ms : Nat) : (t.pass ms).Watched svc := by
  have hnow : ({ t with links := t.links.map (Link.lapse t.time) } : Timeline).Watched svc := by
    refine ⟨h.lapse (Nat.le_refl _) fun l hl hr d hd => ?_, h.refreshEvery⟩
    exact Connection.Watched.le_deadline (h.links l hl) hr hd
  refine hnow.passUntil ?_ (Nat.le_add_right _ _)
  intro l hl
  obtain ⟨l, -, rfl⟩ := List.mem_map.mp hl
  exact Link.early_lapse

theorem Watched.collect (h : t.Watched svc) (reads : Bool) : (t.collect reads).2.Watched svc := by
  refine ⟨fun l hl => ?_, h.refreshEvery⟩
  obtain ⟨x, hx, rfl⟩ := List.mem_map.mp hl
  obtain ⟨⟨l, n⟩, hm, rfl⟩ := List.mem_map.mp hx
  obtain ⟨peer, start, timeline, hc, hnow, hout⟩ := h.links l (List.fst_mem_of_mem_zipIdx hm)
  exact ⟨peer, start, timeline, hc, hnow, (List.drop_suffix _ _).trans hout⟩

/-- Whatever the clients of a service do, its connections are watched. -/
theorem watched_of_reached (h : Reached svc t) : t.Watched svc := by
  induction h with
  | start w time h =>
    refine ⟨fun l hl => ?_, h⟩
    cases hl
  | connect h peer capacity ih =>
    refine ⟨fun l hl => ?_, ih.refreshEvery⟩
    obtain hl | hl := List.mem_append.mp hl
    · exact ih.links l hl
    · rw [List.mem_singleton.mp hl]
      exact watched_accept svc peer _
  | send h n b ih =>
    refine ih.change (fun l => ?_) n
    split <;> exact ⟨rfl, rfl⟩
  | close h n ih =>
    refine ih.change (fun l => ?_) n
    exact ⟨rfl, rfl⟩
  | advance h ih => exact ⟨watched_advanceLinks ih.links _, ih.refreshEvery⟩
  | pass h ms ih => exact ih.pass ms
  | collect h reads ih => exact ih.collect reads
  | elsewhere h w ih => exact ⟨ih.links, ih.refreshEvery⟩

end Timeline

end RealmLogon
