import RealmLogon.Proofs.Connection.Grammar
import RealmLogon.Proofs.Directory.FailedLogons
import RealmLogon.Proofs.Session.Answers

/-! Many connections over one directory. Their moves come in any order, and each move asks at most one question; what
happens is kept in one log, with the number of the connection that it happens to. -/

namespace RealmLogon

open Directory

structure Party where
  peer : Endpoint
  connection : Connection

/-- A log of events, each with the number of its connection. -/
abbrev Log := List (Nat × Event)

namespace Log

def heard (i : Nat) (log : Log) : List Event := log.filterMap fun x => if x.1 = i then some x.2 else none

def calls (log : Log) : List Call := Connection.calls (log.map Prod.snd)

variable {i j : Nat} {log log' : Log} {t : List Event}

@[simp] theorem heard_append (i : Nat) (log log' : Log) : heard i (log ++ log') = heard i log ++ heard i log' :=
  List.filterMap_append

@[simp] theorem calls_append (log log' : Log) : calls (log ++ log') = calls log ++ calls log' := by
  simp [calls]

@[simp] theorem calls_of (i : Nat) (t : List Event) : calls (t.map (i, ·)) = Connection.calls t := by
  simp [calls, Function.comp_def]

@[simp] theorem heard_self (i : Nat) (t : List Event) : heard i (t.map (i, ·)) = t := by
  have hf : (fun x : Nat × Event => if x.1 = i then some x.2 else none) ∘ (i, ·) = some := by
    funext e
    exact if_pos rfl
  rw [heard, List.filterMap_map, hf, List.filterMap_some]

theorem heard_other (h : j ≠ i) (t : List Event) : heard i (t.map (j, ·)) = [] := by
  have hf : (fun x : Nat × Event => if x.1 = i then some x.2 else none) ∘ (j, ·) = fun _ => none := by
    funext e
    exact if_neg h
  rw [heard, List.filterMap_map, hf, List.filterMap_eq_nil_iff]
  exact fun _ _ => rfl

theorem mem_heard {e : Event} : e ∈ heard i log ↔ (i, e) ∈ log := by
  simp only [heard, List.mem_filterMap]
  constructor
  · rintro ⟨⟨j, f⟩, hm, hf⟩
    split at hf
    · rename_i hj
      cases hf
      subst hj
      exact hm
    · cases hf
  · intro hm
    exact ⟨(i, e), hm, if_pos rfl⟩

end Log

namespace Connection

/-- Some connections, each with a conversation behind it, and a log that tells of no other ones. -/
structure Gathered (svc : Service) (log : Log) (ps : List Party) (w : World) : Prop where
  index_lt : ∀ x ∈ log, x.1 < ps.length
  conversation : ∀ {i : Nat} {p : Party}, ps[i]? = some p →
    ∃ out, Conversation svc p.peer (log.heard i) out p.connection w

/-- Some connections over a world whose directory answers every call and counts failed logons with 32 bits. Time
passes, and the realms are read again. -/
inductive Crowd (svc : Service) (w₀ : World) : Log → List Party → World → Prop
  | start (hw : w₀.IsHealthy) (hm : w₀.store.Modest) : Crowd svc w₀ [] [] w₀
  | connect {log : Log} {ps : List Party} {w : World} (h : Crowd svc w₀ log ps w) (peer : Endpoint) (time : Nat) :
      Crowd svc w₀ log (ps ++ [⟨peer, accept svc peer time⟩]) w
  | move {log : Log} {ps : List Party} {w : World} (h : Crowd svc w₀ log ps w) {i : Nat} {p : Party}
      (hi : ps[i]? = some p) (m : Move) (hm : (p.connection.move svc w m).2.store.Modest) :
      Crowd svc w₀ (log ++ (p.connection.moveTells w m).map (i, ·))
        (ps.set i ⟨p.peer, (p.connection.move svc w m).1⟩) (p.connection.move svc w m).2
  | tick {log : Log} {ps : List Party} {w : World} (h : Crowd svc w₀ log ps w) (now : Int) :
      Crowd svc w₀ log ps { w with clock := now }
  | refresh {log : Log} {ps : List Party} {w : World} (h : Crowd svc w₀ log ps w) : Crowd svc w₀ log ps w.refresh

end Connection

namespace World

variable {w : World} {login : String} {n : Nat}

theorem fails_call (w : World) (c : Call) : (w.call c).2.fails = w.fails := by
  unfold call
  split <;> rfl

theorem fails_answer (w : World) (q : Query) : (w.answer q).2.fails = w.fails := by
  cases q with
  | call c => exact fails_call w c
  | now => rfl
  | draw n => rfl
  | realms => rfl

theorem fails_refresh (w : World) : w.refresh.fails = w.fails := by
  have hf := fails_call w .listRealms
  unfold refresh
  split
  · rename_i w' hc
    rw [hc] at hf
    exact hf
  · rename_i w' hc
    rw [hc] at hf
    exact hf

theorem store_refresh (w : World) : w.refresh.store = w.store := by
  have hs : (w.call .listRealms).2.store = w.store := by
    unfold call
    split <;> rfl
  unfold refresh
  split
  · rename_i w' hc
    rw [hc] at hs
    exact hs
  · rename_i w' hc
    rw [hc] at hs
    exact hs

theorem counts_answer (hw : w.IsHealthy) (h : w.store.Counts login n) (hn : n < UInt32.size - 1) (q : Query) :
    (w.answer q).2.store.Counts login (Call.tally login n (Connection.calls [.asked q (w.answer q).1])) := by
  cases q with
  | call c =>
    have hs : (w.answer (.call c)).2.store = (c.perform w.store w.clock).2 := by
      rw [World.answer, call_eq hw]
      rfl
    rw [hs]
    exact Call.counts_perform h hn c w.clock
  | now => exact h
  | draw m => exact h
  | realms => exact h

end World

namespace Connection

open Session

variable {svc : Service} {w₀ w : World} {log : Log} {ps : List Party} {i : Nat} {p : Party} {login : String} {k : Nat}

theorem fails_move (svc : Service) (c : Connection) (w : World) (m : Move) : (c.move svc w m).2.fails = w.fails := by
  obtain ⟨q, -, hw⟩ | ⟨-, hw⟩ := move_cases svc c w m
  · rw [hw]
    exact World.fails_answer w q
  · rw [hw]

theorem healthy_of_crowd (h : Crowd svc w₀ log ps w) : w.IsHealthy := by
  intro n call
  induction h with
  | start hw hm => exact hw n call
  | connect h peer time ih => exact ih
  | move h hi m hm ih => rw [fails_move, ih]
  | tick h now ih => exact ih
  | refresh h ih => rw [World.fails_refresh, ih]

theorem modest_of_crowd (h : Crowd svc w₀ log ps w) : w.store.Modest := by
  induction h with
  | start hw hm => exact hm
  | connect h peer time ih => exact ih
  | move h hi m hm ih => exact hm
  | tick h now ih => exact ih
  | refresh h ih =>
    rw [World.store_refresh]
    exact ih

theorem Gathered.heard_eq_nil (h : Gathered svc log ps w) : log.heard ps.length = [] := by
  rw [List.eq_nil_iff_forall_not_mem]
  intro e he
  exact Nat.lt_irrefl _ (h.index_lt _ (Log.mem_heard.mp he))

theorem gathered_nil (svc : Service) (w : World) : Gathered svc [] [] w where
  index_lt := by simp
  conversation hi := by simp at hi

theorem Gathered.connect (h : Gathered svc log ps w) (peer : Endpoint) (time : Nat) :
    Gathered svc log (ps ++ [⟨peer, accept svc peer time⟩]) w where
  index_lt x hx := by
    rw [List.length_append]
    exact Nat.lt_add_right _ (h.index_lt x hx)
  conversation := by
    intro i p hi
    rcases Nat.lt_trichotomy i ps.length with hlt | rfl | hgt
    · rw [List.getElem?_append_left hlt] at hi
      exact h.conversation hi
    · rw [List.getElem?_concat_length, Option.some.injEq] at hi
      subst hi
      rw [h.heard_eq_nil]
      exact ⟨[], .accept time w⟩
    · rw [List.getElem?_eq_none (by simp; omega)] at hi
      cases hi

/-- A move of one connection; to the others the world is changed from outside. -/
theorem Gathered.move (h : Gathered svc log ps w) {j : Nat} {q : Party} (hj : ps[j]? = some q) (m : Move) :
    Gathered svc (log ++ (q.connection.moveTells w m).map (j, ·)) (ps.set j ⟨q.peer, (q.connection.move svc w m).1⟩)
      (q.connection.move svc w m).2 where
  index_lt x hx := by
    rw [List.length_set]
    rcases List.mem_append.mp hx with hx | hx
    · exact h.index_lt x hx
    · obtain ⟨e, -, rfl⟩ := List.mem_map.mp hx
      exact (List.getElem?_eq_some_iff.mp hj).1
  conversation := by
    intro i p hi
    by_cases hji : j = i
    · subst hji
      rw [List.getElem?_set_self (List.getElem?_eq_some_iff.mp hj).1, Option.some.injEq] at hi
      subst hi
      obtain ⟨out, hc⟩ := h.conversation hj
      rw [Log.heard_append, Log.heard_self]
      exact (kept_conversation svc q.peer).move hc m
    · rw [List.getElem?_set_ne hji] at hi
      obtain ⟨out, hc⟩ := h.conversation hi
      rw [Log.heard_append, Log.heard_other hji, List.append_nil]
      exact ⟨out, hc.elsewhere _⟩

theorem Gathered.elsewhere (h : Gathered svc log ps w) (w' : World) : Gathered svc log ps w' where
  index_lt := h.index_lt
  conversation hi := by
    obtain ⟨out, hc⟩ := h.conversation hi
    exact ⟨out, hc.elsewhere w'⟩

theorem gathered_of_crowd (h : Crowd svc w₀ log ps w) : Gathered svc log ps w := by
  induction h with
  | start hw hm => exact gathered_nil svc w₀
  | connect h peer time ih => exact ih.connect peer time
  | move h hi m hm ih => exact ih.move hi m
  | tick h now ih => exact ih.elsewhere _
  | refresh h ih => exact ih.elsewhere _

theorem index_lt_of_crowd (h : Crowd svc w₀ log ps w) : ∀ x ∈ log, x.1 < ps.length := (gathered_of_crowd h).index_lt

/-- What one connection of a crowd hears is a conversation, in a world that others change. -/
theorem conversation_of_crowd (h : Crowd svc w₀ log ps w) (hi : ps[i]? = some p) :
    ∃ out, Conversation svc p.peer (log.heard i) out p.connection w := (gathered_of_crowd h).conversation hi

/-! The counters. -/

/-- At every moment the counter of an account is the tally of all calls. -/
theorem counts_of_crowd (h : Crowd svc w₀ log ps w) (hk : w₀.store.Counts login k) :
    w.store.Counts login (Call.tally login k log.calls) := by
  induction h with
  | start hw hm => exact hk
  | connect h peer time ih => exact ih
  | move h hi m hm ih =>
    rename_i log ps w i p
    rw [Log.calls_append, Log.calls_of, Call.tally_append]
    obtain ⟨q, ht, hw⟩ | ⟨ht, hw⟩ := move_cases svc p.connection w m
    · rw [ht, hw]
      exact World.counts_answer (healthy_of_crowd h) ih (ih.lt (modest_of_crowd h)) q
    · rw [ht, hw]
      exact ih
  | tick h now ih => exact ih
  | refresh h ih =>
    rw [World.store_refresh]
    exact ih

/-- Counting a failed logon never fails, and the answer is one more than the tally before. -/
def Returns (w₀ : World) (before : Log) : Nat × Event → Prop
  | (_, .asked (.call (.recordFailedLogin login)) r) =>
    (∃ n : UInt32, r = (.ok n : Except DirectoryError UInt32)) ∧
      ∀ k, w₀.store.Counts login k → ∀ n : UInt32, r = (.ok n : Except DirectoryError UInt32) →
        n.toNat = Call.tally login k before.calls + 1
  | _ => True

theorem returns_of_move (h : Crowd svc w₀ log ps w) (i : Nat) (q : Query) :
    Returns w₀ log (i, .asked q (w.answer q).1) := by
  cases q with
  | call c =>
    cases c with
    | recordFailedLogin name =>
      have hr : (w.answer (.call (.recordFailedLogin name))).1 = (w.store.recordFailedLogin name).1 := by
        rw [World.answer, World.call_eq (healthy_of_crowd h)]
        rfl
      rw [hr]
      refine ⟨Store.recordFailedLogin_ok (modest_of_crowd h) name, ?_⟩
      intro k hk n hn
      have hs : UInt32.size = 4294967296 := rfl
      have hc := counts_of_crowd h hk
      have hlt := hc.lt (modest_of_crowd h)
      obtain rfl : UInt32.ofNat (Call.tally name k log.calls + 1) = n :=
        Except.ok.inj ((Store.recordFailedLogin_counts hc hlt).symm.trans hn)
      rw [UInt32.toNat_ofNat_of_lt']
      omega
    | _ => trivial
  | _ => trivial

theorem returns_of_calls {t : List Event} (ht : calls t = []) (i : Nat) (before : Log) :
    Throughout (Returns w₀) before (t.map (i, ·)) := by
  induction t generalizing before with
  | nil => trivial
  | cons e t ih =>
    have he : e.call? = none ∧ calls t = [] := by
      cases h : e.call? <;> simp_all [calls]
    refine ⟨?_, ih he.2 _⟩
    cases e with
    | asked q a =>
      cases q with
      | call c => simp [Event.call?] at he
      | _ => trivial
    | taken phase c frame => trivial
    | replied b => trivial

theorem returns_of_crowd (h : Crowd svc w₀ log ps w) : Throughout (Returns w₀) [] log := by
  induction h with
  | start hw hm => trivial
  | connect h peer time ih => exact ih
  | move h hi m hm ih =>
    rename_i log ps w i p
    refine throughout_append.mpr ⟨ih, ?_⟩
    obtain ⟨q, ht, -⟩ | ⟨ht, -⟩ := move_cases svc p.connection w m
    · rw [ht]
      exact ⟨returns_of_move h i q, trivial⟩
    · exact returns_of_calls ht i _
  | tick h now ih => exact ih
  | refresh h ih => exact ih

end Connection

end RealmLogon
