import RealmLogon.Session.Flow
import RealmLogon.Wire.Code

/-! What happens on a connection, as a list of events: the questions that are asked, each with its answer, the
frames that are taken up, and the replies. A flow leads to another by the answers to its questions. -/

namespace RealmLogon

inductive Event where
  | asked (q : Query) (a : q.Answer)
  /-- A complete frame is taken up in a phase. -/
  | taken (phase : Phase) (command : Command) (frame : Bytes)
  /-- A reply is handed over to be written. -/
  | replied (reply : Bytes)

namespace Event

abbrev called (c : Directory.Call) (r : Except DirectoryError c.Answer) : Event := asked (.call c) r

/-- The bytes that an event sends to the client. -/
def sent : Event → Bytes
  | replied b => b
  | _ => []

/-- The program has stopped at a ban without room for its end. -/
def halts : Event → Bool
  | asked (.call (.autoBan ..)) r => @DirectoryError.halts Unit r
  | _ => false

@[simp] theorem sent_asked (q : Query) (a : q.Answer) : (asked q a).sent = [] := rfl
@[simp] theorem sent_taken (p : Phase) (c : Command) (b : Bytes) : (taken p c b).sent = [] := rfl
@[simp] theorem sent_replied (b : Bytes) : (replied b).sent = b := rfl

end Event

namespace Flow

variable {α : Type}

/-- The answers to its questions turn a flow into what is left of it. -/
inductive Leads : Flow α → List Event → Flow α → Prop
  | here (f : Flow α) : Leads f [] f
  | ask {q : Query} {k : q.Answer → Flow α} {es : List Event} {f : Flow α} (a : q.Answer)
      (h : Leads (k a) es f) : Leads (.ask q k) (.asked q a :: es) f

/-- All questions are answered, and there is a result. -/
abbrev Yields (f : Flow α) (es : List Event) (a : α) : Prop := Leads f es (.done a)

theorem Leads.trans {f g h : Flow α} {es ds : List Event} (h₁ : Leads f es g) (h₂ : Leads g ds h) :
    Leads f (es ++ ds) h := by
  induction h₁ with
  | here f => exact h₂
  | ask a h₁ ih => exact .ask a (ih h₂)

theorem Leads.answered {f : Flow α} {es : List Event} {q : Query} {k : q.Answer → Flow α}
    (h : Leads f es (.ask q k)) (a : q.Answer) : Leads f (es ++ [.asked q a]) (k a) :=
  h.trans (.ask a (.here _))

@[simp] theorem yields_done_iff {a b : α} {es : List Event} : Yields (.done a) es b ↔ es = [] ∧ b = a := by
  constructor
  · intro h
    cases h
    exact ⟨rfl, rfl⟩
  · rintro ⟨rfl, rfl⟩
    exact .here _

@[simp] theorem yields_ask_iff {q : Query} {k : q.Answer → Flow α} {es : List Event} {b : α} :
    Yields (.ask q k) es b ↔ ∃ a ds, es = .asked q a :: ds ∧ Yields (k a) ds b := by
  constructor
  · intro h
    cases h with
    | ask a h => exact ⟨a, _, rfl, h⟩
  · rintro ⟨a, ds, rfl, h⟩
    exact .ask a h

/-- While a flow asks, nothing is sent and no frame is taken up. -/
theorem Leads.eq_asked {f g : Flow α} {es : List Event} (h : Leads f es g) :
    ∀ e ∈ es, ∃ q a, e = .asked q a := by
  induction h with
  | here f => intro e he; cases he
  | ask a h ih =>
    intro e he
    cases he with
    | head => exact ⟨_, a, rfl⟩
    | tail _ he => exact ih e he

/-- Every question has an answer, so every flow can come to its result. -/
theorem exists_yields (f : Flow α) : ∃ es a, f.Yields es a := by
  have hq (q : Query) : Nonempty q.Answer := by
    cases q with
    | call c => exact ⟨(.error .unavailable : Except DirectoryError c.Answer)⟩
    | now => exact ⟨(0 : Int)⟩
    | draw n => exact ⟨Octets.zero n⟩
    | realms => exact ⟨([] : List Realm)⟩
  induction f with
  | done a => exact ⟨[], a, .here _⟩
  | ask q k ih =>
    obtain ⟨answer⟩ := hq q
    obtain ⟨es, a, h⟩ := ih answer
    exact ⟨_, a, .ask answer h⟩

end Flow

end RealmLogon
