import RealmLogon.Probe.Identity
import RealmLogon.Proofs.Token
import RealmLogon.Session.Proof

/-! A client and a server agree on a token as long as their clocks are no more than a step apart, and a server takes
no other tokens than those of the three steps around its clock. A clock shows a signed number of seconds, and every
count that is made of it is one of 64 bits without a sign. -/

namespace RealmLogon

namespace Token

/-- The step that a clock shows. Before the beginning of time it shows the first. -/
def stepAt (clock : Int64) : UInt64 := UInt64.ofNat clock.toInt.toNat / 30

/-- Two steps are the same or next to each other. -/
def Near (a b : UInt64) : Prop := a.toNat ≤ b.toNat + 1 ∧ b.toNat ≤ a.toNat + 1

instance (a b : UInt64) : Decidable (Near a b) := inferInstanceAs (Decidable (_ ∧ _))

theorem toNat_stepAt (clock : Int64) : (stepAt clock).toNat = clock.toInt.toNat / timeStep := by
  have hc : clock.toInt.toNat < 2 ^ 64 := by
    have := clock.toInt_lt
    omega
  rw [stepAt, UInt64.toNat_div, UInt64.toNat_ofNat_of_lt' hc]
  rfl

theorem hotp_lt (secret : Bytes) (counter : UInt64) : hotp secret counter < Nat.pow 10 typedDigits :=
  Nat.mod_lt _ (by decide)

/-- The steps that are accepted at a time are counters of 64 bits, also at the end of time. -/
theorem validate_iff_near {secret : Bytes} {token : Nat} {time : UInt64} :
    validate secret token time.toNat = true ↔
      ∃ counter, Near counter (time / 30) ∧ token = hotp secret counter := by
  have ht : (time / 30).toNat = time.toNat / timeStep := UInt64.toNat_div time 30
  rw [validate_iff]
  constructor
  · rintro ⟨step, ⟨hl, hu⟩, rfl⟩
    have hs : step < 2 ^ 64 := by
      have := time.toNat_lt
      simp only [timeStep, drift] at hu
      omega
    have hc : (UInt64.ofNat step).toNat = step := UInt64.toNat_ofNat_of_lt' hs
    refine ⟨UInt64.ofNat step, ⟨?_, ?_⟩, ?_⟩
    · rwa [hc, ht]
    · rwa [hc, ht]
    · rw [← generate_eq_hotp, hc]
  · rintro ⟨counter, ⟨hu, hl⟩, rfl⟩
    rw [ht] at hu hl
    exact ⟨counter.toNat, ⟨hl, hu⟩, (generate_eq_hotp secret counter).symm⟩

end Token

open Token

theorem TokenSource.current_secret (secret : Bytes) (clock : Int64) :
    TokenSource.current clock.toInt (.secret secret) = some (Token.typed (hotp secret (stepAt clock))) := by
  rw [TokenSource.current, ← toNat_stepAt, generate_eq_hotp]

theorem Session.tokenHolds_typed {secret : Bytes} {counter : UInt64} {clock : Int64} (h : Near counter (stepAt clock)) :
    Session.tokenHolds (some secret) (some (typed (hotp secret counter))) clock.toInt = true := by
  obtain ⟨hu, hl⟩ := h
  rw [toNat_stepAt] at hu hl
  have hv : validate secret (hotp secret counter) clock.toInt.toNat = true :=
    validate_iff.mpr ⟨counter.toNat, ⟨hl, hu⟩, (generate_eq_hotp secret counter).symm⟩
  simp only [tokenHolds, parse_typed (hotp_lt secret counter), Option.any_some, hv]

/-- A client whose clock shows a step near to the server's sends six digits that spell the token of its step, and the
server takes them. A server takes the tokens of the three steps around its time and no others, each of them the one-time
password of a counter of 64 bits. No step is too high to be counted on, and a text that is read as a token stands for a
number of 32 bits. -/
theorem tokens_agree (secret : Bytes) :
    (∀ client server : Int64, Near (stepAt client) (stepAt server) →
      ∃ text, TokenSource.current client.toInt (.secret secret) = some text ∧
        text.length = 6 ∧ (∀ c ∈ text.toList, c.isDigit = true) ∧
        Text.Numeral.value 10 text.toList = hotp secret (stepAt client) ∧
        Session.tokenHolds (some secret) (some text) server.toInt = true) ∧
    (∀ counter : UInt64, generate secret counter.toNat 6 = hotp secret counter) ∧
    (∀ (token : Nat) (time : UInt64), validate secret token time.toNat = true ↔
      ∃ counter, Near counter (time / 30) ∧ token = hotp secret counter) ∧
    (∀ time : UInt64, (time / 30).toNat + 1 < UInt64.size) ∧
    ∀ (text : String) (token : Nat), parse text = some token → token < UInt32.size := by
  refine ⟨fun client server h => ?_, generate_eq_hotp secret, fun _ _ => validate_iff_near, fun time => ?_,
    fun _ _ h => ?_⟩
  · obtain ⟨hl, hd, hv⟩ := typed_spells (hotp_lt secret (stepAt client))
    exact ⟨_, TokenSource.current_secret secret client, hl, hd, hv, Session.tokenHolds_typed h⟩
  · have ht : (time / 30).toNat = time.toNat / 30 := UInt64.toNat_div time 30
    have hlt := time.toNat_lt
    have hs : UInt64.size = 18446744073709551616 := rfl
    omega
  · exact Nat.lt_trans (parse_lt h) (by decide)

/-- A client that is a second before the beginning of time agrees with a server in the second step. -/
theorem tokens_agree_around_zero : Near (stepAt (-1)) (stepAt 59) ∧
    ∃ text, TokenSource.current (-1) (.secret [1, 2, 3]) = some text ∧ text.length = 6 ∧
      Session.tokenHolds (some [1, 2, 3]) (some text) 59 = true := by
  have hn : Near (stepAt (-1)) (stepAt 59) := by decide
  obtain ⟨text, hc, hl, -, -, hh⟩ := (tokens_agree [1, 2, 3]).1 (-1) 59 hn
  exact ⟨hn, text, hc, hl, hh⟩

end RealmLogon
