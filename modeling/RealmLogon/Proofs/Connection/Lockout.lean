import Mathlib.Data.Finset.Card
import RealmLogon.Proofs.Connection.Alone
import RealmLogon.Proofs.Connection.Mistakes
import RealmLogon.Proofs.Session.Requests

/-! Wrong passwords under any interleaving of connections: each one is counted once, and the connection whose count
comes to the limit bans. -/

namespace RealmLogon

open Directory Exchange

namespace Log

variable {login : String} {log : Log} {i : Nat}

/-- The connections that have counted a failed logon of an account, in the order of the counts. -/
def counters (login : String) (log : Log) : List Nat :=
  log.filterMap fun x => if x.2.call? = some (.recordFailedLogin login) then some x.1 else none

@[simp] theorem counters_append (login : String) (log log' : Log) :
    counters login (log ++ log') = counters login log ++ counters login log' := List.filterMap_append

theorem length_counters (login : String) (log : Log) :
    (log.counters login).length = log.calls.count (.recordFailedLogin login) := by
  rw [counters, List.length_filterMap_eq_countP, calls, Connection.calls, List.count_filterMap, List.countP_map]
  congr 1
  funext x
  by_cases hx : x.2.call? = some (.recordFailedLogin login) <;> simp [hx]

theorem count_counters (login : String) (log : Log) (i : Nat) :
    (log.counters login).count i = (Connection.calls (log.heard i)).count (.recordFailedLogin login) := by
  rw [counters, List.count_filterMap, Connection.calls, heard, List.filterMap_filterMap, List.count_filterMap]
  congr 1
  funext x
  by_cases hi : x.1 = i <;> by_cases hx : x.2.call? = some (.recordFailedLogin login) <;> simp [hi, hx]

theorem mem_counters : i ∈ log.counters login ↔ .recordFailedLogin login ∈ Connection.calls (log.heard i) := by
  rw [← List.count_pos_iff, count_counters, List.count_pos_iff]

end Log

namespace Connection

open Session

variable {w₀ w : World} {log : Log} {ps : List Party} {i j : Nat} {p : Party} {x : Mistake} {login : String}

/-- A connection has been sent a wrong password for an account. It happens at most once to each connection. -/
structure Errs (svc : Service) (log : Log) (ps : List Party) (login : String) (i : Nat) (p : Party) (x : Mistake) :
    Prop where
  party : ps[i]? = some p
  made : x.Made svc p.peer
  login : x.offer.account.login = login
  heard : x.history p.peer <+: log.heard i

theorem Errs.rest (he : Errs svc log ps login i p x) {more : List Event}
    (hp : log.heard i <+: x.history p.peer ++ more) :
    ∃ rest, x.history p.peer ++ rest = log.heard i ∧ rest <+: more := by
  obtain ⟨rest, hrest⟩ := he.heard
  rw [← hrest] at hp
  exact ⟨rest, hrest, (List.prefix_append_right_inj _).mp hp⟩

theorem overture_of_crowd (h : Crowd svc w₀ log ps w) (hi : ps[i]? = some p) :
    Overture svc p.peer (log.heard i) := by
  obtain ⟨out, hc⟩ := conversation_of_crowd h hi
  exact overture_of_held (held_of_conversation hc)

theorem returns_of_mem (h : Crowd svc w₀ log ps w) {e : Event} (he : e ∈ log.heard i) :
    ∃ before after, log = before ++ (i, e) :: after ∧ Returns w₀ before (i, e) := by
  obtain ⟨before, after, rfl⟩ := List.append_of_mem (Log.mem_heard.mp he)
  exact ⟨before, after, rfl, (returns_of_crowd h).at⟩

/-- A wrong password is counted once, and there is a ban if and only if the count comes to the limit. -/
theorem penalty_of_errs (hN : svc.policy.maxWrongPasswords ≠ 0) (h : Crowd svc w₀ log ps w)
    (he : Errs svc log ps login i p x) :
    ∃ n r, log.heard i <+: x.history p.peer ++ penalty svc x.offer.account.member p.peer.ip n r := by
  obtain ⟨out, hconversation⟩ := conversation_of_crowd h he.party
  have hheld := held_of_conversation hconversation
  obtain ⟨es, hc, ht⟩ := counted_of_made hN (overture_of_held hheld) he.made he.heard
  rw [List.append_assoc] at ht
  cases hc with
  | uncounted hm => exact absurd hm hN
  | uncountable hm e =>
    obtain ⟨rest, hrest, hp⟩ := he.rest ht
    cases rest with
    | nil =>
      rw [← hrest, List.append_nil]
      exact ⟨0, .ok (), List.prefix_append _ _⟩
    | cons f rest =>
      obtain ⟨rfl, -⟩ := List.cons_prefix_cons.mp hp
      have hf : .called (.recordFailedLogin x.offer.account.member.login) (.error e) ∈ log.heard i := by
        simp [← hrest]
      obtain ⟨before, after, -, ⟨n, hn⟩, -⟩ := returns_of_mem h hf
      cases hn
  | counted hm hn =>
    rename_i n
    refine ⟨n, .ok (), ?_⟩
    rw [penalty, if_pos hn]
    exact ht
  | banned hm hn r =>
    rename_i n
    refine ⟨n, r, ?_⟩
    rw [penalty, if_neg hn]
    cases hr : DirectoryError.halts r with
    | false => exact ht
    | true =>
      rw [← List.append_assoc] at ht
      -- The reply to a ban at which the program stops is never given.
      refine (List.prefix_concat_iff.mp ht).resolve_left fun hall => ?_
      rw [hall] at hheld
      obtain ⟨s, hserved⟩ := served_of_replied hheld
      exact unhalted_of_served hserved (by simp [Event.halts, hr])

/-- A connection that has refused the wrong password, or has stopped the program, has done all that there is to do. -/
theorem heard_eq_of_ended (he : Errs svc log ps login i p x) {n : UInt32} {r : Except DirectoryError Unit}
    (hp : log.heard i <+: x.history p.peer ++ penalty svc x.offer.account.member p.peer.ip n r)
    (hr : (∃ before, log.heard i = before ++ [.replied refusedProof]) ∨ Halted (log.heard i)) :
    log.heard i = x.history p.peer ++ penalty svc x.offer.account.member p.peer.ip n r := by
  obtain ⟨rest, hrest, hpenalty⟩ := he.rest hp
  have hend : (∃ b, .replied b ∈ rest) ∨ Halted rest := by
    obtain ⟨before, hbefore⟩ | hh := hr
    · have hlast := congrArg List.getLast? (hrest.trans hbefore)
      rcases List.eq_nil_or_concat rest with rfl | ⟨rest, f, rfl⟩
      · simp [Mistake.history] at hlast
      · rw [List.concat_eq_append, ← List.append_assoc, List.getLast?_concat, List.getLast?_concat,
          Option.some.injEq] at hlast
        exact .inl ⟨refusedProof, by simp [hlast]⟩
    · rw [← hrest, halted_append_iff] at hh
      exact .inr (hh.resolve_left x.not_halted_history)
  rw [← hrest, eq_penalty_of_ended hpenalty hend]

theorem count_penalty (svc : Service) (x : Mistake) (peer : Endpoint) (n : UInt32) (r : Except DirectoryError Unit)
    (login : String) :
    (calls (x.history peer ++ penalty svc x.offer.account.member peer.ip n r)).count (.recordFailedLogin login) =
      if x.offer.account.login = login then 1 else 0 := by
  by_cases hn : n.toNat < svc.policy.maxWrongPasswords
  · simp [hn, List.count_cons, Account.member]
  · simp [hn, List.count_cons, Account.member]

/-- A connection counts only for the account that it was sent a wrong password for, and once. -/
theorem errs_of_counted (hN : svc.policy.maxWrongPasswords ≠ 0) (h : Crowd svc w₀ log ps w)
    (hc : .recordFailedLogin login ∈ calls (log.heard i)) :
    (∃ p x, Errs svc log ps login i p x) ∧ (calls (log.heard i)).count (.recordFailedLogin login) = 1 := by
  have hi : i < ps.length := by
    obtain ⟨e, he, -⟩ := List.mem_filterMap.mp hc
    exact index_lt_of_crowd h _ (Log.mem_heard.mp he)
  have hparty : ps[i]? = some ps[i] := List.getElem?_eq_getElem hi
  obtain ⟨x, hx, hp⟩ := made_of_penal (overture_of_crowd h hparty) hc rfl
  obtain ⟨n, r, hle⟩ := penalty_of_errs hN h ⟨hparty, hx, rfl, hp⟩
  have hcount := (hle.filterMap Event.call?).sublist.count_le (.recordFailedLogin login)
  have hpos := List.count_pos_iff.mpr hc
  have htotal := count_penalty svc x ps[i].peer n r login
  rw [calls] at hpos htotal
  split at htotal
  · rename_i hlogin
    refine ⟨⟨_, x, hparty, hx, hlogin, hp⟩, ?_⟩
    rw [calls]
    omega
  · omega

theorem nodup_counters (hN : svc.policy.maxWrongPasswords ≠ 0) (h : Crowd svc w₀ log ps w) (login : String) :
    (log.counters login).Nodup := by
  rw [List.nodup_iff_count_le_one]
  intro i
  rw [Log.count_counters]
  by_cases hc : .recordFailedLogin login ∈ calls (log.heard i)
  · rw [(errs_of_counted hN h hc).2]
  · rw [List.count_eq_zero_of_not_mem hc]
    exact Nat.zero_le 1

theorem counted_of_penal (he : Errs svc log ps login i p x) {n : UInt32} {r : Except DirectoryError Unit}
    (hp : log.heard i <+: x.history p.peer ++ penalty svc x.offer.account.member p.peer.ip n r) {c : Call}
    (hc : c ∈ calls (log.heard i)) (hpenal : isPenal c = true) :
    .called (.recordFailedLogin login) (.ok n) ∈ log.heard i := by
  obtain ⟨rest, hrest, hpenalty⟩ := he.rest hp
  rw [← hrest] at hc ⊢
  cases rest with
  | nil =>
    rw [List.append_nil] at hc
    simp [lenient_proof p.peer x.offer x.frame c hc] at hpenal
  | cons e rest =>
    obtain ⟨rfl, -⟩ := List.cons_prefix_cons.mp hpenalty
    obtain ⟨-, -, rfl, -⟩ := he
    exact List.mem_append_right _ List.mem_cons_self

section Lockout

variable (hN : svc.policy.maxWrongPasswords ≠ 0) (h : Crowd svc w₀ log ps w) (hz : w₀.store.Counts login 0)
  (hu : Call.Unstored login log.calls)

include hN h hz hu

/-- Without a successful logon the counts come one by one. -/
theorem returned_eq {n : UInt32} (he : .called (.recordFailedLogin login) (.ok n) ∈ log.heard i) :
    n.toNat = (log.counters login).idxOf i + 1 := by
  obtain ⟨before, after, rfl, -, hr⟩ := returns_of_mem h he
  have hunstored : Call.Unstored login before.calls := by
    intro record hm
    refine hu record ?_
    rw [Log.calls_append]
    exact List.mem_append_left _ hm
  have hcounters : Log.counters login (before ++ (i, .called (.recordFailedLogin login) (.ok n)) :: after) =
      before.counters login ++ i :: Log.counters login after := by
    rw [Log.counters_append]
    simp [Log.counters, Event.call?]
  have hnew : i ∉ before.counters login := by
    have hnodup := nodup_counters hN h login
    rw [hcounters] at hnodup
    exact fun hm => (List.nodup_append.mp hnodup).2.2 i hm i List.mem_cons_self rfl
  rw [hr 0 hz n rfl, Call.tally_of_unstored hunstored, Nat.zero_add, ← Log.length_counters, hcounters,
    List.idxOf_append_of_notMem hnew, List.idxOf_cons_self, Nat.add_zero]

/-- Fewer wrong passwords than the limit ban nobody. -/
theorem unbanned_of_few
    (hfew : ∀ S : Finset Nat, (∀ j ∈ S, ∃ p x, Errs svc log ps login j p x) → S.card < svc.policy.maxWrongPasswords)
    (he : Errs svc log ps login i p x) (target : BanTarget) (seconds : Nat) :
    .autoBan target seconds ∉ calls (log.heard i) := by
  intro hban
  obtain ⟨n, r, hp⟩ := penalty_of_errs hN h he
  have hcounted := counted_of_penal he hp hban rfl
  have hn := returned_eq hN h hz hu hcounted
  have hmem : i ∈ log.counters login := Log.mem_counters.mpr (List.mem_filterMap.mpr ⟨_, hcounted, rfl⟩)
  have hlt : (log.counters login).idxOf i < (log.counters login).length := List.idxOf_lt_length_iff.mpr hmem
  have hcard := hfew (log.counters login).toFinset fun j hj =>
    (errs_of_counted hN h (Log.mem_counters.mp (List.mem_toFinset.mp hj))).1
  rw [List.toFinset_card_of_nodup (nodup_counters hN h login)] at hcard
  have hbelow : n.toNat < svc.policy.maxWrongPasswords := by omega
  have hcalls := (hp.filterMap Event.call?).subset hban
  change _ ∈ calls _ at hcalls
  simp [hbelow] at hcalls

/-- As many wrong passwords as the limit, once they are refused, have banned. -/
theorem banned_of_many {S : Finset Nat}
    (hS : ∀ j ∈ S, (∃ p x, Errs svc log ps login j p x) ∧
      ((∃ before, log.heard j = before ++ [.replied refusedProof]) ∨ Halted (log.heard j)))
    (hcard : svc.policy.maxWrongPasswords ≤ S.card) :
    ∃ j ∈ S, ∃ p x, Errs svc log ps login j p x ∧
      .autoBan (banTarget svc.policy x.offer.account.member p.peer.ip) svc.policy.banTime ∈ calls (log.heard j) := by
  have hcounted : ∀ j ∈ S, ∃ p x n r, Errs svc log ps login j p x ∧
      log.heard j = x.history p.peer ++ penalty svc x.offer.account.member p.peer.ip n r ∧
      .called (.recordFailedLogin login) (.ok n) ∈ log.heard j := by
    intro j hj
    obtain ⟨⟨p, x, he⟩, hrefused⟩ := hS j hj
    obtain ⟨n, r, hp⟩ := penalty_of_errs hN h he
    have hheard := heard_eq_of_ended he hp hrefused
    refine ⟨p, x, n, r, he, hheard, counted_of_penal (c := .recordFailedLogin login) he hp ?_ rfl⟩
    have hlogin : x.offer.account.member.login = login := he.login
    rw [hheard, calls_append, calls_penalty, hlogin]
    exact List.mem_append_right _ List.mem_cons_self
  -- The counts are different numbers, so they cannot all be below the limit.
  obtain ⟨j, hj, hlast⟩ : ∃ j ∈ S, svc.policy.maxWrongPasswords ≤ (log.counters login).idxOf j + 1 := by
    by_contra hne
    push Not at hne
    have hmaps : Set.MapsTo (fun j => (log.counters login).idxOf j) S
        (Finset.range (svc.policy.maxWrongPasswords - 1)) := by
      intro j hj
      have := hne j hj
      simp only [Finset.coe_range, Set.mem_Iio]
      omega
    have hinj : Set.InjOn (fun j => (log.counters login).idxOf j) S := by
      intro j hj k hk hjk
      obtain ⟨_, _, _, _, -, -, hm⟩ := hcounted j hj
      exact (List.idxOf_inj (Log.mem_counters.mpr (List.mem_filterMap.mpr ⟨_, hm, rfl⟩))).mp hjk
    have hle := Finset.card_le_card_of_injOn _ hmaps hinj
    rw [Finset.card_range] at hle
    omega
  obtain ⟨p, x, n, r, he, hheard, hm⟩ := hcounted j hj
  have hn : ¬n.toNat < svc.policy.maxWrongPasswords := by
    rw [returned_eq hN h hz hu hm]
    omega
  refine ⟨j, hj, p, x, he, ?_⟩
  rw [hheard, calls_append, calls_penalty, if_neg hn]
  simp

end Lockout

theorem counts_since (h : Crowd svc w₀ log ps w) {k : Nat} (hk : w₀.store.Counts login k) :
    (Call.Unstored login log.calls → w.store.Counts login (k + log.calls.count (.recordFailedLogin login))) ∧
    ∀ before record after, log.calls = before ++ .persistLogon record :: after → record.login = login →
      Call.Unstored login after → w.store.Counts login (after.count (.recordFailedLogin login)) := by
  have hc := counts_of_crowd h hk
  refine ⟨fun hu => ?_, fun before record after he hr hu => ?_⟩
  · rw [Call.tally_of_unstored hu] at hc
    exact hc
  · rw [he, Call.tally_of_stored hr hu] at hc
    exact hc

/-- A connection that was sent a wrong password counts it, bans if the count reaches the limit, and refuses it unless
the program stops at the ban. -/
theorem counted_once (hN : svc.policy.maxWrongPasswords ≠ 0) (h : Crowd svc w₀ log ps w)
    (he : Errs svc log ps login i p x) :
    ∃ n r, log.heard i <+: x.history p.peer ++ penalty svc x.offer.account.member p.peer.ip n r ∧
      (p.connection.Settled →
        log.heard i = x.history p.peer ++ penalty svc x.offer.account.member p.peer.ip n r) := by
  obtain ⟨n, r, hp⟩ := penalty_of_errs hN h he
  obtain ⟨out, hc⟩ := conversation_of_crowd h he.party
  refine ⟨n, r, hp, fun hs => heard_eq_of_ended he hp ?_⟩
  exact refused_of_settled hs (held_of_conversation hc) he.made he.heard

/-- Many connections over one directory, in any order. The counter of an account is what it was, or zero at the last
stored logon, and the failed logons since. A proof that does not fit its exchange is counted once, nothing else is
counted, and the connection bans if and only if the count that it gets reaches the limit. Hence no account is banned
by fewer wrong passwords than the limit, and as many of them ban in every order. -/
theorem failed_logons_counted (svc : Service) (hN : svc.policy.maxWrongPasswords ≠ 0) {w₀ w : World} {log : Log}
    {ps : List Party} (h : Crowd svc w₀ log ps w) :
    (∀ login k, w₀.store.Counts login k →
      (Call.Unstored login log.calls → w.store.Counts login (k + log.calls.count (.recordFailedLogin login))) ∧
      ∀ before record after, log.calls = before ++ .persistLogon record :: after → record.login = login →
        Call.Unstored login after → w.store.Counts login (after.count (.recordFailedLogin login))) ∧
    (∀ i p phase frame, ps[i]? = some p → .taken phase .logonProof frame ∈ log.heard i →
      ∃ o : Offer, o.Granted svc p.peer ∧
        o.history p.peer ++ [.taken .logonProof .logonProof frame] <+: log.heard i) ∧
    (∀ login i p x, Errs svc log ps login i p x →
      ∃ n r, log.heard i <+: x.history p.peer ++ penalty svc x.offer.account.member p.peer.ip n r ∧
        (p.connection.Settled →
          log.heard i = x.history p.peer ++ penalty svc x.offer.account.member p.peer.ip n r)) ∧
    (∀ i p c, ps[i]? = some p → c ∈ calls (log.heard i) → isPenal c = true →
      ∃ x, Errs svc log ps x.offer.account.login i p x) ∧
    ∀ login, w₀.store.Counts login 0 → Call.Unstored login log.calls →
      ((∀ S : Finset Nat, (∀ j ∈ S, ∃ p x, Errs svc log ps login j p x) → S.card < svc.policy.maxWrongPasswords) →
        ∀ i p x, Errs svc log ps login i p x → ∀ target seconds, .autoBan target seconds ∉ calls (log.heard i)) ∧
      ∀ S : Finset Nat,
        (∀ j ∈ S, (∃ p x, Errs svc log ps login j p x) ∧
          ((∃ before, log.heard j = before ++ [.replied refusedProof]) ∨ Halted (log.heard j))) →
        svc.policy.maxWrongPasswords ≤ S.card →
        ∃ j ∈ S, ∃ p x, Errs svc log ps login j p x ∧
          .autoBan (banTarget svc.policy x.offer.account.member p.peer.ip) svc.policy.banTime ∈
            calls (log.heard j) := by
  refine ⟨fun login k hk => counts_since h hk, ?_, fun login i p x he => counted_once hN h he, ?_, ?_⟩
  · exact fun i p phase frame hi hm => offer_of_taken (overture_of_crowd h hi) hm
  · intro i p c hi hc hpenal
    obtain ⟨x, hx, hp⟩ := made_of_penal (overture_of_crowd h hi) hc hpenal
    exact ⟨x, hi, hx, rfl, hp⟩
  · intro login hz hu
    refine ⟨fun hfew i p x he target seconds => ?_, fun S hS hcard => ?_⟩
    · exact unbanned_of_few hN h hz hu hfew he target seconds
    · exact banned_of_many hN h hz hu hS hcard

/-! An intruder tries a wrong password where one is too many. -/

namespace Intruder

def service : Service := ⟨⟨false, 1, 60, .account, 10, 60⟩, ⟨⟨1, 0⟩, ⟨12340, 12340⟩, []⟩, .empty, none⟩

def row : AccountRow where
  id := 1
  username := "TESTER"
  salt := .blob (List.replicate 32 0)
  verifier := .blob (List.replicate 32 0)

def world : World := ⟨{ Store.empty with accounts := ⟨[row], 1⟩ }, 0, ⟨fun _ => 0, 0⟩, [], fun _ _ => false, []⟩

def client : Endpoint := ⟨.v4 0x7F000001, 4000⟩

def challenge : Challenge :=
  ⟨.logonChallenge, 0, .zero 4, .zero 3, 12340, .zero 4, .zero 4, .zero 4, 0, .zero 4, "TESTER"⟩

/-- A public value of zero is never accepted. -/
def proof : LogonProof := ⟨.zero 32, .zero 20, .zero 20, 0, 0, none⟩

def account : Account :=
  ⟨1, "TESTER", .zero 32, .zero 32, false, "00", "127.0.0.1", 0, false, false, 0, none, none⟩

theorem upper_login : Text.Latin.upper challenge.login = "TESTER" := Text.Latin.upper_eq (by decide +kernel)

theorem fetch : world.store.fetchByLogin world.clock "TESTER" = .ok (some account) := by
  decide +kernel

theorem short_login : (Bytes.ofString challenge.login).length ≤ Challenge.maxLogin := by
  decide +kernel

theorem hasRoom : world.store.HasRoom 2 := by
  intro r hr
  cases List.mem_singleton.mp hr
  exact ⟨0, rfl, by decide⟩

theorem hasTime : Store.timeAfter? 1 service.policy.banTime ≠ none := by
  decide +kernel

theorem refusal?_account : refusal? service.geoip client.ip account = none := by
  decide +kernel

theorem isHealthy : world.IsHealthy := fun _ _ => rfl

theorem awaits_proof (svc : Service) (hbuilds : svc.builds = service.builds) (hgeoip : svc.geoip = service.geoip) :
    ∃ t s d w, Alone svc world client t ⟨s, [], d, .waiting⟩ w ∧ s.phase = .logonProof ∧
      s.account = some account.member ∧ w.store = world.store := by
  have hf : world.store.fetchByLogin world.clock (Text.Latin.upper challenge.login) = .ok (some account) := by
    rw [upper_login]
    exact fetch
  have hb : world.store.isIpBanned world.clock client.ip = false := rfl
  have ho : Opens svc account none := .absent rfl
  have hv : refusal? svc.geoip client.ip account = none := hgeoip ▸ refusal?_account
  have hbuild : (svc.builds.expansion challenge.build).isValid = true := hbuilds ▸ rfl
  exact alone_offered isHealthy hasRoom hb rfl short_login hf hv ho hbuild

theorem decode_proof : LogonProof.decode proof.encode = .ok proof :=
  LogonProof.decode_encode proof (by simp [proof])

theorem accept_proof (x : Server) : x.accept proof.clientKey proof.proof = none := by
  have hz : number proof.clientKey % prime = 0 := by decide +kernel
  rw [Server.accept, if_pos hz]

theorem refused {t : List Event} {s : Session} {d : Option Nat} {w : World}
    (h : Alone service world client t ⟨s, [], d, .waiting⟩ w) (hs : s.phase = .logonProof) (hroom : w.store.HasRoom 2)
    (hw : w.clock = 1) : ∃ es w', Alone service world client
      (t ++ .taken .logonProof .logonProof proof.encode :: es ++ [.replied refusedProof])
      ⟨spent s, [], d, .writing .logonProof refusedProof⟩ w' := by
  have hn : s.nextFrame proof.encode = .ok (some (.logonProof, proof.encode.length)) :=
    nextFrame_logonProof (by simp [proof]) hs
  have hl : proof.encode.length ≤ bufferLimit := by decide +kernel
  obtain ⟨es, hy, hes⟩ := World.yields_run (s.dispatch service .logonProof proof.encode) w
  have hrun : (w.run (s.dispatch service .logonProof proof.encode)).1 = (spent s, .ok refusedProof) := by
    cases answered_of_yields (coherent_of_held h.held) (due_of_nextFrame hn) hy with
    | logonProof hp hx hm ha =>
      refine (refused_of_rejected ha decode_proof (accept_proof _)).resolve_right fun ⟨hh, _⟩ => ?_
      obtain ⟨r, hban, hr⟩ := (ha.counted_of_halted hh).ban_of_halted hh
      exact hasTime (hw ▸ hes _ _ _ hban hr)
  obtain ⟨es, ha⟩ := h.answered hn hl hroom hrun
  rw [hs] at ha
  exact ⟨es, _, ha⟩

theorem makes_mistake : ∃ u c w x, Crowd service world (u.map (0, ·)) [⟨client, c⟩] w ∧ c.Settled ∧
    Errs service (u.map (0, ·)) [⟨client, c⟩] "TESTER" 0 ⟨client, c⟩ x ∧
    x.offer.account.member = account.member ∧ ∃ before, u = before ++ [.replied refusedProof] := by
  obtain ⟨t, s, d, w, h, hs, hm, hstore⟩ := awaits_proof service rfl rfl
  have hdue : Due s.phase .logonProof := hs ▸ .logonProof
  obtain ⟨o, ho, rfl, rfl⟩ := offer_of_due (chronicle_of_served h.held) hdue
  have hmember : o.account.member = account.member := Option.some.inj hm
  obtain ⟨es, w', ha⟩ := refused (h.tick 1) hs (hstore ▸ hasRoom) rfl
  refine ⟨_, _, w', ⟨o, proof.encode, proof⟩, ha, trivial, ?_, hmember, _, rfl⟩
  refine ⟨rfl, ⟨ho, decode_proof, accept_proof _⟩, congrArg Member.login hmember, ?_⟩
  rw [Log.heard_self, List.append_cons, List.append_assoc]
  exact List.prefix_append _ _

/-- The intruder is banned at once. -/
theorem banned_after_one : service.policy.maxWrongPasswords ≠ 0 ∧
    ∃ log ps w, Crowd service world log ps w ∧ .autoBan (.account 1) 60 ∈ calls (log.heard 0) := by
  have hN : service.policy.maxWrongPasswords ≠ 0 := by decide
  obtain ⟨u, c, w, x, h, hs, he, hm, hu⟩ := makes_mistake
  obtain ⟨-, -, honce, -, hlock⟩ := failed_logons_counted service hN h
  obtain ⟨n, r, -, hall⟩ := honce _ _ _ _ he
  have hcounts : world.store.Counts "TESTER" 0 := ⟨row, by decide +kernel, rfl⟩
  have hunstored : Call.Unstored "TESTER" (Log.calls (u.map (0, ·))) := by
    intro record hr
    rw [Log.calls_of, ← Log.heard_self 0 u, hall hs, calls_append, calls_penalty] at hr
    split at hr <;> simp at hr
  obtain ⟨-, hmany⟩ := hlock _ hcounts hunstored
  have hS : ∀ j ∈ ({0} : Finset Nat), (∃ p x, Errs service (u.map (0, ·)) [⟨client, c⟩] "TESTER" j p x) ∧
      ((∃ before, Log.heard j (u.map (0, ·)) = before ++ [.replied refusedProof]) ∨
        Halted (Log.heard j (u.map (0, ·)))) := by
    intro j hj
    obtain rfl := Finset.mem_singleton.mp hj
    rw [Log.heard_self]
    exact ⟨⟨_, _, he⟩, .inl hu⟩
  obtain ⟨j, hj, p, y, hy, hban⟩ := hmany {0} hS (Nat.le_refl 1)
  obtain rfl := Finset.mem_singleton.mp hj
  obtain rfl : ⟨client, c⟩ = p := Option.some.inj hy.party
  obtain ⟨haccount, -, -⟩ := offer_eq_of_prefix hy.heard he.heard
  rw [haccount, hm] at hban
  exact ⟨hN, _, _, _, h, hban⟩

end Intruder

end Connection

end RealmLogon
