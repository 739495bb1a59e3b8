import RealmLogon.Proofs.Connection.Chunking
import RealmLogon.Proofs.Connection.Lockout
import RealmLogon.Proofs.GeoIp.Lookup
import RealmLogon.Proofs.Session.Requests

/-! Accounts that are bound to a country, and clients that come from another one. What the table of countries lists
for the client's address decides, and the lock holds as far as a look-up finds what is listed. -/

namespace RealmLogon

open GeoIp Text

namespace Session

/-- An account is bound to a country, and every listed range that contains an address, of which there is one, names
another country. -/
structure Abroad (l : List Range) (bits : UInt32) (a : Account) : Prop where
  unbound : a.ipLocked = false
  locked : a.lockCountry ≠ "" ∧ a.lockCountry ≠ "00"
  listed : ∃ r ∈ l, r.Contains bits
  elsewhere : ∀ r ∈ l, r.Contains bits → r.country ≠ a.lockCountry ∧ r.country ≠ "-"

section Abroad

variable {l : List Range} {bits : UInt32} {a : Account}

theorem Abroad.lock?_eq (h : Abroad l bits a) (g : GeoIp) (ip : Address) :
    lock? g ip a =
      match GeoIp.country? g ip with
      | some country => if country = a.lockCountry then none else some .unlockableLock
      | none => none := by
  have hlock : lockCountry? a = some a.lockCountry := if_neg (not_or.mpr h.locked)
  simp only [lock?, h.unbound, Bool.false_eq_true, if_false, hlock]
  cases GeoIp.country? g ip <;> rfl

theorem Abroad.refusal?_eq (h : Abroad l bits a) (hs : ¬Shadowed bits l) :
    refusal? (ofRanges l) (.v4 bits) a = some .unlockableLock := by
  obtain ⟨r, hr, hd, hc⟩ := exists_decisive_of_contains h.listed hs
  obtain ⟨hne, hhyphen⟩ := h.elsewhere r hr hc
  have hcountry : GeoIp.country? (ofRanges l) (.v4 bits) = some r.country := by
    rw [country?_ofRanges, hd]
    exact if_pos ⟨hc.2, hhyphen⟩
  have hlock : lock? (ofRanges l) (.v4 bits) a = some .unlockableLock := by
    rw [h.lock?_eq, hcountry]
    exact if_neg hne
  simp only [refusal?, hlock]

theorem Abroad.refusal?_of_shadowed (h : Abroad l bits a) (hs : Shadowed bits l) :
    refusal? (ofRanges l) (.v4 bits) a = ban? a := by
  have hlock : lock? (ofRanges l) (.v4 bits) a = none := by
    rw [h.lock?_eq, country?_of_shadowed hs]
  simp only [refusal?, hlock]

end Abroad

theorem run_challenge_refused {svc : Service} {s : Session} {command : Command} (hc : Challenge.IsOpening command)
    {frame : Bytes} {c : Challenge} (hd : Challenge.decode frame = .ok c) {w w' : World} {a : Account}
    (ha : w.call (lookup c) = (.ok (some a), w')) {v : Verdict} (hv : refusal? svc.geoip s.peer.ip a = some v) :
    w.run (s.dispatch svc command frame) = ((introduced svc s c, .ok (challengeFailure command v)), w') := by
  rcases hc with rfl | rfl
  · rw [dispatch, logonChallenge_eq hd, run_withAccount_some ha]
    simp only [logonOf, hv]
    rfl
  · rw [dispatch, reconnectChallenge_eq hd, run_withAccount_some ha]
    simp only [reconnectOf, hv]
    rfl

end Session

namespace Connection

open Session

variable {svc : Service} {peer : Endpoint} {w w₁ w₂ : World} {c : Challenge} {a : Account}

/-- A client that is not banned and whose challenge is refused gets the refusal, and nothing that it sends after the
challenge is looked at. -/
theorem converse_refused (hb : w.run (admission peer.ip) = (false, w₁)) (hc : Challenge.IsOpening c.command)
    (hl : (Bytes.ofString c.login).length ≤ Challenge.maxLogin) (ha : w₁.call (lookup c) = (.ok (some a), w₂))
    {v : Verdict} (hv : refusal? svc.geoip peer.ip a = some v) (more : Bytes) :
    converse svc peer (c.encode ++ more) w = (challengeFailure c.command v, .ended (.ok ()), w₂) := by
  let s : Session := { peer := peer }
  have hw : welcome peer w = ([], .waiting s [], w₁) := by
    simp only [welcome, hb, Bool.false_eq_true, if_false]
    rfl
  have hn : s.nextFrame (c.encode ++ more) = .ok (some (c.command, c.encode.length)) :=
    nextFrame_append_some (nextFrame_challenge hc hl rfl) more
  have hrun : w₁.run (s.dispatch svc c.command c.encode) =
      ((introduced svc s c, .ok (challengeFailure c.command v)), w₂) :=
    run_challenge_refused hc (Challenge.decode_encode hc hl) ha hv
  have hf : serveFrame svc s c.command ((c.encode ++ more).take c.encode.length) w₁ =
      (challengeFailure c.command v, .ends (.ok ()), w₂) := by
    rw [List.take_left' rfl]
    simp only [serveFrame, hrun]
    rfl
  simp only [converse, hw, Rest.extend, List.nil_append]
  rw [serve_of_ends hn hf]

/-- A country lock holds for every file of ranges that is accepted. Every challenge of an account that is bound to
another country is refused from an address that the ranges contain, with the session closed, and so is the connection
of a client that begins with it. This is so unless the range that starts last at or before the address ends before
it: then the country is unknown, however many ranges contain the address, and the lock is passed over. -/
theorem country_lock_holds {file : Bytes} {l : List Range} (hl : listed file = .ok l) (hg : load file = .ok svc.geoip)
    {bits : UInt32} (h : Abroad l bits a) :
    (¬Shadowed bits l →
      (∀ (s : Session) (command : Command) (frame : Bytes) (c : Challenge) (w w' : World), s.peer.ip = .v4 bits →
        Challenge.IsOpening command → Challenge.decode frame = .ok c → w.call (lookup c) = (.ok (some a), w') →
        (introduced svc s c).phase = .closed ∧
        w.run (s.dispatch svc command frame) =
          ((introduced svc s c, .ok (challengeFailure command .unlockableLock)), w')) ∧
      ∀ (peer : Endpoint) (c : Challenge) (more : Bytes) (reads : List (Nat × Bytes)) (closing : Nat)
        (w w₁ w₂ : World), peer.ip = .v4 bits → Challenge.IsOpening c.command →
        (Bytes.ofString c.login).length ≤ Challenge.maxLogin → w.run (admission peer.ip) = (false, w₁) →
        w₁.call (lookup c) = (.ok (some a), w₂) → reads.flatMap (·.2) = c.encode ++ more →
        ¬Disrupted (runTimed svc peer reads closing w).2.1 →
        (runTimed svc peer reads closing w).1 = challengeFailure c.command .unlockableLock ∧
        (runTimed svc peer reads closing w).2.1.result? = some (.ok ()) ∧
        (runTimed svc peer reads closing w).2.2 = w₂) ∧
    (Shadowed bits l → GeoIp.country? svc.geoip (.v4 bits) = none ∧ refusal? svc.geoip (.v4 bits) a = ban? a) := by
  obtain hgeoip : svc.geoip = ofRanges l := by
    rw [load, hl] at hg
    exact (Except.ok.inj hg).symm
  refine ⟨fun hs => ⟨?_, ?_⟩, fun hs => ?_⟩
  · intro s command frame c w w' hpeer hc hd ha
    refine ⟨rfl, run_challenge_refused hc hd ha ?_⟩
    rw [hgeoip, hpeer]
    exact h.refusal?_eq hs
  · intro peer c more reads closing w w₁ w₂ hpeer hc hlogin hb ha hreads hdisrupted
    have hv : refusal? svc.geoip peer.ip a = some .unlockableLock := by
      rw [hgeoip, hpeer]
      exact h.refusal?_eq hs
    have hconverse := converse_refused hb hc hlogin ha hv more
    have hmeets := (runTimed_meets svc peer reads closing w).resolve_left hdisrupted
    rw [hreads, hconverse] at hmeets
    exact hmeets
  · rw [hgeoip]
    exact ⟨country?_of_shadowed hs, h.refusal?_of_shadowed hs⟩

/-! A client from a listed range, and one that is in the same range behind a smaller one. -/

namespace Emigrant

open Intruder

def file : Bytes := Bytes.ofString "0,100,US\n"

def nested : Bytes := Bytes.ofString "0,100,US\n10,20,US\n"

def service (l : List Range) : Service := { Intruder.service with geoip := ofRanges l }

def client : Endpoint := ⟨.v4 50, 4000⟩

def account : Account := { Intruder.account with lockCountry := "DE" }

def world : World :=
  { Intruder.world with store := { Store.empty with accounts := ⟨[{ row with lockCountry := "DE" }], 1⟩ } }

theorem fetch : world.call (lookup challenge) = (.ok (some account), world.called (lookup challenge)) := by
  have hf : world.store.fetchByLogin world.clock (Latin.upper challenge.login) = .ok (some account) := by
    rw [upper_login]
    decide +kernel
  exact congrArg (fun r : Except DirectoryError (Option Account) => (r, world.called (lookup challenge))) hf

theorem listed_file : listed file = .ok [⟨0, 100, "US"⟩] := rfl

theorem listed_nested : listed nested = .ok [⟨0, 100, "US"⟩, ⟨10, 20, "US"⟩] := rfl

/-- The client is refused, and it would not be if the table listed the small range too. -/
theorem kept_out :
    (world.run (Session.dispatch (service [⟨0, 100, "US"⟩]) { peer := client } .logonChallenge challenge.encode)).1.2 =
      .ok (challengeFailure .logonChallenge .unlockableLock) ∧
    refusal? (service [⟨0, 100, "US"⟩, ⟨10, 20, "US"⟩]).geoip client.ip account = none := by
  constructor
  · have hload : load file = .ok (service [⟨0, 100, "US"⟩]).geoip := by
      rw [load, listed_file]
      rfl
    have habroad : Abroad [⟨0, 100, "US"⟩] 50 account :=
      ⟨rfl, by decide, by decide, by decide⟩
    have hshadowed : ¬Shadowed 50 [⟨0, 100, "US"⟩] :=
      not_shadowed_of_disjoint (by decide) (by simp) (by decide)
    obtain ⟨hrefused, -⟩ := (country_lock_holds listed_file hload habroad).1 hshadowed
    have hd : Challenge.decode challenge.encode = .ok challenge := Challenge.decode_encode (.inl rfl) short_login
    rw [(hrefused { peer := client } .logonChallenge _ challenge _ _ rfl (.inl rfl) hd fetch).2]
  · have hload : load nested = .ok (service [⟨0, 100, "US"⟩, ⟨10, 20, "US"⟩]).geoip := by
      rw [load, listed_nested]
      rfl
    have habroad : Abroad [⟨0, 100, "US"⟩, ⟨10, 20, "US"⟩] 50 account :=
      ⟨rfl, by decide, by decide, by decide⟩
    have hshadowed : Shadowed 50 [⟨0, 100, "US"⟩, ⟨10, 20, "US"⟩] := ⟨⟨10, 20, "US"⟩, by decide, by decide⟩
    exact ((country_lock_holds listed_nested hload habroad).2 hshadowed).2

end Emigrant

end Connection

end RealmLogon
