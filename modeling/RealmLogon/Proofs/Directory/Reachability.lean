import RealmLogon.Proofs.Directory.Registration
import RealmLogon.Proofs.Wire.Frames

/-! Which of the accounts that can be registered can be asked for. A registration takes names of every length, and a
challenge carries only so many bytes of a login: the two agree on the short names, and no bytes that come over the
wire ask for an account with a longer one. -/

namespace RealmLogon

open Exchange Text

namespace Challenge

/-- What is sent of a challenge is one frame, whatever follows it, and is read as what was sent. -/
structure Arrives (c : Challenge) : Prop where
  framed : ∀ more, Frame.lengthOf (c.encode ++ more) = .ok (some c.encode.length)
  decoded : decode c.encode = .ok c

theorem length_login_of_decode {b : Bytes} {c : Challenge} (h : decode b = .ok c) :
    (Bytes.ofString c.login).length ≤ maxLogin := by
  obtain ⟨rest, hr⟩ := Reader.decode_eq_ok h
  exact (read_eq_ok hr).2.1

variable {c : Challenge}

/-- A challenge with a login that is too long is never taken for a frame of its own length, not even one whose size
has come round to a small one. -/
theorem lengthOf_encode_ne (hc : IsOpening c.command) (hl : maxLogin < (Bytes.ofString c.login).length) :
    Frame.lengthOf c.encode ≠ .ok (some c.encode.length) := by
  have hm : maxLogin = 16 := rfl
  have hx : maxSize = 50 := rfl
  have hh : headerSize = 34 := rfl
  have hlong := c.length_encode
  rw [lengthOf_encode_eq hc rfl]
  split
  · exact nofun
  · intro h
    simp only [Except.ok.injEq, Option.some.injEq] at h
    omega

theorem lengthOf_encode_of_long (hc : IsOpening c.command) (hl : maxLogin < (Bytes.ofString c.login).length)
    (hs : sizedHeader + (Bytes.ofString c.login).length < 65536) :
    Frame.lengthOf c.encode = .error (.challengeTooLarge maxSize c.encode.length) := by
  have hm : maxLogin = 16 := rfl
  have hx : maxSize = 50 := rfl
  have hh : headerSize = 34 := rfl
  have hz : sizedHeader = 30 := rfl
  have hlong := c.length_encode
  have ht : c.encode.length = 4 + (sizedHeader + (Bytes.ofString c.login).length) % 65536 := by omega
  rw [lengthOf_encode_eq hc ht, if_pos (by omega)]

theorem arrives_iff (hc : IsOpening c.command) :
    c.Arrives ↔ (Bytes.ofString c.login).length ≤ maxLogin := by
  constructor
  · intro h
    exact length_login_of_decode h.decoded
  · intro hl
    exact ⟨Frame.lengthOf_append (lengthOf_encode hc hl), decode_encode hc hl⟩

end Challenge

theorem Account.id_fresh {id : Int} {login password : String} {salt : Salt} {security : UInt8}
    {sealedSecret : Option Bytes} (h : (AccountRow.fresh id login password salt security sealedSecret).HasNumber)
    (bans : List AccountBan) (now : Int) :
    (Account.fresh id login password salt security sealedSecret bans now).id = UInt32.ofInt id := by
  have hm : id % 2 ^ 32 = id := Int.emod_eq_of_lt h.1 h.2
  rw [UInt32.ofInt, hm]
  rfl

namespace Store

/-- An account that was registered is stored under its name in upper case. A challenge for this name arrives exactly
if the name has no more bytes than a challenge carries; for a longer name no challenge is a frame of its own length,
and no bytes at all are read as a challenge for it. A look-up of the name gives the new account, under the number
that its registration told, if that is a number of 32 bits. -/
theorem created_account_reachable {s s' : Store} {salt : Salt} {login password : String} {security : UInt8}
    {sealedSecret : Option Bytes} {n : UInt32}
    (h : s.createAccount salt login password security sealedSecret = (.ok n, s')) :
    s'.accountNamed? (Latin.upper login) =
      some (.fresh (s.accounts.last + 1) login password salt security sealedSecret) ∧
    (∀ c : Challenge, Challenge.IsOpening c.command → c.login = Latin.upper login →
      (c.Arrives ↔ (Bytes.ofString (Latin.upper login)).length ≤ Challenge.maxLogin)) ∧
    (Challenge.maxLogin < (Bytes.ofString (Latin.upper login)).length →
      (∀ c : Challenge, Challenge.IsOpening c.command → c.login = Latin.upper login →
        Frame.lengthOf c.encode ≠ .ok (some c.encode.length)) ∧
      ∀ b c, Challenge.decode b = .ok c → c.login ≠ Latin.upper login) ∧
    ((AccountRow.fresh (s.accounts.last + 1) login password salt security sealedSecret).HasNumber → ∀ now,
      ∃ a, s'.fetchByLogin now (Latin.upper login) = .ok (some a) ∧ a.id = n ∧
        a = .fresh (s.accounts.last + 1) login password salt security sealedSecret s.accountBans now) := by
  refine ⟨accountNamed?_createAccount h, ?_, ?_, ?_⟩
  · intro c hc hl
    rw [← hl]
    exact Challenge.arrives_iff hc
  · intro hlong
    constructor
    · intro c hc hl
      exact Challenge.lengthOf_encode_ne hc (hl ▸ hlong)
    · intro b c hd hl
      have hshort := Challenge.length_login_of_decode hd
      rw [hl] at hshort
      omega
  · intro hn now
    refine ⟨_, ?_, ?_, rfl⟩
    · rw [fetchByLogin_createAccount h, if_pos hn]
    · rw [Account.id_fresh hn, (createAccount_eq_ok h).1]

/-! The first account of an empty store, under a name that is short enough and under one that is not. -/

namespace Novice

theorem upper_long : Latin.upper "abcdefghijklmnopq" = "ABCDEFGHIJKLMNOPQ" := Latin.upper_eq (by decide +kernel)

theorem length_upper_long : (Bytes.ofString (Latin.upper "abcdefghijklmnopq")).length = 17 := by
  rw [upper_long]
  decide +kernel

theorem upper_short : Latin.upper "abcdefghijklmnop" = "ABCDEFGHIJKLMNOP" := Latin.upper_eq (by decide +kernel)

/-- A name of sixteen letters is asked for by a challenge that arrives, and is found. -/
theorem sixteen_letters_reach :
    ∃ s', Store.empty.createAccount (.zero 32) "abcdefghijklmnop" "secret" 0 none = (.ok 1, s') ∧
      (∀ c : Challenge, c.command = .logonChallenge → c.login = "ABCDEFGHIJKLMNOP" → c.Arrives) ∧
      ∃ a, s'.fetchByLogin 0 "ABCDEFGHIJKLMNOP" = .ok (some a) ∧ a.id = 1 := by
  obtain ⟨s', hcreated⟩ : ∃ s', Store.empty.createAccount (.zero 32) "abcdefghijklmnop" "secret" 0 none =
    (.ok 1, s') := ⟨_, rfl⟩
  obtain ⟨-, harrives, -, hfound⟩ := created_account_reachable hcreated
  rw [upper_short] at harrives hfound
  refine ⟨s', hcreated, ?_, ?_⟩
  · intro c hc hl
    exact (harrives c (.inl hc) hl).mpr (by decide +kernel)
  · obtain ⟨a, ha, hid, -⟩ := hfound ⟨by decide, by decide⟩ 0
    exact ⟨a, ha, hid⟩

/-- A name of seventeen letters is registered, and every challenge for it is refused as too large and is not read. -/
theorem seventeen_letters_do_not :
    ∃ s', Store.empty.createAccount (.zero 32) "abcdefghijklmnopq" "secret" 0 none = (.ok 1, s') ∧
      ∀ c : Challenge, Challenge.IsOpening c.command → c.login = Latin.upper "abcdefghijklmnopq" →
        Frame.lengthOf c.encode = .error (.challengeTooLarge 50 51) ∧
          ∀ c', Challenge.decode c.encode = .ok c' → c'.login ≠ Latin.upper "abcdefghijklmnopq" := by
  refine ⟨_, rfl, ?_⟩
  intro c hc hl
  have hlength : (Bytes.ofString c.login).length = 17 := by
    rw [hl]
    exact length_upper_long
  constructor
  · rw [Challenge.lengthOf_encode_of_long hc (hlength ▸ by decide) (hlength ▸ by decide), c.length_encode, hlength]
    rfl
  · intro c' hd hl'
    have hshort := Challenge.length_login_of_decode hd
    rw [hl', length_upper_long] at hshort
    exact absurd hshort (by decide)

end Novice

end Store

end RealmLogon
