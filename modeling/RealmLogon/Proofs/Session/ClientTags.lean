import RealmLogon.Probe.Identity
import RealmLogon.Proofs.Session.Challenges
import RealmLogon.Proofs.Text.Canonical
import RealmLogon.Proofs.Wire.Tags

/-! What a client says of its system and its locale travels as tags. A server that has read the challenge looks the names
up that the client meant. -/

namespace RealmLogon

open Text

namespace Challenge

variable {c c' : Challenge} {rest : Bytes} {frame : Bytes}

/-- The fields from the build to the country stand at a place of their own, however long the login is. -/
theorem encode_parts (c : Challenge) (rest : Bytes) : ∃ header tail : Bytes, header.length = 11 ∧
    c.encode ++ rest = header ++ (LittleEndian.word16 c.build ++ (c.platform.toList ++ (c.os.toList ++
      (c.country.toList ++ tail)))) := by
  refine ⟨[c.command.code, c.error] ++ LittleEndian.digits 2 (sizedHeader + (Bytes.ofString c.login).length) ++
    c.gameName.toList ++ c.version.toList, LittleEndian.word32 c.timezoneBias ++ c.ip.toList ++
      UInt8.ofNat (Bytes.ofString c.login).length :: Bytes.ofString c.login ++ rest, ?_, ?_⟩
  · simp
  · simp only [encode, List.append_assoc, List.cons_append, List.nil_append]

/-- Whatever a challenge is read as, it announces the same build, system and locale. -/
theorem announced_of_decode (h : decode c.encode = .ok c') :
    c'.build = c.build ∧ c'.os = c.os ∧ c'.country = c.country := by
  obtain ⟨rest, hr⟩ := Reader.decode_eq_ok h
  obtain ⟨-, -, he⟩ := read_eq_ok hr
  obtain ⟨header, tail, hl, hparts⟩ := encode_parts c []
  obtain ⟨header', tail', hl', hparts'⟩ := encode_parts c' rest
  rw [List.append_nil, he, hparts'] at hparts
  obtain ⟨-, hparts⟩ := List.append_inj hparts (hl'.trans hl.symm)
  obtain ⟨hbuild, hparts⟩ := List.append_inj hparts (by simp)
  obtain ⟨-, hparts⟩ := List.append_inj hparts (by simp)
  obtain ⟨hos, hparts⟩ := List.append_inj hparts (by simp)
  obtain ⟨hcountry, -⟩ := List.append_inj hparts (by simp)
  refine ⟨?_, Octets.ext hos, Octets.ext hcountry⟩
  rw [← LittleEndian.toWord16_word16 c'.build, hbuild, LittleEndian.toWord16_word16]

end Challenge

namespace Session

theorem description_dispatch {k : Command} (hk : Challenge.IsOpening k) {fields : Bytes} {c : Challenge}
    (hd : Challenge.decode (k.code :: fields) = .ok c) (svc : Service) (s : Session) (w : World) :
    (w.run (s.dispatch svc k (k.code :: fields))).1.1.description = (introduced svc s c).description := by
  have hlogon := Challenge.decode_reopened (.inl rfl) hd
  have hreconnect := Challenge.decode_reopened (.inr rfl) hd
  obtain ⟨hl, hr, -⟩ := twins_of_decode svc s w hlogon hreconnect rfl rfl
  rcases hk with rfl | rfl
  · exact hl
  · exact hr

end Session

/-- A name in ASCII without zeros, of any length, is cut to its first four characters by its tag, and a tag in ASCII with
its zeros at the end is the tag of the name that it spells. So whatever an identity says of its system and its locale, if
the names have room in a tag, a server that reads the challenge takes up the number of that locale and the executable
hash of that system. -/
theorem tags_and_names_invert :
    (∀ s : String, ZeroFree s → IsAscii s → Tag.name (Tag.ofName s) = String.ofList (s.toList.take 4)) ∧
    (∀ tag : Octets 4, (∀ x ∈ tag.toList, x.toNat < 128) → Tag.IsPadded tag → Tag.ofName (Tag.name tag) = tag) ∧
    ∀ (i : Identity) (k : Command), Challenge.IsOpening k → Tag.Fits i.os → Tag.Fits i.locale →
      ((Bytes.ofString i.canonicalLogin).length ≤ Challenge.maxLogin →
        ∃ c, Challenge.decode (i.challenge k).encode = .ok c) ∧
      ∀ c, Challenge.decode (i.challenge k).encode = .ok c → ∀ (svc : Service) (s : Session) (w : World),
        let told := (w.run (s.dispatch svc k (i.challenge k).encode)).1.1
        told.build = i.build ∧ told.locale = localeIndex i.locale ∧
        svc.builds.executableHash? told.build told.os = svc.builds.executableHash? i.build i.os ∧
        (IsAscii i.os → told.os = i.os) := by
  refine ⟨fun s hz ha => Tag.name_ofName_of_ascii hz ha, fun tag ha hp => Tag.ofName_name ha hp, ?_⟩
  intro i k hk hos hlocale
  refine ⟨fun hl => ⟨_, Challenge.decode_encode hk hl⟩, fun c hd svc s w => ?_⟩
  intro told
  obtain ⟨hb, ho, hcountry⟩ := Challenge.announced_of_decode hd
  have htold : told.description = (Session.introduced svc s c).description :=
    Session.description_dispatch hk hd svc s w
  have hbuild : told.build = i.build := (congrArg Session.ClientDescription.build htold).trans hb
  have hsystem : told.os = Tag.name (Tag.ofName i.os) :=
    (congrArg Session.ClientDescription.os htold).trans (congrArg Tag.name ho)
  have hnumber : told.locale = localeIndex (Tag.name (Tag.ofName i.locale)) :=
    (congrArg Session.ClientDescription.locale htold).trans (congrArg (fun t => localeIndex (Tag.name t)) hcountry)
  refine ⟨hbuild, ?_, ?_, ?_⟩
  · rw [hnumber, localeIndex_name_ofName hlocale]
  · rw [hbuild, hsystem, BuildTable.executableHash?_name_ofName _ _ hos]
  · intro ha
    rw [hsystem, Tag.name_ofName_of_fits hos ha]

namespace Newcomer

def identity : Identity where
  login := "player"
  build := 8606
  version := ⟨[2, 4, 3], rfl⟩
  platform := "x86"
  os := "Win"
  locale := "ruRU"
  expansion := .post
  executableHash := none

theorem canonicalLogin_eq : identity.canonicalLogin = "PLAYER" := Latin.upper_eq (by decide +kernel)

/-- A tag of three letters, a name of more than four, and a client that is taken for what it is. -/
theorem known_by_tags :
    Tag.ofName (Tag.name ⟨[0x36, 0x38, 0x78, 0], rfl⟩) = ⟨[0x36, 0x38, 0x78, 0], rfl⟩ ∧
    Tag.name (Tag.ofName "Windows") = "Wind" ∧
    ∀ (svc : Service) (s : Session) (w : World),
      let told := (w.run (s.dispatch svc .logonChallenge (identity.challenge .logonChallenge).encode)).1.1
      told.os = "Win" ∧ told.locale = 8 ∧
        svc.builds.executableHash? told.build told.os = svc.builds.executableHash? 8606 "Win" := by
  obtain ⟨hname, htag, hidentity⟩ := tags_and_names_invert
  have hos : Tag.Fits identity.os := ⟨by decide, by decide⟩
  have hlocale : Tag.Fits identity.locale := ⟨by decide, by decide⟩
  have hl : (Bytes.ofString identity.canonicalLogin).length ≤ Challenge.maxLogin := by
    rw [canonicalLogin_eq]
    decide
  obtain ⟨hread, htold⟩ := hidentity identity .logonChallenge (.inl rfl) hos hlocale
  obtain ⟨c, hc⟩ := hread hl
  refine ⟨htag _ (by decide +kernel) (by decide), hname "Windows" (by decide) (by decide), fun svc s w => ?_⟩
  obtain ⟨-, hnumber, hhash, hsystem⟩ := htold c hc svc s w
  exact ⟨hsystem (by decide), hnumber, hhash⟩

end Newcomer

end RealmLogon
