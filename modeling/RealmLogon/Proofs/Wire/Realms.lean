import RealmLogon.Proofs.Text.ZeroFree
import RealmLogon.Proofs.Wire.Shortage
import RealmLogon.Wire.RealmList

/-! A realm list is decoded to the entries that were sent, as far as the layout of the client's generation can
carry them; and until all of it has come, the decoder asks for more. -/

namespace RealmLogon

open Reader

namespace RealmEntry

/-- An entry as a client of a generation reads it. -/
def seen (e : Expansion) (r : RealmEntry) : RealmEntry :=
  if e = .post then r else { r with locked := false, id := 0, build := none }

/-- The texts of an entry have no zero byte; and where builds are sent, it names one if and only if its flags say
so. -/
structure IsPlain (e : Expansion) (r : RealmEntry) : Prop where
  name : Text.ZeroFree r.name
  address : Text.ZeroFree r.address
  build : e = .post → r.build.isSome = (r.flags &&& RealmFlag.specifyBuild != 0)

def encodeKind (e : Expansion) (r : RealmEntry) : Bytes :=
  if e = .post then [r.kind, if r.locked then 1 else 0] else [r.kind, 0, 0, 0]

def encodeVersion (e : Expansion) (r : RealmEntry) : Bytes :=
  if hasBuild e r.flags then encodeBuild (r.build.getD ⟨0, 0, 0, 0⟩) else []

theorem encode_eq (e : Expansion) (r : RealmEntry) :
    r.encode e = r.encodeKind e ++ ([r.flags] ++ ((Bytes.ofString r.name ++ [0]) ++
      ((Bytes.ofString r.address ++ [0]) ++ (LittleEndian.word32 r.population.bits ++ ([r.characters] ++
        ([r.timezone] ++ ([(r.seen e).id] ++ r.encodeVersion e))))))) := by
  have hid : (if e = .post then r.id else 0) = (r.seen e).id := by
    unfold seen
    split <;> rfl
  simp [encode, encodeKind, encodeVersion, hid]

theorem word32_toUInt32 (k : UInt8) : LittleEndian.word32 k.toUInt32 = [k, 0, 0, 0] := by
  have hk := k.toNat_lt
  have h1 : k.toNat / 256 = 0 := by omega
  simp [LittleEndian.word32, LittleEndian.digits, h1]

theorem takes_kind (e : Expansion) (r : RealmEntry) :
    Takes (readKind e) (r.encodeKind e) (r.kind, (r.seen e).locked) := by
  unfold readKind encodeKind seen
  by_cases he : e = .post
  · simp only [if_pos he]
    refine Takes.ensure ?_ (by simp)
    refine (takes_byte _).bind (d := [if r.locked then 1 else 0]) ?_
    refine (takes_byte _).map fun rest => ?_
    cases r.locked <;> rfl
  · simp only [if_neg he]
    refine Takes.ensure ?_ (by simp)
    rw [← word32_toUInt32]
    refine (takes_word32 _).map fun rest => ?_
    have hk : r.kind.toUInt32.toUInt8 = r.kind := by simp
    rw [hk]
    rfl

theorem takes_build (v : BuildVersion) : Takes readBuild (encodeBuild v) v := by
  refine Takes.ensure ?_ (by simp [encodeBuild])
  refine (takes_byte _).bind ?_
  refine (takes_byte _).bind ?_
  refine (takes_byte _).bind ?_
  exact (takes_word16 _).map fun rest => rfl

/-- The build of an entry, which is there if the flags and the client's generation say so, at the end of a read. -/
theorem takes_version {α : Type} (e : Expansion) {r : RealmEntry} (h : r.IsPlain e)
    {k : Option BuildVersion → Reader α} {c : α} (hk : Takes (k (r.seen e).build) [] c) :
    Takes (if hasBuild e r.flags then some <$> readBuild >>= k else pure none >>= k) (r.encodeVersion e) c := by
  unfold encodeVersion
  unfold seen at hk
  by_cases he : e = .post
  · rw [if_pos he] at hk
    have hb : hasBuild e r.flags = r.build.isSome := by
      simp [hasBuild, he, h.build he]
    rw [hb]
    cases hr : r.build with
    | none =>
      rw [hr] at hk
      exact (takes_pure none).bind hk
    | some v =>
      rw [hr] at hk
      have hv : Takes (some <$> readBuild) (encodeBuild v) (some v) := by
        intro rest
        simp only [Functor.map, StateT.map, takes_build v rest]
        rfl
      exact hv.map hk
  · rw [if_neg he] at hk
    have hb : hasBuild e r.flags = false := by
      simp [hasBuild, he]
    rw [hb]
    exact (takes_pure none).bind hk

theorem takes_encode (e : Expansion) {r : RealmEntry} (h : r.IsPlain e) :
    Takes (RealmEntry.read e) (r.encode e) (r.seen e) := by
  rw [encode_eq]
  refine (takes_kind e r).bind ?_
  refine Takes.ensure ?_ (by simp)
  refine (takes_byte _).bind ?_
  refine (takes_zeroTerminated (Text.zero_notMem_ofString h.name)).bind ?_
  refine (takes_zeroTerminated (Text.zero_notMem_ofString h.address)).bind ?_
  refine Takes.ensure ?_ (by simp; omega)
  refine (takes_word32 _).bind ?_
  refine (takes_byte _).bind ?_
  refine (takes_byte _).bind ?_
  refine (takes_byte _).bind ?_
  refine takes_version e h fun rest => ?_
  unfold seen
  split <;> rfl

theorem length_encode_pos (e : Expansion) (r : RealmEntry) : 0 < (r.encode e).length := by
  rw [encode_eq]
  simp only [List.length_append, List.length_cons]
  omega

end RealmEntry

namespace RealmList

theorem fitting_isPrefix (e : Expansion) (room : Nat) (realms : List RealmEntry) :
    fitting e room realms <+: realms := by
  induction realms generalizing room with
  | nil => exact List.prefix_refl []
  | cons r rest ih =>
    simp only [fitting]
    split
    · exact List.cons_prefix_cons.mpr ⟨rfl, ih _⟩
    · exact List.nil_prefix

theorem length_fitting (e : Expansion) (room : Nat) (realms : List RealmEntry) :
    ((fitting e room realms).flatMap (·.encode e)).length ≤ room := by
  induction realms generalizing room with
  | nil => exact Nat.zero_le room
  | cons r rest ih =>
    simp only [fitting]
    split
    · have hr := ih (room - (r.encode e).length)
      rw [List.flatMap_cons, List.length_append]
      omega
    · exact Nat.zero_le room

theorem length_le_flatMap (e : Expansion) (realms : List RealmEntry) :
    realms.length ≤ (realms.flatMap (·.encode e)).length := by
  induction realms with
  | nil => exact Nat.le_refl 0
  | cons r rest ih =>
    have hr := r.length_encode_pos e
    rw [List.flatMap_cons, List.length_append, List.length_cons]
    omega

theorem takes_readEntries (e : Expansion) {realms : List RealmEntry} (h : ∀ r ∈ realms, r.IsPlain e) :
    Takes (readEntries e realms.length) (realms.flatMap (·.encode e)) (realms.map (·.seen e)) := by
  induction realms with
  | nil => exact takes_pure []
  | cons r rest ih =>
    have hr := h r List.mem_cons_self
    have hrest := ih fun x hx => h x (List.mem_cons_of_mem r hx)
    rw [List.flatMap_cons]
    refine (RealmEntry.takes_encode e hr).bind ?_
    exact hrest.map fun _ => rfl

def sent (e : Expansion) (realms : List RealmEntry) : List RealmEntry := fitting e (maxBody - emptyBody e) realms

def footer (e : Expansion) : Bytes := if e = .post then [0x10, 0x00] else [0x00, 0x02]

def encodeBody (e : Expansion) (realms : List RealmEntry) : Bytes :=
  LittleEndian.word32 0 ++ (LittleEndian.digits (if e = .post then 2 else 4) (sent e realms).length ++
    ((sent e realms).flatMap (·.encode e) ++ footer e))

theorem length_sent_le (e : Expansion) (realms : List RealmEntry) : (sent e realms).length ≤ maxBody - emptyBody e :=
  Nat.le_trans (length_le_flatMap e _) (length_fitting e _ realms)

theorem length_encodeBody (e : Expansion) (realms : List RealmEntry) : (encodeBody e realms).length ≤ maxBody := by
  have hf : ((sent e realms).flatMap (·.encode e)).length ≤ maxBody - emptyBody e := length_fitting e _ realms
  have hm : maxBody = 65535 := rfl
  simp only [encodeBody, footer, List.length_append, LittleEndian.length_word32, LittleEndian.length_digits]
  unfold emptyBody at hf
  split <;> rename_i he
  · rw [if_pos he] at hf
    simp only [List.length_cons, List.length_nil]
    omega
  · rw [if_neg he] at hf
    simp only [List.length_cons, List.length_nil]
    omega

def declared (e : Expansion) (realms : List RealmEntry) : UInt16 := UInt16.ofNat (encodeBody e realms).length

theorem toNat_declared (e : Expansion) (realms : List RealmEntry) :
    (declared e realms).toNat = (encodeBody e realms).length := by
  have hl := length_encodeBody e realms
  have hm : maxBody = 65535 := rfl
  rw [declared, UInt16.toNat_ofNat']
  omega

theorem encode_eq (e : Expansion) (realms : List RealmEntry) :
    encode e realms = [Command.realmList.code] ++ (LittleEndian.word16 (declared e realms) ++ encodeBody e realms) := by
  rw [LittleEndian.word16, toNat_declared]
  simp [encode, encodeBody, sent, footer]

def countSize (e : Expansion) : Nat := if e = .post then 2 else 4

theorem takes_readCount {e : Expansion} {n : Nat} (h : n < Nat.pow 256 (countSize e)) :
    Takes (readCount e) (LittleEndian.digits (countSize e) n) n := by
  unfold readCount
  unfold countSize at h ⊢
  by_cases he : e = .post
  · rw [if_pos he] at h
    have hn : (UInt16.ofNat n).toNat = n := by
      rw [UInt16.toNat_ofNat']
      exact Nat.mod_eq_of_lt h
    have hw : LittleEndian.digits 2 n = LittleEndian.word16 (UInt16.ofNat n) := by
      rw [LittleEndian.word16, hn]
    simp only [if_pos he, hw]
    refine Takes.ensure ?_ (by simp)
    refine (takes_word16 _).map fun rest => ?_
    rw [hn]
    rfl
  · rw [if_neg he] at h
    have hn : (UInt32.ofNat n).toNat = n := by
      rw [UInt32.toNat_ofNat']
      exact Nat.mod_eq_of_lt h
    have hw : LittleEndian.digits 4 n = LittleEndian.word32 (UInt32.ofNat n) := by
      rw [LittleEndian.word32, hn]
    simp only [if_neg he, hw]
    refine Takes.ensure ?_ (by simp)
    refine (takes_word32 _).map fun rest => ?_
    rw [hn]
    rfl

theorem length_sent_lt (e : Expansion) (realms : List RealmEntry) :
    (sent e realms).length < Nat.pow 256 (countSize e) := by
  have hl := length_sent_le e realms
  have hm : maxBody = 65535 := rfl
  unfold countSize
  split
  · exact (show _ < 65536 by omega)
  · exact (show _ < 4294967296 by omega)

theorem readBody_encodeBody (e : Expansion) {realms : List RealmEntry} (h : ∀ r ∈ realms, r.IsPlain e) :
    Reader.decode (readBody e) (encodeBody e realms) = .ok ((sent e realms).map (·.seen e)) := by
  have hs : ∀ r ∈ sent e realms, r.IsPlain e := fun r hr => h r ((fitting_isPrefix e _ realms).subset hr)
  have hb : 4 ≤ (encodeBody e realms).length := by simp [encodeBody]
  have hf : 2 ≤ (footer e).length := by
    unfold footer
    split <;> exact Nat.le_refl 2
  have hr : readBody e (encodeBody e realms) = .ok ((sent e realms).map (·.seen e), footer e) := by
    rw [readBody, ensure_apply hb, encodeBody]
    -- The footer is guarded and not read, so the last guard does not belong to a field.
    refine ((takes_skip (LittleEndian.word32 0)).apply _ _).trans ?_
    refine ((takes_readCount (length_sent_lt e realms)).apply _ _).trans ?_
    rw [(takes_readEntries e hs).apply, ensure_apply hf]
    rfl
  rw [Reader.decode, StateT.run, hr]
  rfl

theorem takes_encode (e : Expansion) {realms : List RealmEntry} (h : ∀ r ∈ realms, r.IsPlain e) :
    Takes (read e) (encode e realms) ((sent e realms).map (·.seen e)) := by
  have hb := readBody_encodeBody e h
  rw [encode_eq]
  refine (takes_command _).bind ?_
  refine Takes.ensure ?_ (by simp)
  refine (takes_word16 _).bind ?_
  rw [toNat_declared]
  refine (takes_field ⟨encodeBody e realms, rfl⟩).map fun rest => ?_
  simp only [hb]
  rfl

theorem decode_encode (e : Expansion) {realms : List RealmEntry} (h : ∀ r ∈ realms, r.IsPlain e) :
    decode (encode e realms) e = .ok ((sent e realms).map (·.seen e)) := (takes_encode e h).decode

/-- A reply declares its size, so its decoder knows that bytes are missing whatever the layout of the body is. -/
theorem awaits_encode (e e' : Expansion) (realms : List RealmEntry) : Awaits (read e') (encode e realms) := by
  rw [encode_eq]
  refine Awaits.bind (takes_command _) (awaits_command _) ?_
  refine Awaits.guard (LittleEndian.length_word16 _) (takes_word16 _) ?_
  rw [toNat_declared]
  exact (awaits_field ⟨encodeBody e realms, rfl⟩).first _

theorem decode_take (e e' : Expansion) (realms : List RealmEntry) {n : Nat} (h : n < (encode e realms).length) :
    Lacks (decode ((encode e realms).take n) e') := (awaits_encode e e' realms).decode_take h

end RealmList

end RealmLogon
