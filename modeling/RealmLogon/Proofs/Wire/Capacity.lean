import RealmLogon.Proofs.Wire.Realms

/-! Realm lists that are too long for their size field. Of all entries the longest part at the front is sent whose
body the field can declare, and the client reads this part. -/

namespace RealmLogon.RealmList

open LittleEndian Text

/-- The body that carries these entries, of whatever size. -/
def body (e : Expansion) (realms : List RealmEntry) : Bytes :=
  word32 0 ++ (digits (countSize e) realms.length ++ (realms.flatMap (·.encode e) ++ footer e))

variable {e : Expansion} {realms front : List RealmEntry}

theorem length_body (e : Expansion) (realms : List RealmEntry) :
    (body e realms).length = emptyBody e + (realms.flatMap (·.encode e)).length := by
  simp only [body, countSize, emptyBody, footer, List.length_append, length_word32, length_digits]
  split
  · simp only [List.length_cons, List.length_nil]
    omega
  · simp only [List.length_cons, List.length_nil]
    omega

theorem isPrefix_fitting {room : Nat} (hp : front <+: realms)
    (hl : (front.flatMap (·.encode e)).length ≤ room) : front <+: fitting e room realms := by
  induction realms generalizing front room with
  | nil => exact hp
  | cons r rest ih =>
    cases front with
    | nil => exact List.nil_prefix
    | cons x front =>
      obtain ⟨rfl, hrest⟩ := List.cons_prefix_cons.mp hp
      rw [List.flatMap_cons, List.length_append] at hl
      have hx : (x.encode e).length ≤ room := by omega
      simp only [fitting, if_pos hx]
      exact List.cons_prefix_cons.mpr ⟨rfl, ih hrest (by omega)⟩

/-- The longest part at the front of a list whose body the size field can declare. -/
structure IsLongest (e : Expansion) (realms front : List RealmEntry) : Prop where
  isPrefix : front <+: realms
  fits : (body e front).length ≤ maxBody
  longest : ∀ other, other <+: realms → (body e other).length ≤ maxBody → other <+: front

theorem isLongest_sent (e : Expansion) (realms : List RealmEntry) : IsLongest e realms (sent e realms) where
  isPrefix := fitting_isPrefix e _ realms
  fits := length_encodeBody e realms
  longest := by
    intro other ho hl
    rw [length_body] at hl
    exact isPrefix_fitting ho (by omega)

theorem encode_fields (e : Expansion) (realms : List RealmEntry) :
    encode e realms = [Command.realmList.code] ++ (word16 (declared e realms) ++ (word32 0 ++
      (digits (countSize e) (sent e realms).length ++ ((sent e realms).flatMap (·.encode e) ++ footer e)))) :=
  encode_eq e realms

theorem length_encode (e : Expansion) (realms : List RealmEntry) :
    (encode e realms).length = 3 + (encodeBody e realms).length := by
  simp only [encode_eq, List.length_append, length_word16, List.length_singleton]
  omega

theorem value_size (e : Expansion) (realms : List RealmEntry) :
    value (((encode e realms).drop 1).take 2) = (encodeBody e realms).length := by
  have hf : ((encode e realms).drop 1).take 2 = word16 (declared e realms) := by
    rw [encode_eq]
    exact List.take_left' (length_word16 _)
  have hl := (declared e realms).toNat_lt
  rw [hf, word16, value_digits, ← toNat_declared]
  exact Nat.mod_eq_of_lt hl

theorem value_count (e : Expansion) (realms : List RealmEntry) :
    value (((encode e realms).drop 7).take (countSize e)) = (sent e realms).length := by
  have hf : ((encode e realms).drop 7).take (countSize e) = digits (countSize e) (sent e realms).length := by
    have hd : (encode e realms).drop 7 = digits (countSize e) (sent e realms).length ++
        ((sent e realms).flatMap (·.encode e) ++ footer e) := by
      rw [encode_fields, ← List.append_assoc, ← List.append_assoc]
      exact List.drop_left' (by simp)
    rw [hd]
    exact List.take_left' (length_digits _ _)
  rw [hf, value_digits]
  exact Nat.mod_eq_of_lt (length_sent_lt e realms)

/-- A reply declares its size and counts its entries, and it carries the longest part at the front of the list that
the size field allows. Whatever comes behind it, the client reads these entries as far as its layout has them; and
before all of the reply has come, the client asks for more. -/
theorem reply_carries_longest_part (e : Expansion) (realms : List RealmEntry) (h : ∀ r ∈ realms, r.IsPlain e) :
    value (((encode e realms).drop 1).take 2) = (encode e realms).length - 3 ∧
    (encode e realms).length - 3 ≤ 65535 ∧
    ∃ front, IsLongest e realms front ∧
      value (((encode e realms).drop 7).take (countSize e)) = front.length ∧
      (∀ more, decode (encode e realms ++ more) e = .ok (front.map (·.seen e))) ∧
      ∀ n, n < (encode e realms).length →
        ∃ needed got, decode ((encode e realms).take n) e = .error (.packetTooSmall needed got) := by
  have hlength := length_encode e realms
  refine ⟨?_, ?_, sent e realms, isLongest_sent e realms, value_count e realms, ?_, fun n hn => decode_take e e realms hn⟩
  · rw [value_size]
    omega
  · have hl := length_encodeBody e realms
    have hm : maxBody = 65535 := rfl
    omega
  · exact (takes_encode e h).decode_append

namespace Sample

def stormcrag : RealmEntry := ⟨1, false, 0, "Stormcrag", "10.0.0.1:8085", ⟨0x3F000000⟩, 2, 1, 1, none⟩

def ashfall : RealmEntry := ⟨0, true, 6, "Ashfall", "10.0.0.2:8085", ⟨0x3F800000⟩, 0, 8, 2, some ⟨3, 3, 5, 12340⟩⟩

/-- A realm whose name alone is longer than a body can be. -/
def giant : RealmEntry := { stormcrag with name := String.ofList (List.replicate 65536 'R') }

theorem isPlain_of_mem : ∀ r ∈ [stormcrag, ashfall, giant], r.IsPlain .post := by
  intro r hr
  simp only [List.mem_cons, List.not_mem_nil, or_false] at hr
  rcases hr with rfl | rfl | rfl
  · exact ⟨by decide, by decide, fun _ => rfl⟩
  · exact ⟨by decide, by decide, fun _ => rfl⟩
  · refine ⟨?_, by decide, fun _ => rfl⟩
    rw [ZeroFree, giant, String.toList_ofList, List.mem_replicate]
    exact fun h => absurd h.2 (by decide)

theorem length_giant : 65535 < (giant.encode .post).length := by
  have hn : (Bytes.ofString giant.name).length = 65536 := by
    have hc : (String.utf8EncodeChar 'R').length = 1 := rfl
    rw [giant, ofString_ofList, List.length_flatMap, List.map_replicate, hc, List.sum_replicate_nat]
  simp only [RealmEntry.encode_eq, List.length_append, hn]
  omega

/-- Of three realms a client reads the first two, because the third finds no room. -/
theorem reads_what_fits : decode (encode .post [stormcrag, ashfall, giant] ++ [1, 2, 3]) .post =
    .ok [stormcrag, ashfall] := by
  obtain ⟨-, -, front, hfront, -, hdecode, -⟩ :=
    reply_carries_longest_part .post [stormcrag, ashfall, giant] isPlain_of_mem
  obtain ⟨more, rfl⟩ := hfront.longest [stormcrag, ashfall] ⟨[giant], rfl⟩ (by decide)
  have hmore : more = [] := by
    obtain ⟨rest, hrest⟩ := hfront.isPrefix
    cases more with
    | nil => rfl
    | cons r more =>
      have hr : r = giant := (List.cons.inj (List.cons.inj (List.cons.inj hrest).2).2).1
      have hfits := hfront.fits
      have hlong := length_giant
      have hm : maxBody = 65535 := rfl
      simp only [length_body, hr, List.flatMap_append, List.flatMap_cons, List.length_append] at hfits
      omega
  rw [hdecode, hmore]
  rfl

end Sample

end RealmLogon.RealmList
