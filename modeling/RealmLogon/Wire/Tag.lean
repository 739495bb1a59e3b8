import RealmLogon.Bytes.Octets

/-! Four-byte tags for platform, system and locale. They travel back to front, and a short name has
its zeros at the end. -/

namespace RealmLogon.Tag

/-- The name that a tag spells: back to front, without zeros, a character for each byte. -/
def name (tag : Octets 4) : String :=
  String.ofList ((tag.toList.reverse.filter (· != 0)).map fun b => Char.ofNat b.toNat)

/-- The tag of a name: its first four bytes, filled up with zeros, are put back to front, and the zeros that
have come to the front go round to the end. -/
def ofName (s : String) : Octets 4 :=
  let b := Bytes.ofString s
  let padding := 4 - min b.length 4
  let tag := (b.take 4 ++ List.replicate padding 0).reverse
  ⟨tag.drop padding ++ tag.take padding, by
    simp only [tag, padding, List.length_append, List.length_drop, List.length_take, List.length_reverse,
      List.length_replicate]
    omega⟩

end RealmLogon.Tag
