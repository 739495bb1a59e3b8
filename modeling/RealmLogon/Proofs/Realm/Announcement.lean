import RealmLogon.Proofs.Net.AddressText
import RealmLogon.Proofs.Text.ZeroFree
import RealmLogon.Proofs.Wire.Realms
import RealmLogon.Realm.Announcement

/-! What is announced of a realm can be sent as it is: an address is printed without a zero byte, a version adds
none to a name, and the flags of an entry tell whether it names a build. -/

namespace RealmLogon

open Text

namespace Text

theorem zeroFree_toString (n : Nat) : ZeroFree (toString n) := by
  have hn : (toString n).toList = Numeral.print 10 n := by
    simp [Numeral.print]
  rw [ZeroFree, hn]
  exact Numeral.notMem_print (by decide) (by decide) (by decide) n

theorem zeroFree_decimal (n : Nat) : ZeroFree (Numeral.decimal n) := by
  rw [ZeroFree, Numeral.decimal, String.toList_ofList]
  exact Numeral.notMem_print (by decide) (by decide) (by decide) n

end Text

namespace Address

theorem zero_notMem_dotted (bits : UInt32) : '\x00' ∉ dotted bits := notMem_dotted (by decide) (by decide) bits

theorem zero_notMem_hexGroups (g : List UInt16) : '\x00' ∉ hexGroups g := by
  refine notMem_joined (by decide) fun p hp => ?_
  obtain ⟨x, -, rfl⟩ := List.mem_map.mp hp
  exact Numeral.notMem_print (by decide) (by decide) (by decide) x.toNat

theorem zero_notMem_printGroups (g : Groups) : '\x00' ∉ printGroups g := by
  unfold printGroups
  split
  · have h : '\x00' ∉ "::ffff:".toList := by decide
    simp only [List.mem_append, not_or]
    exact ⟨h, zero_notMem_dotted _⟩
  · dsimp only
    split
    · exact zero_notMem_hexGroups _
    · have h : '\x00' ∉ "::".toList := by decide
      simp only [List.mem_append, not_or]
      exact ⟨⟨zero_notMem_hexGroups _, h⟩, zero_notMem_hexGroups _⟩

theorem zeroFree_print (a : Address) : ZeroFree a.print := by
  cases a with
  | v4 bits =>
    rw [ZeroFree, print, String.toList_ofList]
    exact zero_notMem_dotted bits
  | v6 g =>
    rw [ZeroFree, print, String.toList_ofList]
    exact zero_notMem_printGroups g

end Address

theorem Endpoint.zeroFree_print (e : Endpoint) : ZeroFree e.print := by
  have hc : ZeroFree ":" := by decide
  have hl : ZeroFree "[" := by decide
  have hr : ZeroFree "]:" := by decide
  unfold print
  split
  · exact zeroFree_append (zeroFree_append (Address.zeroFree_print _) hc) (zeroFree_decimal _)
  · exact zeroFree_append (zeroFree_append (zeroFree_append hl (Address.zeroFree_print _)) hr) (zeroFree_decimal _)

namespace Announcement

variable {table : BuildTable} {client : Audience} {counts : CharacterCounts}

theorem zeroFree_name {r : Realm} (h : ZeroFree r.name) (v : Option BuildVersion) : ZeroFree (name client r v) := by
  have h1 : ZeroFree " (" := by decide
  have h2 : ZeroFree "." := by decide
  have h3 : ZeroFree ")" := by decide
  unfold name
  split
  · split
    · refine zeroFree_append (zeroFree_append (zeroFree_append (zeroFree_append (zeroFree_append
        (zeroFree_append (zeroFree_append ?_ h1) ?_) h2) ?_) h2) ?_) h3
      · exact h
      · exact zeroFree_toString _
      · exact zeroFree_toString _
      · exact zeroFree_toString _
    · exact h
  · exact h

theorem isSome_version? (r : Realm) : (version? table (flags table client r) r.build).isSome =
    (flags table client r &&& RealmFlag.specifyBuild != 0) := by
  unfold version?
  by_cases hf : flags table client r &&& RealmFlag.specifyBuild = 0
  · rw [if_pos hf, hf]
    rfl
  · rw [if_neg hf, Option.isSome_map]
    have hi : (table.info? r.build).isSome = true := by
      refine Decidable.byContradiction fun hn => hf ?_
      have hz : ~~~RealmFlag.specifyBuild &&& RealmFlag.specifyBuild = 0 := by decide
      unfold flags
      dsimp only
      rw [if_neg hn, UInt8.and_assoc, hz, UInt8.and_zero]
    rw [hi]
    exact (bne_iff_ne.mpr hf).symm

theorem isPlain_entries (table : BuildTable) (client : Audience) (counts : CharacterCounts) {realms : List Realm}
    (h : ∀ r ∈ realms, ZeroFree r.name) (e : Expansion) : ∀ r ∈ entries table client counts realms, r.IsPlain e := by
  intro r hr
  obtain ⟨realm, hm, ha⟩ := List.mem_filterMap.mp hr
  unfold announce? at ha
  split at ha
  · cases ha
  · cases ha
    exact ⟨zeroFree_name (h realm hm) _, Endpoint.zeroFree_print _, fun _ => isSome_version? realm⟩

end Announcement

end RealmLogon
