import RealmLogon.Directory.Realms
import RealmLogon.Proofs.Net.AddressText
import RealmLogon.Proofs.Number.Widening

/-! The rows of realms. What is stored of a realm reads as this realm, and a row with a text that is no address reads as
none. The numbers of rows have 64 bits, and those of realms have 32: a row with a larger number cannot be read. -/

namespace RealmLogon

/-- A realm as it is listed: under the number of its row, and with a population of zero without a sign. -/
def Realm.listedAs (r : Realm) (id : UInt32) : Realm := { r with id := id, population := r.population.unsignedZero }

namespace RealmRow

def HasNumber (row : RealmRow) : Prop := 0 ≤ row.id ∧ row.id < UInt32.size

instance (row : RealmRow) : Decidable row.HasNumber := inferInstanceAs (Decidable (_ ∧ _))

/-- The columns of a row that are no texts can be read. -/
structure Legible (row : RealmRow) : Prop where
  id : row.HasNumber
  port : row.port.toUInt16?.isSome
  icon : row.icon.toUInt8?.isSome
  flag : row.flag.toUInt8?.isSome
  timezone : row.timezone.toUInt8?.isSome
  security : row.security.toUInt8?.isSome
  population : row.population.toDouble?.isSome
  build : row.build.toUInt16?.isSome

/-- One of the three addresses of a row is none. -/
def Unaddressed (row : RealmRow) : Prop :=
  Address.parse row.address = none ∨ Address.parse row.localAddress = none ∨ Address.parse row.mask = none

section

variable {row : RealmRow} {r : Realm} {id : Int}

theorem toUInt32?_id (h : row.HasNumber) : (Cell.integer row.id).toUInt32? = some (UInt32.ofInt row.id) := by
  have hn : 0 ≤ row.id ∧ row.id < UInt32.size := h
  have hm : row.id % 2 ^ 32 = row.id := Int.emod_eq_of_lt hn.1 hn.2
  rw [Cell.toUInt32?, Cell.toNat?, if_pos hn, Option.map_some, UInt32.ofInt, hm]

theorem ofInt_injective {m n : Int} (hm : 0 ≤ m ∧ m < UInt32.size) (hn : 0 ≤ n ∧ n < UInt32.size)
    (h : UInt32.ofInt m = UInt32.ofInt n) : m = n := by
  have hs : ((2 ^ 32 : Nat) : Int) = UInt32.size := rfl
  have hnat := congrArg UInt32.toNat h
  rw [UInt32.ofInt, UInt32.ofInt, UInt32.toNat_ofNat', UInt32.toNat_ofNat'] at hnat
  omega

theorem toRealm_eq {number : UInt32} {port build : UInt16} {kind flags timezone security : UInt8} {population : Double}
    (hid : (Cell.integer row.id).toUInt32? = some number) (hport : row.port.toUInt16? = some port)
    (hicon : row.icon.toUInt8? = some kind) (hflag : row.flag.toUInt8? = some flags)
    (htimezone : row.timezone.toUInt8? = some timezone) (hsecurity : row.security.toUInt8? = some security)
    (hpopulation : row.population.toDouble? = some population) (hbuild : row.build.toUInt16? = some build) :
    row.toRealm = .ok (do
      let external ← Address.parse row.address
      let localAddress ← Address.parse row.localAddress
      let mask ← Address.parse row.mask
      return ⟨number, row.name, external, localAddress, mask, port, kind, flags, timezone, security, population.narrow,
        build⟩) := by
  unfold toRealm
  simp only [hid, hport, hicon, hflag, htimezone, hsecurity, hpopulation, hbuild, AccountRow.column]
  rfl

theorem toRealm_of_unaddressed (h : row.Legible) (ha : row.Unaddressed) : row.toRealm = .ok none := by
  obtain ⟨port, hport⟩ := Option.isSome_iff_exists.mp h.port
  obtain ⟨icon, hicon⟩ := Option.isSome_iff_exists.mp h.icon
  obtain ⟨flag, hflag⟩ := Option.isSome_iff_exists.mp h.flag
  obtain ⟨timezone, htimezone⟩ := Option.isSome_iff_exists.mp h.timezone
  obtain ⟨security, hsecurity⟩ := Option.isSome_iff_exists.mp h.security
  obtain ⟨population, hpopulation⟩ := Option.isSome_iff_exists.mp h.population
  obtain ⟨build, hbuild⟩ := Option.isSome_iff_exists.mp h.build
  rw [toRealm_eq (toUInt32?_id h.id) hport hicon hflag htimezone hsecurity hpopulation hbuild]
  rcases ha with ha | ha | ha
  · simp [ha]
  · simp [ha]
  · simp [ha]

theorem population_ofRealm (h : r.population.isNaN = false) :
    (ofRealm id r).population = .real (if r.population.isZero then .zero else r.population.widen) := by
  have hd : (ofRealm id r).population = Cell.ofDouble r.population.widen := rfl
  rw [hd, Cell.ofDouble, Single.isNaN_widen h, Single.isZero_widen h, if_neg Bool.false_ne_true]
  split <;> rfl

theorem toRealm_ofRealm (hp : r.population.isNaN = false) (h : (ofRealm id r).HasNumber) :
    (ofRealm id r).toRealm = .ok (some (r.listedAs (UInt32.ofInt id))) := by
  have hpopulation : (ofRealm id r).population.toDouble? =
      some (if r.population.isZero then .zero else r.population.widen) := by
    rw [population_ofRealm hp]
    rfl
  have hexternal : Address.parse (ofRealm id r).address = some r.external := Address.parse_print r.external
  have hlocal : Address.parse (ofRealm id r).localAddress = some r.localAddress := Address.parse_print r.localAddress
  have hmask : Address.parse (ofRealm id r).mask = some r.mask := Address.parse_print r.mask
  rw [toRealm_eq (toUInt32?_id h) (Cell.toUInt16?_toNat r.port) (Cell.toUInt8?_toNat r.kind)
    (Cell.toUInt8?_toNat r.flags) (Cell.toUInt8?_toNat r.timezone) (Cell.toUInt8?_toNat r.security) hpopulation
    (Cell.toUInt16?_toNat r.build), hexternal, hlocal, hmask, Single.narrow_kept hp]
  rfl

def reading (row : RealmRow) : Option Realm := row.toRealm.toOption.join

theorem reading_of_unaddressed (h : row.Legible) (ha : row.Unaddressed) : row.reading = none := by
  rw [reading, toRealm_of_unaddressed h ha]
  rfl

theorem reading_ofRealm (hp : r.population.isNaN = false) (h : (ofRealm id r).HasNumber) :
    (ofRealm id r).reading = some (r.listedAs (UInt32.ofInt id)) := by
  rw [reading, toRealm_ofRealm hp h]
  rfl

theorem isHidden_ofRealm : (ofRealm id r).isHidden = decide (r.flags = 3) := by
  have hiff : (Cell.integer r.flags.toNat == .integer 3) = true ↔ r.flags = 3 := by
    rw [beq_iff_eq, Cell.integer.injEq, ← UInt8.toNat_inj]
    change (r.flags.toNat : Int) = 3 ↔ r.flags.toNat = 3
    omega
  exact Bool.eq_iff_iff.mpr (hiff.trans decide_eq_true_iff.symm)

theorem toRealm_of_not_hasNumber (h : ¬row.HasNumber) : row.toRealm = .error .database := by
  have hid : (Cell.integer row.id).toUInt32? = none := by
    have hn : ¬(0 ≤ row.id ∧ row.id < UInt32.size) := h
    simp only [Cell.toUInt32?, Cell.toNat?, if_neg hn, Option.map_none]
  unfold toRealm
  rw [hid]
  rfl

end

end RealmRow

end RealmLogon
