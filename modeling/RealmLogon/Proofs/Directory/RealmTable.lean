import Mathlib.Data.List.Perm.Basic
import RealmLogon.Proofs.Directory.RealmRows
import RealmLogon.Proofs.Directory.Registration
import RealmLogon.Proofs.Sequences

/-! The table of realms, filled step by step from nothing. What was added is listed again, by name and under the number
that the addition told, and rows without an address are passed over. All of this holds while numbers have 32 bits; a
listing fails as soon as there is a larger one on it. -/

namespace RealmLogon

/-- A realm is added, or a row is put into the table by hand. -/
inductive Filling where
  | add (r : Realm)
  | put (row : RealmRow)
  deriving DecidableEq

namespace Filling

def name : Filling → String
  | add r => r.name
  | put row => row.name

def realm? : Filling → Option Realm
  | add r => some r
  | put _ => none

/-- The population of an added realm is a number, and a row put in by hand is one without an address. -/
def Proper : Filling → Prop
  | add r => r.population.isNaN = false
  | put row => row.Legible ∧ row.Unaddressed

/-- The answer to an addition, and the store after the step. A row for which there is no place changes nothing. -/
def run (s : Store) : Filling → Option (Except DirectoryError UInt32) × Store
  | add r => (some (s.addRealm r).1, (s.addRealm r).2)
  | put row => (none, (s.addRealmRow row).getD s)

end Filling

namespace Store

def fill (s : Store) : List Filling → List (Except DirectoryError UInt32) × Store
  | [] => ([], s)
  | f :: steps =>
    let (answer, t) := f.run s
    let (answers, u) := t.fill steps
    (answer.toList ++ answers, u)

/-- A row has neither the name nor the number of another one. -/
def HasPlace (s : Store) (row : RealmRow) : Prop := ∀ r ∈ s.realms.rows, r.name ≠ row.name ∧ r.id ≠ row.id

instance (s : Store) (row : RealmRow) : Decidable (s.HasPlace row) :=
  inferInstanceAs (Decidable (∀ r ∈ s.realms.rows, _))

def withRealm (s : Store) (row : RealmRow) : Store := { s with realms := append s.realms row.id row }

@[simp] theorem rows_withRealm (s : Store) (row : RealmRow) :
    (s.withRealm row).realms.rows = s.realms.rows ++ [row] := rfl

@[simp] theorem last_withRealm (s : Store) (row : RealmRow) :
    (s.withRealm row).realms.last = max s.realms.last row.id := rfl

theorem addRealmRow_eq (s : Store) (row : RealmRow) :
    s.addRealmRow row = if s.HasPlace row then some (s.withRealm row) else none := by
  have hiff : (s.realms.rows.any fun r => r.name == row.name || r.id == row.id) = true ↔ ¬s.HasPlace row := by
    simp only [HasPlace, List.any_eq_true, Bool.or_eq_true, beq_iff_eq, not_forall, not_and_or, not_not, exists_prop]
  unfold addRealmRow
  by_cases h : s.HasPlace row
  · rw [if_pos h, if_neg (fun hany => hiff.mp hany h)]
    rfl
  · rw [if_neg h, if_pos (hiff.mpr h)]

/-- The row that an addition is about. -/
def nextRealm (s : Store) (r : Realm) : RealmRow := .ofRealm (s.realms.last + 1) r

@[simp] theorem id_nextRealm (s : Store) (r : Realm) : (s.nextRealm r).id = s.realms.last + 1 := rfl

theorem addRealm_eq (s : Store) {r : Realm} (hp : r.population.isNaN = false) :
    s.addRealm r =
      if s.realms.last < 0x7FFFFFFFFFFFFFFF ∧ s.HasPlace (s.nextRealm r) then
        (.ok (UInt32.ofInt (s.nextRealm r).id), s.withRealm (s.nextRealm r))
      else (.error .database, s) := by
  have hpresent : ∀ id, (RealmRow.ofRealm id r).population.present = some (RealmRow.ofRealm id r).population := by
    intro id
    rw [RealmRow.population_ofRealm hp]
    rfl
  have hadd := addRealmRow_eq s (s.nextRealm r)
  unfold nextRealm at hadd ⊢
  unfold addRealm nextNumber
  by_cases hlast : s.realms.last < 0x7FFFFFFFFFFFFFFF
  · by_cases hplace : s.HasPlace (.ofRealm (s.realms.last + 1) r)
    · rw [if_pos hplace] at hadd
      rw [if_pos hlast, if_pos ⟨hlast, hplace⟩]
      simp [hpresent, hadd]
    · rw [if_neg hplace] at hadd
      rw [if_pos hlast, if_neg (fun h => hplace h.2)]
      simp [hpresent, hadd]
  · rw [if_neg hlast, if_neg (fun h => hlast h.1)]
    rfl

end Store

inductive Effect (s : Store) : Filling → Option (Except DirectoryError UInt32) × Store → Prop
  | added {r : Realm} (hlast : s.realms.last < 0x7FFFFFFFFFFFFFFF) (hplace : s.HasPlace (s.nextRealm r)) :
      Effect s (.add r) (some (.ok (UInt32.ofInt (s.nextRealm r).id)), s.withRealm (s.nextRealm r))
  | refused {r : Realm} (h : ¬(s.realms.last < 0x7FFFFFFFFFFFFFFF ∧ s.HasPlace (s.nextRealm r))) :
      Effect s (.add r) (some (.error .database), s)
  | placed {row : RealmRow} (hplace : s.HasPlace row) : Effect s (.put row) (none, s.withRealm row)
  | kept (row : RealmRow) : Effect s (.put row) (none, s)

theorem effect_run {s : Store} {f : Filling} (h : f.Proper) : Effect s f (f.run s) := by
  cases f with
  | add r =>
    rw [Filling.run, Store.addRealm_eq s h]
    split
    · rename_i hr
      exact .added hr.1 hr.2
    · rename_i hr
      exact .refused hr
  | put row =>
    rw [Filling.run, Store.addRealmRow_eq]
    split
    · rename_i hplace
      exact .placed hplace
    · exact .kept row

/-- The rows of a table: the realms that were added, under ascending numbers, and rows without an address. -/
structure Filled (s : Store) (added : List (Int × Realm)) (others : List RealmRow) : Prop where
  rows : s.realms.rows.Perm (added.map (fun p => .ofRealm p.1 p.2) ++ others)
  numbers : ∀ p ∈ added, p.2.population.isNaN = false
  unaddressed : ∀ row ∈ others, row.Legible ∧ row.Unaddressed
  names : (s.realms.rows.map (·.name)).Nodup
  bounds : ∀ row ∈ s.realms.rows, 0 ≤ row.id ∧ row.id ≤ s.realms.last
  ascending : added.Pairwise (·.1 < ·.1)
  last : 0 ≤ s.realms.last

theorem filled_empty : Filled .empty [] [] where
  rows := .nil
  numbers := by simp
  unaddressed := by simp
  names := List.nodup_nil
  bounds := by simp [Store.empty, Numbered.empty]
  ascending := .nil
  last := Int.le_refl 0

namespace Filled

variable {s : Store} {added : List (Int × Realm)} {others : List RealmRow}

theorem names_withRealm {row : RealmRow} (h : Filled s added others) (hplace : s.HasPlace row) :
    ((s.withRealm row).realms.rows.map (·.name)).Nodup := by
  rw [Store.rows_withRealm, List.map_append, List.nodup_append]
  refine ⟨h.names, List.pairwise_singleton _ _, fun name hname other hother => ?_⟩
  obtain ⟨r, hr, rfl⟩ := List.mem_map.mp hname
  obtain rfl := List.mem_singleton.mp hother
  exact (hplace r hr).1

theorem bounds_withRealm {row : RealmRow} (h : Filled s added others) (hid : 0 ≤ row.id) :
    ∀ r ∈ (s.withRealm row).realms.rows, 0 ≤ r.id ∧ r.id ≤ (s.withRealm row).realms.last := by
  intro r hr
  rw [Store.last_withRealm]
  rcases List.mem_append.mp hr with hr | hr
  · have hb := h.bounds r hr
    omega
  · obtain rfl := List.mem_singleton.mp hr
    omega

theorem number_le {p : Int × Realm} (h : Filled s added others) (hp : p ∈ added) : 0 ≤ p.1 ∧ p.1 ≤ s.realms.last :=
  h.bounds (.ofRealm p.1 p.2) (h.rows.mem_iff.mpr (List.mem_append_left _ (List.mem_map_of_mem hp)))

theorem add {r : Realm} (h : Filled s added others) (hr : r.population.isNaN = false)
    (hplace : s.HasPlace (s.nextRealm r)) :
    Filled (s.withRealm (s.nextRealm r)) (added ++ [(s.realms.last + 1, r)]) others where
  rows := by
    have hadded : (added ++ [(s.realms.last + 1, r)]).map (fun p => RealmRow.ofRealm p.1 p.2) =
        added.map (fun p => .ofRealm p.1 p.2) ++ [s.nextRealm r] := by
      rw [List.map_append]
      rfl
    rw [Store.rows_withRealm, hadded, List.append_assoc]
    refine (h.rows.append_right _).trans ?_
    rw [List.append_assoc]
    exact List.perm_append_comm.append_left _
  numbers := by
    intro p hp
    rcases List.mem_append.mp hp with hp | hp
    · exact h.numbers p hp
    · obtain rfl := List.mem_singleton.mp hp
      exact hr
  unaddressed := h.unaddressed
  names := h.names_withRealm hplace
  bounds := h.bounds_withRealm (Int.le_add_one h.last)
  ascending := by
    refine List.pairwise_append.mpr ⟨h.ascending, List.pairwise_singleton _ _, fun p hp q hq => ?_⟩
    obtain rfl := List.mem_singleton.mp hq
    exact Int.lt_add_one_of_le (h.number_le hp).2
  last := Int.le_trans h.last (Int.le_max_left _ _)

theorem put {row : RealmRow} (h : Filled s added others) (hrow : row.Legible ∧ row.Unaddressed)
    (hplace : s.HasPlace row) : Filled (s.withRealm row) added (others ++ [row]) where
  rows := by
    rw [← List.append_assoc]
    exact h.rows.append_right _
  numbers := h.numbers
  unaddressed := by
    intro r hr
    rcases List.mem_append.mp hr with hr | hr
    · exact h.unaddressed r hr
    · obtain rfl := List.mem_singleton.mp hr
      exact hrow
  names := h.names_withRealm hplace
  bounds := h.bounds_withRealm hrow.1.id.1
  ascending := h.ascending
  last := Int.le_trans h.last (Int.le_max_left _ _)

/-- An addition under a free name succeeds as long as there are numbers. -/
theorem hasPlace_nextRealm {r : Realm} (h : Filled s added others) (hname : ∀ row ∈ s.realms.rows, row.name ≠ r.name) :
    s.HasPlace (s.nextRealm r) := by
  intro row hrow
  have hle := (h.bounds row hrow).2
  refine ⟨hname row hrow, ?_⟩
  rw [Store.id_nextRealm]
  omega

theorem run {f : Filling} (h : Filled s added others) (hf : f.Proper)
    (hname : ∀ row ∈ s.realms.rows, row.name ≠ f.name) :
    ∃ added' others', Filled (f.run s).2 (added ++ added') others' ∧
      ((f.run s).2.realms.last < 0x7FFFFFFFFFFFFFFF → added'.map (·.2) = f.realm?.toList ∧
        (f.run s).1.toList = added'.map fun p => .ok (UInt32.ofInt p.1)) := by
  have he := effect_run (s := s) hf
  generalize f.run s = result at he
  cases he with
  | added hlast hplace => exact ⟨_, others, h.add hf hplace, fun _ => ⟨rfl, rfl⟩⟩
  | refused hr =>
    refine ⟨[], others, by rwa [List.append_nil], fun hlast => ?_⟩
    exact absurd ⟨hlast, h.hasPlace_nextRealm hname⟩ hr
  | @placed row hplace =>
    refine ⟨[], others ++ [row], ?_, fun _ => ⟨rfl, rfl⟩⟩
    rw [List.append_nil]
    exact h.put hf hplace
  | kept row => exact ⟨[], others, by rwa [List.append_nil], fun _ => ⟨rfl, rfl⟩⟩

end Filled

section Run

variable {s : Store} {f : Filling} {steps : List Filling}

theorem last_le_run (hf : f.Proper) : s.realms.last ≤ (f.run s).2.realms.last := by
  have he := effect_run (s := s) hf
  generalize f.run s = result at he
  cases he with
  | added | placed => exact Int.le_max_left _ _
  | refused | kept => exact Int.le_refl _

theorem last_le_fill (hsteps : ∀ f ∈ steps, f.Proper) : s.realms.last ≤ (s.fill steps).2.realms.last := by
  induction steps generalizing s with
  | nil => exact Int.le_refl _
  | cons f steps ih =>
    exact Int.le_trans (last_le_run (hsteps f List.mem_cons_self)) (ih fun g hg => hsteps g (List.mem_cons_of_mem _ hg))

theorem last_run_le {bound : Int} (hf : f.Proper) (hlast : s.realms.last ≤ bound)
    (hbound : ∀ row, f = .put row → row.id ≤ bound) : (f.run s).2.realms.last ≤ bound + 1 := by
  have he := effect_run (s := s) hf
  generalize f.run s = result at he
  cases he with
  | added =>
    rw [Store.last_withRealm, Store.id_nextRealm]
    omega
  | @placed row =>
    have hrow := hbound row rfl
    rw [Store.last_withRealm]
    omega
  | refused | kept => exact Int.le_add_one hlast

theorem last_fill_le {bound : Int} (hsteps : ∀ f ∈ steps, f.Proper) (hlast : s.realms.last ≤ bound)
    (hbound : ∀ row, .put row ∈ steps → row.id ≤ bound) :
    (s.fill steps).2.realms.last ≤ bound + steps.length := by
  induction steps generalizing s bound with
  | nil =>
    rw [List.length_nil, Int.natCast_zero, Int.add_zero]
    exact hlast
  | cons f steps ih =>
    have hrun := last_run_le (hsteps f List.mem_cons_self) hlast
      fun row hrow => hbound row (hrow ▸ List.mem_cons_self)
    have hfill := ih (fun g hg => hsteps g (List.mem_cons_of_mem _ hg)) hrun
      fun row hrow => Int.le_add_one (hbound row (List.mem_cons_of_mem _ hrow))
    rw [List.length_cons]
    change ((f.run s).2.fill steps).2.realms.last ≤ _
    omega

theorem name_of_mem_run (hf : f.Proper) {row : RealmRow} (hrow : row ∈ (f.run s).2.realms.rows) :
    row ∈ s.realms.rows ∨ row.name = f.name := by
  have he := effect_run (s := s) hf
  generalize f.run s = result at he hrow
  cases he with
  | added | placed =>
    rcases List.mem_append.mp hrow with hrow | hrow
    · exact .inl hrow
    · rw [List.mem_singleton.mp hrow]
      exact .inr rfl
  | refused | kept => exact .inl hrow

end Run

namespace Filled

/-- All steps, each under a name of its own. The additions succeed as long as there are numbers. -/
theorem fill {steps : List Filling} {s : Store} {added : List (Int × Realm)} {others : List RealmRow}
    (h : Filled s added others) (hsteps : ∀ f ∈ steps, f.Proper) (hnames : (steps.map (·.name)).Nodup)
    (hfree : ∀ f ∈ steps, ∀ row ∈ s.realms.rows, row.name ≠ f.name) :
    ∃ added' others', Filled (s.fill steps).2 (added ++ added') others' ∧
      ((s.fill steps).2.realms.last < 0x7FFFFFFFFFFFFFFF → added'.map (·.2) = steps.filterMap (·.realm?) ∧
        (s.fill steps).1 = added'.map fun p => .ok (UInt32.ofInt p.1)) := by
  induction steps generalizing s added others with
  | nil => exact ⟨[], others, by rwa [List.append_nil], fun _ => ⟨rfl, rfl⟩⟩
  | cons f steps ih =>
    obtain ⟨hfirst, hrest⟩ := List.nodup_cons.mp hnames
    have hf := hsteps f List.mem_cons_self
    have hproper : ∀ g ∈ steps, g.Proper := fun g hg => hsteps g (List.mem_cons_of_mem _ hg)
    obtain ⟨added₁, others₁, h₁, hadded₁⟩ := h.run hf (hfree f List.mem_cons_self)
    have hfree₁ : ∀ g ∈ steps, ∀ row ∈ (f.run s).2.realms.rows, row.name ≠ g.name := by
      intro g hg row hrow hname
      rcases name_of_mem_run hf hrow with hold | hnew
      · exact hfree g (List.mem_cons_of_mem _ hg) row hold hname
      · exact hfirst (List.mem_map.mpr ⟨g, hg, hname.symm.trans hnew⟩)
    obtain ⟨added₂, others₂, h₂, hadded₂⟩ := ih h₁ hproper hrest hfree₁
    refine ⟨added₁ ++ added₂, others₂, by rwa [← List.append_assoc], fun hlast => ?_⟩
    obtain ⟨hr₂, ha₂⟩ := hadded₂ hlast
    obtain ⟨hr₁, ha₁⟩ := hadded₁ (Int.lt_of_le_of_lt (last_le_fill hproper) hlast)
    have hanswers : (s.fill (f :: steps)).1 = (f.run s).1.toList ++ ((f.run s).2.fill steps).1 := rfl
    refine ⟨?_, by rw [hanswers, ha₁, ha₂, List.map_append]⟩
    rw [List.map_append, hr₁, hr₂, List.filterMap_cons]
    cases f.realm? <;> rfl

end Filled

namespace Store

def listed (s : Store) : List RealmRow :=
  (s.realms.rows.filter (!·.isHidden)).mergeSort fun a b => byteOrder a.name b.name

theorem mem_listed {s : Store} {row : RealmRow} : row ∈ s.listed ↔ row ∈ s.realms.rows ∧ row.isHidden = false := by
  simp [listed]

theorem pairwise_listed (s : Store) :
    s.listed.Pairwise fun a b => Bytes.ofString a.name ≤ Bytes.ofString b.name := by
  have h := @List.pairwise_mergeSort _ (fun a b : RealmRow => byteOrder a.name b.name)
    (fun a b c hab hbc => decide_eq_true (List.le_trans (of_decide_eq_true hab) (of_decide_eq_true hbc)))
    (fun a b => by simpa [byteOrder] using List.le_total (Bytes.ofString a.name) (Bytes.ofString b.name))
    (s.realms.rows.filter (!·.isHidden))
  exact h.imp of_decide_eq_true

end Store

namespace Filled

variable {s : Store} {added : List (Int × Realm)} {others : List RealmRow}

theorem cases_of_mem {row : RealmRow} (h : Filled s added others) (hrow : row ∈ s.realms.rows) :
    (∃ p ∈ added, p.2.population.isNaN = false ∧ row = .ofRealm p.1 p.2) ∨ row.Legible ∧ row.Unaddressed := by
  rcases List.mem_append.mp (h.rows.mem_iff.mp hrow) with hrow | hrow
  · obtain ⟨p, hp, rfl⟩ := List.mem_map.mp hrow
    exact .inl ⟨p, hp, h.numbers p hp, rfl⟩
  · exact .inr (h.unaddressed row hrow)

theorem toRealm_eq_reading {row : RealmRow} (h : Filled s added others) (hrow : row ∈ s.realms.rows)
    (hnumber : row.HasNumber) : row.toRealm = .ok row.reading := by
  rcases h.cases_of_mem hrow with ⟨p, -, hp, rfl⟩ | ⟨hl, hu⟩
  · rw [RealmRow.toRealm_ofRealm hp hnumber, RealmRow.reading_ofRealm hp hnumber]
  · rw [RealmRow.toRealm_of_unaddressed hl hu, RealmRow.reading_of_unaddressed hl hu]

theorem name_of_reading {row : RealmRow} {r : Realm} (h : Filled s added others) (hrow : row ∈ s.realms.rows)
    (hnumber : row.HasNumber) (hr : row.reading = some r) : r.name = row.name := by
  rcases h.cases_of_mem hrow with ⟨p, -, hp, rfl⟩ | ⟨hl, hu⟩
  · rw [RealmRow.reading_ofRealm hp hnumber] at hr
    cases hr
    rfl
  · rw [RealmRow.reading_of_unaddressed hl hu] at hr
    cases hr

theorem listRealms_eq (h : Filled s added others) (hn : ∀ row ∈ s.listed, row.HasNumber) :
    s.listRealms = .ok (s.listed.filterMap RealmRow.reading) := by
  have hread : s.listed.mapM RealmRow.toRealm = .ok (s.listed.map RealmRow.reading) :=
    mapM_eq_ok_map fun row hrow => h.toRealm_eq_reading (Store.mem_listed.mp hrow).1 (hn row hrow)
  change (s.listed.mapM RealmRow.toRealm).map (·.filterMap id) = _
  rw [hread, Except.map, List.filterMap_map]
  rfl

theorem listRealms_eq_error (h : Filled s added others) (hn : ∃ row ∈ s.listed, ¬row.HasNumber) :
    s.listRealms = .error .database := by
  have hread : s.listed.mapM RealmRow.toRealm = .error .database := by
    refine mapM_eq_error (fun row hrow e he => ?_) ?_
    · by_cases hnumber : row.HasNumber
      · rw [h.toRealm_eq_reading (Store.mem_listed.mp hrow).1 hnumber] at he
        cases he
      · rw [RealmRow.toRealm_of_not_hasNumber hnumber] at he
        cases he
        rfl
    · obtain ⟨row, hrow, hnumber⟩ := hn
      exact ⟨row, hrow, RealmRow.toRealm_of_not_hasNumber hnumber⟩
  change (s.listed.mapM RealmRow.toRealm).map (·.filterMap id) = _
  rw [hread]
  rfl

theorem perm_reading (h : Filled s added others) (hn : ∀ row ∈ s.listed, row.HasNumber) :
    (s.listed.filterMap RealmRow.reading).Perm
      ((added.filter fun p => p.2.flags ≠ 3).map fun p => p.2.listedAs (UInt32.ofInt p.1)) := by
  have hlisted : s.listed.Perm (s.realms.rows.filter (!·.isHidden)) := List.mergeSort_perm _ _
  have hrows := hlisted.trans (h.rows.filter (!·.isHidden))
  have hothers : (others.filter (!·.isHidden)).filterMap RealmRow.reading = [] := by
    refine List.filterMap_eq_nil_iff.mpr fun row hrow => ?_
    obtain ⟨hl, hu⟩ := h.unaddressed row (List.mem_of_mem_filter hrow)
    exact RealmRow.reading_of_unaddressed hl hu
  have hhidden : (fun row : RealmRow => !row.isHidden) ∘ (fun p : Int × Realm => RealmRow.ofRealm p.1 p.2) =
      fun p => decide (p.2.flags ≠ 3) := by
    funext p
    rw [Function.comp_apply, RealmRow.isHidden_ofRealm, decide_not]
  have hadded : (added.filter fun p => p.2.flags ≠ 3).filterMap (RealmRow.reading ∘ fun p => .ofRealm p.1 p.2) =
      (added.filter fun p => p.2.flags ≠ 3).map fun p => p.2.listedAs (UInt32.ofInt p.1) := by
    rw [← List.filterMap_eq_map]
    refine List.filterMap_congr fun p hp => ?_
    have hmem : RealmRow.ofRealm p.1 p.2 ∈ s.listed := by
      refine hrows.mem_iff.mpr (List.mem_filter.mpr ⟨List.mem_append_left _ ?_, ?_⟩)
      · exact List.mem_map_of_mem (List.mem_of_mem_filter hp)
      · exact (congrFun hhidden p).trans (List.mem_filter.mp hp).2
    exact RealmRow.reading_ofRealm (h.numbers p (List.mem_of_mem_filter hp)) (hn _ hmem)
  have hread := hrows.filterMap RealmRow.reading
  rwa [List.filter_append, List.filterMap_append, hothers, List.append_nil, List.filter_map, hhidden,
    List.filterMap_map, hadded] at hread

/-- Names stand in ascending order, each once. -/
theorem pairwise_reading (h : Filled s added others) (hn : ∀ row ∈ s.listed, row.HasNumber) :
    (s.listed.filterMap RealmRow.reading).Pairwise fun a b => Bytes.ofString a.name < Bytes.ofString b.name := by
  have hlisted : s.listed.Perm (s.realms.rows.filter (!·.isHidden)) := List.mergeSort_perm _ _
  have hnames : (s.listed.map (·.name)).Nodup := by
    refine (hlisted.map _).nodup_iff.mpr ?_
    exact h.names.sublist (List.filter_sublist.map _)
  have hdistinct : s.listed.Pairwise fun a b => a.name ≠ b.name := List.pairwise_map.mp hnames
  refine List.pairwise_filterMap.mpr ((hdistinct.and s.pairwise_listed).imp_of_mem ?_)
  rintro a b ha hb ⟨hne, hle⟩ r hr t ht
  rw [h.name_of_reading (Store.mem_listed.mp ha).1 (hn a ha) hr,
    h.name_of_reading (Store.mem_listed.mp hb).1 (hn b hb) ht]
  exact Std.lt_of_le_of_ne hle fun heq => hne (Bytes.ofString_injective heq)

theorem hasNumber_iff {row : RealmRow} (h : Filled s added others) (hrow : row ∈ s.realms.rows) :
    row.HasNumber ↔ row.id < UInt32.size := and_iff_right (h.bounds row hrow).1

theorem hasNumber_of_last_lt (h : Filled s added others) (hlast : s.realms.last < UInt32.size) :
    ∀ row ∈ s.listed, row.HasNumber := by
  intro row hrow
  have hmem := (Store.mem_listed.mp hrow).1
  exact (h.hasNumber_iff hmem).mpr (Int.lt_of_le_of_lt (h.bounds row hmem).2 hlast)

theorem nodup_numbers (h : Filled s added others) (hlast : s.realms.last < UInt32.size) :
    (added.map fun p => UInt32.ofInt p.1).Nodup := by
  refine List.pairwise_map.mpr (h.ascending.imp_of_mem fun {p q} hp hq hlt heq => ?_)
  have hp := h.number_le hp
  have hq := h.number_le hq
  have hsame := RealmRow.ofInt_injective ⟨hp.1, by omega⟩ ⟨hq.1, by omega⟩ heq
  omega

theorem listRealms_eq_error_iff (h : Filled s added others) :
    s.listRealms = .error .database ↔ ∃ row ∈ s.realms.rows, row.isHidden = false ∧ UInt32.size ≤ row.id := by
  constructor
  · intro herror
    by_contra hnone
    have hn : ∀ row ∈ s.listed, row.HasNumber := by
      intro row hrow
      obtain ⟨hmem, hvisible⟩ := Store.mem_listed.mp hrow
      exact (h.hasNumber_iff hmem).mpr (Int.not_le.mp fun hle => hnone ⟨row, hmem, hvisible, hle⟩)
    rw [h.listRealms_eq hn] at herror
    cases herror
  · rintro ⟨row, hmem, hvisible, hle⟩
    refine h.listRealms_eq_error ⟨row, Store.mem_listed.mpr ⟨hmem, hvisible⟩, fun hn => ?_⟩
    exact Int.not_lt.mpr hle ((h.hasNumber_iff hmem).mp hn)

end Filled

/-- Realms are added to an empty table, and rows without an address are put there by hand, each under a name of its own.
While the highest number has 32 bits, all additions succeed under numbers that differ, and a listing gives each realm
that is not hidden once, under its number, by name; only the sign of a zero population is lost. The highest number grows
by at most one with each step from the highest that was put in by hand. A listing fails if and only if there is a larger
number on it. -/
theorem added_realms_listed (steps : List Filling) (hsteps : ∀ f ∈ steps, f.Proper)
    (hnames : (steps.map (·.name)).Nodup) :
    let (answers, s) := Store.empty.fill steps
    (s.realms.last < UInt32.size → ∃ added : List (UInt32 × Realm),
      answers = added.map (fun p => .ok p.1) ∧ added.map (·.2) = steps.filterMap (·.realm?) ∧
        (added.map (·.1)).Nodup ∧
        ∃ l, s.listRealms = .ok l ∧ l.Perm ((added.filter fun p => p.2.flags ≠ 3).map fun p => p.2.listedAs p.1) ∧
          l.Pairwise fun a b => Bytes.ofString a.name < Bytes.ofString b.name) ∧
    (∀ bound : Int, 0 ≤ bound → (∀ row, .put row ∈ steps → row.id ≤ bound) →
      s.realms.last ≤ bound + steps.length) ∧
    (s.listRealms = .error .database ↔
      ∃ row ∈ s.realms.rows, row.isHidden = false ∧ UInt32.size ≤ row.id) := by
  obtain ⟨added, others, h, hadded⟩ := filled_empty.fill hsteps hnames (by simp [Store.empty, Numbered.empty])
  rw [List.nil_append] at h
  refine ⟨fun hlast => ?_, fun bound hb hbound => last_fill_le hsteps hb hbound, h.listRealms_eq_error_iff⟩
  have hmax : (UInt32.size : Int) < 0x7FFFFFFFFFFFFFFF := by decide
  obtain ⟨hrealms, hanswers⟩ := hadded (Int.lt_trans hlast hmax)
  have hn := h.hasNumber_of_last_lt hlast
  refine ⟨added.map fun p => (UInt32.ofInt p.1, p.2), ?_, ?_, ?_, _, h.listRealms_eq hn, ?_, h.pairwise_reading hn⟩
  · rw [hanswers, List.map_map]
    rfl
  · rw [← hrealms, List.map_map]
    rfl
  · rw [List.map_map]
    exact h.nodup_numbers hlast
  · rw [List.filter_map, List.map_map]
    exact h.perm_reading hn

namespace Northrend

/-- A realm with a number that an addition does not look at. -/
def realm : Realm where
  id := 77
  name := "Icecrown"
  external := .v4 0xCB007107
  localAddress := .v4 0x7F000001
  mask := .v4 0xFFFFFF00
  port := 8085
  kind := 1
  flags := 0
  timezone := 8
  security := 0
  population := ⟨0x3F000000⟩
  build := 12340

def steps (id : Int) : List Filling := [.put { id := id, name := "Nowhere", address := "nowhere" }, .add realm]

theorem proper_steps {id : Int} (h : 0 ≤ id ∧ id < UInt32.size) : ∀ f ∈ steps id, f.Proper := by
  have hnone : Address.parse "nowhere" = none := by decide +kernel
  rintro f (_ | ⟨_, _ | ⟨_, ⟨⟩⟩⟩)
  · exact ⟨⟨h, rfl, rfl, rfl, rfl, rfl, rfl, rfl⟩, .inl hnone⟩
  · rfl

/-- Behind the row with the number 7 the realm is listed. Behind the highest number of 32 bits its addition succeeds as
well, but no listing does after that. -/
theorem lists_realm_behind_row :
    (∃ id, (Store.empty.fill (steps 7)).1 = [.ok id] ∧
      (Store.empty.fill (steps 7)).2.listRealms = .ok [realm.listedAs id]) ∧
    (Store.empty.fill (steps 4294967295)).1 = [.ok 0] ∧
      (Store.empty.fill (steps 4294967295)).2.listRealms = .error .database := by
  obtain ⟨hlisted, hbound, -⟩ := added_realms_listed (steps 7) (proper_steps (by decide)) (by decide)
  obtain ⟨-, -, herror⟩ := added_realms_listed (steps 4294967295) (proper_steps (by decide)) (by decide)
  have hlast : (Store.empty.fill (steps 7)).2.realms.last ≤ 7 + 2 := hbound 7 (by decide) (by simp [steps])
  obtain ⟨added, hanswers, hadded, -, l, hl, hperm, -⟩ := hlisted (Int.lt_of_le_of_lt hlast (by decide))
  obtain ⟨p, rfl, hp⟩ := List.map_eq_singleton_iff.mp hadded
  have hsingle : l = [realm.listedAs p.1] := by
    rw [List.filter_cons_of_pos (by rw [hp]; decide), List.filter_nil, List.map_singleton, hp] at hperm
    exact List.perm_singleton.mp hperm
  have hrows : (Store.empty.fill (steps 4294967295)).2.realms.rows =
      [{ id := 4294967295, name := "Nowhere", address := "nowhere" }, .ofRealm 4294967296 realm] := rfl
  refine ⟨⟨p.1, hanswers, hl.trans (congrArg Except.ok hsingle)⟩, rfl, herror.mpr ⟨.ofRealm 4294967296 realm, ?_⟩⟩
  exact ⟨hrows ▸ List.mem_cons_of_mem _ List.mem_cons_self, rfl, by decide⟩

end Northrend

end RealmLogon
