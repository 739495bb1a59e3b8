import Mathlib.Tactic.Common
import RealmLogon.Config.Decode

/-! What holds of every configuration that is accepted. -/

namespace RealmLogon

namespace Section

theorem of_defaulted {α : Type} {s : Section} {place : Nat} {name : String} {read : Toml.Value → Option α}
    {default a : α} {p : α → Prop} (hread : ∀ v b, read v = some b → p b) (hdefault : p default)
    (h : s.defaulted place name read default = some a) : p a := by
  unfold defaulted at h
  split at h
  · cases h
    exact hdefault
  · exact hread _ a h

end Section

namespace Config

variable {text : String} {c : Config}

/-- An accepted configuration is read from a document, and meets the conditions. -/
theorem parse_eq_ok (h : parse text = .ok c) :
    (∃ fields, Toml.parse text = some fields ∧ ofFields fields = some c) ∧ c.validate = .ok () := by
  unfold parse at h
  cases hd : (Toml.parse text).bind ofFields with
  | none =>
    rw [hd] at h
    cases h
  | some d =>
    rw [hd] at h
    cases hv : d.validate with
    | error e =>
      simp only [hv, bind, Except.bind] at h
      cases h
    | ok u =>
      simp only [hv, bind, Except.bind, pure, Except.pure, Except.ok.injEq] at h
      subst h
      exact ⟨Option.bind_eq_some_iff.mp hd, hv⟩

theorem require_eq_ok {condition : Bool} {e : ConfigError} :
    require condition e = .ok () ↔ condition = true := by
  cases condition <;> simp [require]

theorem check_bind_eq_ok {check : Except ConfigError Unit} {next : Unit → Except ConfigError Unit} :
    (check >>= next) = .ok () ↔ check = .ok () ∧ next () = .ok () := by
  cases check <;> simp [bind, Except.bind]

theorem validate_eq_ok : c.validate = .ok () ↔
    (c.builds.pre.isEmpty = false ∧ c.builds.post.isEmpty = false) ∧ c.builds.pre.overlaps c.builds.post = false ∧
    checkMasterKey c.masterKey = .ok () ∧ (c.maxWrongPasswords = 0 ∨ c.banTime ≠ 0) ∧
    (c.shortTimeout ≠ 0 ∧ c.longTimeout ≠ 0) ∧ c.refreshInterval ≠ 0 ∧ checkHashes c.builds.builds = .ok () := by
  simp only [validate, check_bind_eq_ok, require_eq_ok, Bool.and_eq_true, Bool.or_eq_true, Bool.not_eq_true',
    beq_iff_eq, bne_iff_ne]

theorem natural_lt {bound n : Nat} {v : Toml.Value} (h : natural bound v = some n) : n < bound := by
  unfold natural at h
  split at h
  · split at h
    · cases h
      omega
    · cases h
  · cases h

theorem banTime_lt_of_ofFields {fields : Toml.Fields} (h : ofFields fields = some c) :
    c.banTime < 0x8000000000000000 := by
  unfold ofFields at h
  -- eight sections, and the settings that come before the time
  iterate 15 obtain ⟨_, -, h⟩ := Option.bind_eq_some_iff.mp h
  obtain ⟨banTime, hb, h⟩ := Option.bind_eq_some_iff.mp h
  have hlt : banTime < 0x8000000000000000 :=
    Section.of_defaulted (p := (· < 0x8000000000000000)) (fun _ _ => natural_lt) (by decide) hb
  iterate 7 obtain ⟨_, -, h⟩ := Option.bind_eq_some_iff.mp h
  cases h
  exact hlt

/-- The time of a ban is positive, if there are bans at all, and one that a document can hold. -/
theorem banTime_of_parse (h : parse text = .ok c) (hc : 0 < c.maxWrongPasswords) :
    1 ≤ c.banTime ∧ c.banTime < 0x8000000000000000 := by
  obtain ⟨⟨fields, -, hf⟩, hv⟩ := parse_eq_ok h
  refine ⟨?_, banTime_lt_of_ofFields hf⟩
  rcases (validate_eq_ok.mp hv).2.2.2.1 with h0 | hb
  · omega
  · omega

end Config

end RealmLogon
