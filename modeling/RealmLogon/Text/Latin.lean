/-! Upper case for Latin letters only. A login is kept and hashed in this form, so it must not
depend on where the mapping is applied: `upper` maps the two Latin blocks letter by letter and leaves
every other character, and every letter without a one-letter capital, as it is. -/

namespace RealmLogon.Text.Latin

/-- Basic Latin to Latin Extended-B, and Latin Extended Additional. -/
def isLatin (c : Char) : Bool :=
  c.val.toNat ≤ 0x24F || (0x1E00 ≤ c.val.toNat && c.val.toNat ≤ 0x1EFF)

/-- Letters `first`, `first + stride`, …, `last` whose capitals all lie at the same distance. -/
structure Run where
  first : Nat
  last : Nat
  stride : Nat
  distance : Int

/-- The Latin letters that have a capital of one letter. -/
def runs : List Run := [
  ⟨0x0061, 0x007A, 1, -32⟩, ⟨0x00B5, 0x00B5, 1, 743⟩, ⟨0x00E0, 0x00F6, 1, -32⟩, ⟨0x00F8, 0x00FE, 1, -32⟩,
  ⟨0x00FF, 0x00FF, 1, 121⟩, ⟨0x0101, 0x012F, 2, -1⟩, ⟨0x0131, 0x0131, 1, -232⟩, ⟨0x0133, 0x0137, 2, -1⟩,
  ⟨0x013A, 0x0148, 2, -1⟩, ⟨0x014B, 0x0177, 2, -1⟩, ⟨0x017A, 0x017E, 2, -1⟩, ⟨0x017F, 0x017F, 1, -300⟩,
  ⟨0x0180, 0x0180, 1, 195⟩, ⟨0x0183, 0x0185, 2, -1⟩, ⟨0x0188, 0x0188, 1, -1⟩, ⟨0x018C, 0x018C, 1, -1⟩,
  ⟨0x0192, 0x0192, 1, -1⟩, ⟨0x0195, 0x0195, 1, 97⟩, ⟨0x0199, 0x0199, 1, -1⟩, ⟨0x019A, 0x019A, 1, 163⟩,
  ⟨0x019B, 0x019B, 1, 42561⟩, ⟨0x019E, 0x019E, 1, 130⟩, ⟨0x01A1, 0x01A5, 2, -1⟩, ⟨0x01A8, 0x01A8, 1, -1⟩,
  ⟨0x01AD, 0x01AD, 1, -1⟩, ⟨0x01B0, 0x01B0, 1, -1⟩, ⟨0x01B4, 0x01B6, 2, -1⟩, ⟨0x01B9, 0x01B9, 1, -1⟩,
  ⟨0x01BD, 0x01BD, 1, -1⟩, ⟨0x01BF, 0x01BF, 1, 56⟩, ⟨0x01C5, 0x01C5, 1, -1⟩, ⟨0x01C6, 0x01C6, 1, -2⟩,
  ⟨0x01C8, 0x01C8, 1, -1⟩, ⟨0x01C9, 0x01C9, 1, -2⟩, ⟨0x01CB, 0x01CB, 1, -1⟩, ⟨0x01CC, 0x01CC, 1, -2⟩,
  ⟨0x01CE, 0x01DC, 2, -1⟩, ⟨0x01DD, 0x01DD, 1, -79⟩, ⟨0x01DF, 0x01EF, 2, -1⟩, ⟨0x01F2, 0x01F2, 1, -1⟩,
  ⟨0x01F3, 0x01F3, 1, -2⟩, ⟨0x01F5, 0x01F5, 1, -1⟩, ⟨0x01F9, 0x021F, 2, -1⟩, ⟨0x0223, 0x0233, 2, -1⟩,
  ⟨0x023C, 0x023C, 1, -1⟩, ⟨0x023F, 0x0240, 1, 10815⟩, ⟨0x0242, 0x0242, 1, -1⟩, ⟨0x0247, 0x024F, 2, -1⟩,
  ⟨0x1E01, 0x1E95, 2, -1⟩, ⟨0x1E9B, 0x1E9B, 1, -59⟩, ⟨0x1EA1, 0x1EFF, 2, -1⟩]

def Run.contains (r : Run) (v : Nat) : Bool := r.first ≤ v && v ≤ r.last && (v - r.first) % r.stride == 0

def capital (v : Nat) : Nat :=
  match runs.find? (·.contains v) with
  | some r => ((v : Int) + r.distance).toNat
  | none => v

/-- The letters of the two blocks whose capital is written with several letters. -/
def spelledOut : List (Nat × List Nat) := [
  (0x00DF, [0x0053, 0x0053]), (0x0149, [0x02BC, 0x004E]), (0x01F0, [0x004A, 0x030C]), (0x1E96, [0x0048, 0x0331]),
  (0x1E97, [0x0054, 0x0308]), (0x1E98, [0x0057, 0x030A]), (0x1E99, [0x0059, 0x030A]), (0x1E9A, [0x0041, 0x02BE])]

def capitals (v : Nat) : List Nat :=
  match spelledOut.lookup v with
  | some letters => letters
  | none => [capital v]

/-- The capital of a Latin letter, if it is one letter; every other character stays. -/
def upperChar (c : Char) : Char :=
  if isLatin c then
    match capitals c.val.toNat with
    | [v] => Char.ofNat v
    | _ => c
  else c

/-- A text with its Latin letters in upper case, character by character. -/
def upper (s : String) : String := s.map upperChar

end RealmLogon.Text.Latin
