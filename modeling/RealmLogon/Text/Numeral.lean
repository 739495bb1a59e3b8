/-! Natural numbers as digits in a base up to 16. Reading takes letters of either case and any number
of leading zeros; writing uses lower case and none, and what was written reads back. -/

namespace RealmLogon.Text.Numeral

/-- The value of a digit or of a letter from `a` to `f`. -/
def digit? (c : Char) : Option Nat :=
  let v := c.val.toNat
  if 48 ≤ v ∧ v ≤ 57 then some (v - 48)
  else if 97 ≤ v ∧ v ≤ 102 then some (v - 87)
  else if 65 ≤ v ∧ v ≤ 70 then some (v - 55)
  else none

def isDigit (base : Nat) (c : Char) : Bool := (digit? c).any (· < base)

def value (base : Nat) (cs : List Char) : Nat :=
  cs.foldl (fun n c => base * n + (digit? c).getD 0) 0

/-- The number that a non-empty run of digits spells. -/
def parse (base : Nat) (cs : List Char) : Option Nat :=
  if cs ≠ [] ∧ cs.all (isDigit base) then some (value base cs) else none

/-- The digits of a number, without leading zeros. -/
def print (base n : Nat) : List Char := Nat.toDigits base n

theorem digit?_digitChar {n : Nat} (h : n < 16) : digit? n.digitChar = some n := by
  match n, h with
  | 0, _ | 1, _ | 2, _ | 3, _ | 4, _ | 5, _ | 6, _ | 7, _ | 8, _ | 9, _ | 10, _ | 11, _ | 12, _ | 13, _
  | 14, _ | 15, _ => rfl
  | n + 16, h => omega

theorem isDigit_digitChar {base n : Nat} (h : n < base) (hb : base ≤ 16) :
    isDigit base n.digitChar = true := by
  simp [isDigit, digit?_digitChar (Nat.lt_of_lt_of_le h hb), h]

theorem print_eq {base : Nat} (hb : 1 < base) (n : Nat) :
    print base n = if n < base then [n.digitChar] else print base (n / base) ++ [(n % base).digitChar] :=
  Nat.toDigits_eq_if hb

theorem print_ne_nil (base n : Nat) : print base n ≠ [] := Nat.toDigits_ne_nil

theorem all_isDigit_print {base : Nat} (h1 : 1 < base) (h2 : base ≤ 16) (n : Nat) :
    (print base n).all (isDigit base) = true := by
  induction n using Nat.strongRecOn with
  | _ n ih =>
    rw [print_eq h1]
    split
    · next h => simp [isDigit_digitChar h h2]
    · next h =>
      simp [ih (n / base) (Nat.div_lt_self (by omega) h1),
        isDigit_digitChar (Nat.mod_lt n (by omega)) h2]

theorem notMem_print {base : Nat} (h1 : 1 < base) (h2 : base ≤ 16) {c : Char} (hc : isDigit base c = false)
    (n : Nat) : c ∉ print base n := by
  intro h
  have hd := List.all_eq_true.mp (all_isDigit_print h1 h2 n) c h
  rw [hc] at hd
  cases hd

theorem value_append (base : Nat) (cs : List Char) (c : Char) :
    value base (cs ++ [c]) = base * value base cs + (digit? c).getD 0 := by
  simp [value, List.foldl_append]

@[simp] theorem value_print {base : Nat} (h1 : 1 < base) (h2 : base ≤ 16) (n : Nat) :
    value base (print base n) = n := by
  induction n using Nat.strongRecOn with
  | _ n ih =>
    rw [print_eq h1]
    split
    · next h => simp [value, digit?_digitChar (Nat.lt_of_lt_of_le h h2)]
    · next h =>
      have hm := Nat.mod_lt n (show base > 0 by omega)
      rw [value_append, ih (n / base) (Nat.div_lt_self (by omega) h1),
        digit?_digitChar (Nat.lt_of_lt_of_le hm h2)]
      exact Nat.div_add_mod n base

theorem parse_print {base : Nat} (h1 : 1 < base) (h2 : base ≤ 16) (n : Nat) :
    parse base (print base n) = some n := by
  rw [parse, if_pos ⟨print_ne_nil base n, all_isDigit_print h1 h2 n⟩, value_print h1 h2]

theorem length_print_le {base n k : Nat} (h1 : 1 < base) (hk : 0 < k) (h : n < Nat.pow base k) :
    (print base n).length ≤ k := (Nat.length_toDigits_le_iff h1 hk).mpr h

def decimal (n : Nat) : String := String.ofList (print 10 n)

/-- Decimal digits, perhaps after a plus sign, of a number below a bound. -/
def unsigned (bound : Nat) (cs : List Char) : Option Nat :=
  let digits := match cs with
    | '+' :: r => r
    | _ => cs
  (parse 10 digits).filter (· < bound)

def signed (cs : List Char) : Option Int :=
  match cs with
  | '-' :: r => (parse 10 r).map fun n => -(n : Int)
  | '+' :: r => (parse 10 r).map fun n => (n : Int)
  | _ => (parse 10 cs).map fun n => (n : Int)

end RealmLogon.Text.Numeral
