import RealmLogon.Hash.Hmac

/-! One-time passwords that change every 30 seconds. A token is accepted for the current step and for
one step either side, so that two clocks may differ by a step. -/

namespace RealmLogon.Token

/-- Length of a step in seconds. -/
def timeStep : Nat := 30

def typedDigits : Nat := 6

/-- Steps accepted before and after the current one. -/
def drift : Nat := 1

/-- The 31 bits of a digest that start at the byte its last four bits point to. -/
def truncate (d : Digest) : Nat :=
  let offset := (d.get ⟨19, by omega⟩ &&& 0x0F).toNat
  LittleEndian.value ((d.toList.drop offset).take 4).reverse % 0x80000000

/-- The token of a step. From ten digits on the power would not fit the program's 32 bits; it asks for six. -/
def generate (secret : Bytes) (step : Nat) (digits : Nat) : Nat :=
  truncate (Hmac.sha1 secret (LittleEndian.digits 8 step).reverse) % Nat.pow 10 digits

/-- The steps whose tokens are accepted at a time; before step `drift` there are fewer. -/
def acceptedSteps (time : Nat) : List Nat :=
  let step := time / timeStep
  List.range' (step - drift) (step + drift + 1 - (step - drift))

def validate (secret : Bytes) (token : Nat) (time : Nat) : Bool :=
  (acceptedSteps time).any fun step => generate secret step typedDigits == token

/-- The value of a run of ASCII digits. -/
def decimal (cs : Bytes) : Nat := cs.foldl (fun n c => 10 * n + (c.toNat - 48)) 0

/-- A typed token: one to eight ASCII digits. -/
def parse (text : String) : Option Nat :=
  let cs := Bytes.ofString text
  if cs = [] ∨ typedDigits + 2 < cs.length then none
  else if cs.all fun c => 48 ≤ c && c ≤ 57 then some (decimal cs)
  else none

def typed (token : Nat) : String :=
  let d := Nat.toDigits 10 token
  String.ofList (List.replicate (typedDigits - d.length) '0' ++ d)

end RealmLogon.Token
