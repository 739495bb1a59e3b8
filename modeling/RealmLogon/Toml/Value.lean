/-! Values of a settings document. Nothing reads a real number or a moment in time out of a document,
so these two are kept without their value. A table remembers how it came to be, because that decides
what later lines may add to it. -/

namespace RealmLogon.Toml

/-- How a table came to be. -/
inductive Form where
  /-- Written between braces: nothing can be added. -/
  | braces
  /-- Opened by a header of its own. -/
  | header
  /-- Named by the header of a table within it. -/
  | implied
  /-- Named by a dotted key. -/
  | dotted
  deriving DecidableEq

inductive Value where
  | string (s : String)
  | integer (n : Int)
  | boolean (b : Bool)
  | real
  | moment
  | array (items : List Value)
  | table (form : Form) (fields : List (String × Value))
  /-- Tables that one header opens again and again. -/
  | tables (items : List (List (String × Value)))
  deriving Inhabited

abbrev Fields := List (String × Value)

namespace Fields

def get? (fields : Fields) (key : String) : Option Value := fields.lookup key

/-- Put a value under a key, in place of one that is there. -/
def put (fields : Fields) (key : String) (v : Value) : Fields :=
  if (fields.get? key).isSome then fields.map fun (k, w) => if k = key then (k, v) else (k, w)
  else fields ++ [(key, v)]

/-- Change the table at the end of a path, of which the change sees form and fields. Missing tables are
made. A dotted path goes only through tables that no header has opened; of tables that are opened again
and again it goes through the last. -/
def within (dotted : Bool) (change : Form → Fields → Option Fields) :
    List String → Form → Fields → Option Fields
  | [], form, fields => change form fields
  | key :: path, _, fields =>
    match fields.get? key with
    | none =>
      let form := if dotted then .dotted else .implied
      (within dotted change path form []).map fun inner => fields.put key (.table form inner)
    | some (.table form inner) =>
      if form = .braces ∨ (dotted ∧ form = .header) then none
      else (within dotted change path form inner).map fun inner => fields.put key (.table form inner)
    | some (.tables items) =>
      items.getLast?.bind fun inner =>
        (within dotted change path .header inner).map fun inner =>
          fields.put key (.tables (items.dropLast ++ [inner]))
    | some _ => none

/-- Add a setting under a new key; the table of a dotted key must come from dotted keys. -/
def addSetting (fields : Fields) (path : List String) (v : Value) : Option Fields := do
  let key ← path.getLast?
  let way := path.dropLast
  within true (fun form inner =>
    if decide (form = .dotted) == way.isEmpty then none
    else if (inner.get? key).isSome then none
    else some (inner ++ [(key, v)])) way .header fields

def addSettings (fields : Fields) (settings : List (List String × Value)) : Option Fields :=
  settings.foldlM (fun fields (path, v) => fields.addSetting path v) fields

/-- Open the table of a header and add its settings. The table may have been implied before. -/
def addTable (fields : Fields) (path : List String) (settings : List (List String × Value)) :
    Option Fields := do
  let key ← path.getLast?
  within false (fun _ inner => do
    let start ← match inner.get? key with
      | none => some []
      | some (.table .implied f) => some f
      | some _ => none
    return inner.put key (.table .header (← addSettings start settings))) path.dropLast .header fields

def addItem (fields : Fields) (path : List String) (settings : List (List String × Value)) :
    Option Fields := do
  let key ← path.getLast?
  within false (fun _ inner => do
    let items ← match inner.get? key with
      | none => some []
      | some (.tables items) => some items
      | some _ => none
    return inner.put key (.tables (items ++ [← addSettings [] settings]))) path.dropLast .header fields

end Fields

end RealmLogon.Toml
