import RealmLogon.Toml.Number
import RealmLogon.Toml.Text

/-! A settings document: lines that open tables, and settings that go into the table opened last. A
value may hold values, down to a fixed depth. -/

namespace RealmLogon.Toml

/-- White space, line ends and comments between the items of an array. -/
def filler : Nat → Scan Unit
  | 0 => return ()
  | n + 1 => do
    Scan.blanks
    match ← Scan.optional (do discard <| Scan.optional Scan.comment; Scan.newline) with
    | some _ => filler n
    | none => return ()

/-- Items of an array up to its closing bracket; a comma may follow the last one. -/
def arrayRest (item : Scan Value) : Scan Value := fun cs =>
  let size := cs.length + 1
  let spaced : Scan Value := do
    filler size
    let v ← item
    filler size
    return v
  let rest : Scan Value := do
    let items ← Scan.optional (Scan.separated (Scan.char ',') spaced size)
    if items.isSome then discard <| Scan.optional (Scan.char ',')
    filler size
    Scan.char ']'
    return .array (items.getD [])
  rest cs

def innerSetting (item : Scan Value) : Scan (List String × Value) := do
  let path ← key
  Scan.char '='
  Scan.blanks
  let v ← item
  Scan.blanks
  return (path, v)

/-- Settings up to a closing brace, all on one line. -/
def tableRest (item : Scan Value) : Scan Value := fun cs =>
  let rest : Scan Value := do
    let settings ← Scan.optional (Scan.separated (Scan.char ',') (innerSetting item) (cs.length + 1))
    Scan.blanks
    Scan.char '\x7d'
    match Fields.addSettings [] (settings.getD []) with
    | some fields => return .table .braces fields
    | none => failure
  rest cs

def word (w : String) (v : Value) : Scan Value := do
  Scan.word w
  return v

def scalar : Scan Value :=
  (.string <$> string) <|> word "true" (.boolean true) <|> word "false" (.boolean false) <|> number

/-- A value with arrays and tables in it down to a depth. -/
def value : Nat → Scan Value
  | 0 => scalar
  | depth + 1 => fun cs =>
    match cs with
    | '[' :: r => arrayRest (value depth) r
    | '\x7b' :: r => tableRest (value depth) r
    | _ => scalar cs

inductive Statement where
  /-- `[a.b]` opens a table. -/
  | table (path : List String)
  /-- `[[a.b]]` opens one more table of a list. -/
  | item (path : List String)
  | setting (path : List String) (v : Value)

def itemHeader : Scan Statement := do
  Scan.word "[["
  let path ← key
  Scan.word "]]"
  Scan.lineRest
  return .item path

def tableHeader : Scan Statement := do
  Scan.char '['
  let path ← key
  Scan.char ']'
  Scan.lineRest
  return .table path

def setting : Scan Statement := do
  let path ← key
  Scan.char '='
  Scan.blanks
  let v ← value maxDepth
  Scan.lineRest
  return .setting path v

def line : Scan (List Statement) := fun cs =>
  match cs with
  | '#' :: _ | '\n' :: _ | '\r' :: _ => (do Scan.lineRest; return []) cs
  | '[' :: '[' :: _ => (do return [← itemHeader]) cs
  | '[' :: _ => (do return [← tableHeader]) cs
  | _ => (do return [← setting]) cs

def lines : Nat → Scan (List Statement)
  | 0 => do Scan.atEnd; return []
  | n + 1 => do
    Scan.blanks
    match ← Scan.optional Scan.atEnd with
    | some _ => return []
    | none => return (← line) ++ (← lines n)

def leading : List Statement → List (List String × Value) × List Statement
  | .setting path v :: r => let (s, t) := leading r; ((path, v) :: s, t)
  | r => ([], r)

theorem length_leading (l : List Statement) : (leading l).2.length ≤ l.length := by
  fun_induction leading l with
  | case1 path v r s t h ih => simp only [h] at ih; simp only [List.length_cons]; omega
  | case2 => exact Nat.le_refl _

def addSections (fields : Fields) (l : List Statement) : Option Fields :=
  match l with
  | [] => some fields
  | .setting path v :: r => (fields.addSetting path v).bind (addSections · r)
  | .table path :: r =>
    have := length_leading r
    (fields.addTable path (leading r).1).bind (addSections · (leading r).2)
  | .item path :: r =>
    have := length_leading r
    (fields.addItem path (leading r).1).bind (addSections · (leading r).2)
termination_by l.length
decreasing_by all_goals (simp_wf <;> omega)

/-- A byte order mark at the front is no part of the text. -/
def withoutMark : List Char → List Char
  | '\uFEFF' :: r => r
  | r => r

def parse (text : String) : Option Fields := do
  let cs := withoutMark text.toList
  let (statements, _) ← lines (cs.length + 1) cs
  addSections [] statements

end RealmLogon.Toml
