import RealmLogon.CommandLine.Scan
import RealmLogon.Text.Pieces

/-! How a run of a program ends: what it has printed, and perhaps why it failed. A failure is told from
the outermost cause on; several inner causes are numbered. -/

namespace RealmLogon

inductive Status where
  | success
  | failure (causes : List String)
  /-- The command line is not allowed. -/
  | misuse
  deriving DecidableEq, Repr

structure Ending where
  /-- What has been printed, each text on a line of its own. -/
  printed : List String
  status : Status
  deriving DecidableEq, Repr

namespace Ending

open Text

def printing (lines : List String) : Ending := ⟨lines, .success⟩

def failing (causes : List String) : Ending := ⟨[], .failure causes⟩

def misuse : Ending := ⟨[], .misuse⟩

def code (e : Ending) : Nat :=
  match e.status with
  | .success => 0
  | .failure _ => 1
  | .misuse => 2

def indented (first rest text : String) : String :=
  first ++ String.ofList (joined '\n' (match pieces '\n' text.toList with
    | [] => []
    | line :: lines => line :: lines.map (rest.toList ++ ·)))

/-- The number of a cause, five places wide, and the cause. -/
def numbered (n : Nat) (text : String) : String :=
  let digits := Numeral.print 10 n
  indented (String.ofList (List.replicate (5 - digits.length) ' ' ++ digits) ++ ": ") "       " text

/-- The lines about inner causes; one of them alone has no number. -/
def inner : List String → List String
  | [] => []
  | [cause] => ["", "Caused by:", indented "    " "    " cause]
  | causes => "" :: "Caused by:" :: (causes.zipIdx.map fun (cause, n) => numbered n cause)

def complaint (e : Ending) : List String :=
  match e.status with
  | .failure (outermost :: causes) => ("Error: " ++ outermost) :: inner causes
  | _ => []

end Ending

/-- An explanation is no failure. -/
def CommandLine.Stop.ending : CommandLine.Stop → Ending
  | misuse => .misuse
  | explanation lines => .printing lines

end RealmLogon
