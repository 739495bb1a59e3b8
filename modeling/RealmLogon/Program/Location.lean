import RealmLogon.Bytes.Octets
import RealmLogon.Text.Hex
import RealmLogon.Text.Pieces

/-! Where a database is: a path, or a URI with the scheme `file`, whose query tells how to open it. A
database in memory or in a file without a name is gone when it is closed. -/

namespace RealmLogon

inductive Access where
  | reading
  | writing
  /-- Writing, and making it if it is not there. -/
  | creating
  | inMemory
  deriving DecidableEq, Repr

structure Location where
  path : String
  access : Access
  /-- Nobody changes the file, not even who opened it. -/
  immutable : Bool
  deriving DecidableEq, Repr

namespace Location

open Text

def isTransient (l : Location) : Bool := l.access == .inMemory || l.path == "" || l.path == ":memory:"

/-- Bytes with their escapes, a percent sign and two hexadecimal digits, resolved. They end at a zero byte. -/
def unescape : Bytes → Bytes
  | [] => []
  | 0x25 :: a :: b :: rest =>
    match Hex.digit? a, Hex.digit? b with
    | some high, some low => if high = 0 ∧ low = 0 then [] else (16 * high + low) :: unescape rest
    | _, _ => 0x25 :: unescape (a :: b :: rest)
  | b :: rest => b :: unescape rest

/-- A part of a URI without its escapes. Bytes that are no text are shown by their digits. -/
def part (cs : List Char) : String :=
  let b := unescape (Bytes.ofString (String.ofList cs))
  b.toString?.getD (Hex.encode b)

def cut (sign : Char) (cs : List Char) : List Char × List Char :=
  (cs.takeWhile (· ≠ sign), (cs.dropWhile (· ≠ sign)).drop 1)

/-- The names and values of a query; a name that is empty counts as none. -/
def options (query : List Char) : List (String × String) :=
  ((pieces '&' query).map fun o => let (name, value) := cut '=' o; (part name, part value)).filter (·.1 != "")

def access? : String → Option Access
  | "ro" => some .reading
  | "rw" => some .writing
  | "rwc" => some .creating
  | "memory" => some .inMemory
  | _ => none

/-- A later access mode may not allow more than an earlier one, unless that was the one in memory. -/
def allows : Access → Access → Bool
  | .inMemory, _ | .creating, _ | _, .inMemory | _, .reading => true
  | old, new => old == new

def fileSystems : List String := ["unix", "unix-none", "unix-dotfile", "unix-excl", "memdb"]

def isYes (value : String) : Bool :=
  match value.toList with
  | c :: cs =>
    if c.isDigit then ((c :: cs).takeWhile Char.isDigit).any (· ≠ '0')
    else ["yes", "true", "on"].contains (String.ofList ((c :: cs).map Char.toLower))
  | [] => false

def follow (l : Location) (option : String × String) : Option Location :=
  match option with
  | ("mode", value) => do
    let new ← access? value
    if allows l.access new then some { l with access := new } else none
  | ("cache", value) => if value = "shared" ∨ value = "private" then some l else none
  | _ => some l

def value? (options : List (String × String)) (name : String) : Option String :=
  (options.find? (·.1 == name)).map (·.2)

/-- The path behind the host, which must be this machine. -/
def withoutHost (cs : List Char) : Option (List Char) :=
  match cs with
  | '/' :: '/' :: rest =>
    let host := rest.takeWhile (· ≠ '/')
    if host = [] ∨ host = "localhost".toList then some (rest.drop host.length) else none
  | _ => some cs

/-- A URI, from behind its scheme on. -/
def ofUri (cs : List Char) : Option Location := do
  let (name, query) := cut '?' (cut '#' (← withoutHost cs)).1
  let os := options query
  let l ← os.foldlM follow ⟨part name, .creating, (value? os "immutable").any isYes⟩
  match value? os.reverse "vfs" with
  | none => return l
  | some system =>
    if !fileSystems.contains system then none
    else return if system = "memdb" then { l with path := ":memory:" } else l

def parse (text : String) : Option Location :=
  if text.contains '\x00' then none
  else match text.toList with
    | 'f' :: 'i' :: 'l' :: 'e' :: ':' :: rest => ofUri rest
    | _ => some ⟨text, .creating, false⟩

end Location

end RealmLogon
