import RealmLogon.Directory.Store
import RealmLogon.Program.Location
import RealmLogon.Program.Path

/-! The files around a program: directories, text files and login databases, each by its names from the
root on. -/

namespace RealmLogon

structure Site where
  /-- The directory that the program runs in. -/
  home : List String
  /-- Directories other than the home and those around it. -/
  directories : List (List String)
  texts : List (List String × String)
  databases : List (List String × Store)

inductive FileContent where
  | text (t : String)
  | database (store : Store)

structure OpenDatabase where
  store : Store
  /-- Where it is kept, if it is kept. -/
  file : Option (List String)
  writable : Bool

namespace Site

open RealmLogon.Path

def commonDirectories : List (List String) :=
  ["bin", "boot", "dev", "etc", "home", "lib", "media", "mnt", "opt", "proc", "root", "run", "sbin", "srv", "sys",
    "tmp", "usr", "var"].map ([·])

/-- The file that is always empty. -/
def nullDevice : List String := ["dev", "null"]

/-- Text files in a directory of their own, on a machine where there is nothing else. -/
def ofTexts (texts : List (String × String)) : Site :=
  let home := ["tmp", "site"]
  ⟨home, commonDirectories, (nullDevice, "") :: texts.map fun (name, text) => (home ++ [name], text), []⟩

def isDirectory (s : Site) (names : List String) : Bool :=
  names.isPrefixOf s.home || s.directories.contains names

def content? (s : Site) (file : List String) : Option FileContent :=
  match s.databases.find? (·.1 == file) with
  | some (_, store) => some (.database store)
  | none => (s.texts.find? (·.1 == file)).map fun (_, text) => .text text

/-- Follow names from a directory, step by step, to a file. The last name need not be there. -/
def follow (s : Site) (base : List String) : List String → Except PathError (List String)
  | [] => .error .directory
  | name :: rest =>
    if nameLimit < name.utf8ByteSize then .error .tooLong
    else
      let next := go base name
      if s.isDirectory next then follow s next rest
      else if rest = [] then .ok next
      else if (s.content? next).isSome then .error .notDirectory else .error .missing

def read (s : Site) (path : String) : Except PathError FileContent := do
  if path.contains '\x00' then throw .zeroByte
  if lengthLimit ≤ path.utf8ByteSize then throw .tooLong
  if path = "" then throw .missing
  match s.content? (← s.follow (origin s.home path) (names path)) with
  | some content => return content
  | none => throw .missing

def descend (s : Site) (base : List String) (name : String) : Option (List String) :=
  let next := go base name
  if nameLimit < name.utf8ByteSize ∨ (base.isPrefixOf next ∧ base ≠ next ∧ (s.content? base).isSome) then none
  else some next

/-- The ending of the file that a database keeps beside its own while it changes. -/
def journalEnding : String := "-journal"

def databasePathLimit : Nat := 512

/-- The file that a path of a database means. Two points take back the name before them even if that is
not there, and slashes at the end do not count. -/
def databaseFile? (s : Site) (path : String) : Option (List String) := do
  let file ← (names path).foldlM s.descend (origin s.home path)
  let fits := (text file ++ journalEnding).utf8ByteSize ≤ databasePathLimit
  if fits && !s.isDirectory file && s.isDirectory file.dropLast &&
      ((file.getLast?.getD "") ++ journalEnding).utf8ByteSize ≤ nameLimit then some file
  else none

/-- The database in a file; an empty file is one, too. -/
def database? (s : Site) (file : List String) : Option Store :=
  match s.content? file with
  | some (.database store) => some store
  | some (.text "") => some .empty
  | _ => none

def keep (s : Site) (file : List String) (store : Store) : Site :=
  { s with databases := (s.databases.filter (·.1 != file)) ++ [(file, store)] }

/-- Open the database in a file. One that has no tables gets them at once. -/
def openFile (s : Site) (l : Location) (file : List String) : Option OpenDatabase × Site :=
  let writes := (l.access == .writing || l.access == .creating) && !l.immutable
  let new := (some ⟨.empty, some file, true⟩, s.keep file .empty)
  match s.content? file with
  | some (.database store) => (some ⟨store, some file, writes⟩, s)
  | some (.text text) => if text = "" && writes && file != nullDevice then new else (none, s)
  | none =>
    if l.access != .creating then (none, s)
    else if writes then new else (none, { s with texts := s.texts ++ [(file, "")] })

def openDatabase (s : Site) (path : String) : Option OpenDatabase × Site :=
  match Location.parse path with
  | none => (none, s)
  | some l =>
    if l.isTransient then (if l.access == .reading then none else some ⟨.empty, none, true⟩, s)
    else
      match s.databaseFile? l.path with
      | some file => s.openFile l file
      | none => (none, s)

def saveDatabase (s : Site) (d : OpenDatabase) (store : Store) : Site :=
  match d.file with
  | some file => if d.writable then s.keep file store else s
  | none => s

end Site

end RealmLogon
