import RealmLogon.Bytes.LittleEndian
import RealmLogon.Directory.Columns
import RealmLogon.Text.Hex

/-! A login database as lines of text. Each row is a line: the name of its table, and then its columns
with their values, between tabulators. A value is a letter for its type and its digits. -/

namespace RealmLogon

open Text

namespace Cell

def decimal (n : Int) : List Char := (if n < 0 then ['-'] else []) ++ Numeral.print 10 n.natAbs

def toWord : Cell → List Char
  | null => ['n']
  | integer n => 'i' :: decimal n
  | real d => 'r' :: (Hex.encode (LittleEndian.word64 d.bits)).toList
  | text s => 't' :: (Hex.encode (Bytes.ofString s)).toList
  | blob b => 'b' :: (Hex.encode b).toList

def hexBytes? (cs : List Char) : Option Bytes := (Hex.pairs 0 (Bytes.ofString (String.ofList cs))).toOption

def ofWord? : List Char → Option Cell
  | ['n'] => some null
  | 'i' :: cs => (Numeral.signed cs).map integer
  | 'r' :: cs => (hexBytes? cs).map fun b => real ⟨UInt64.ofNat (LittleEndian.value b)⟩
  | 't' :: cs => ((hexBytes? cs).bind Bytes.toString?).map text
  | 'b' :: cs => (hexBytes? cs).map blob
  | _ => none

end Cell

namespace Columns

def toWord (column : String × Cell) : List Char := column.1.toList ++ '=' :: column.2.toWord

def ofWord? (cs : List Char) : Option (String × Cell) :=
  match pieces '=' cs with
  | [name, value] => (Cell.ofWord? value).map fun c => (String.ofList name, c)
  | _ => none

end Columns

namespace Store

def toLine (table : String) (row : Columns) : String :=
  String.ofList (joined '\t' (table.toList :: row.map Columns.toWord))

def toLines (s : Store) : List String := s.tables.flatMap fun (table, rows) => rows.map (toLine table)

def insertLine (s : Store) (line : String) : Option Store :=
  match pieces '\t' line.toList with
  | table :: words => (words.mapM Columns.ofWord?).bind (s.insert (String.ofList table))
  | [] => none

def ofLines? (lines : List String) : Option Store := lines.foldlM insertLine empty

end Store

end RealmLogon
