import RealmLogon.Text.Pieces
import RealmLogon.Text.Numeral

/-! What is wrong with a regular expression, and where. A report shows the expression with carets under
the places in question; an expression of several lines is shown with their numbers. -/

namespace RealmLogon.Pattern

open Text

/-- A line and a column of a text, both from one on. -/
structure Place where
  line : Nat
  column : Nat
  deriving DecidableEq, Repr

def Place.first : Place := ⟨1, 1⟩

def Place.after (p : Place) (c : Char) : Place :=
  if c = '\n' then ⟨p.line + 1, 1⟩ else { p with column := p.column + 1 }

structure Span where
  start : Place
  stop : Place
  deriving DecidableEq, Repr

inductive Flaw where
  | classEscape | classRange | classRangeEnd | classUnclosed
  | countTooLarge | countMissing | countUnclosed
  | digitInvalid | scalarInvalid | escapeCut | escapeUnknown | backreference | propertyInvalid
  | negationDangling | flagTwice | negationTwice | flagsCut | flagUnknown
  | nameTwice | nameEmpty | nameInvalid | nameCut
  | groupUnclosed | groupUnopened | lookAround | repeatsNothing
  | boundaryUnclosed | boundaryCut
  | bytesNoText | unicodeRefused | propertyUnknown | shorthandUnknown | caseUnknown
  deriving DecidableEq, Repr

def Flaw.message : Flaw → String
  | classEscape => "invalid escape sequence found in character class"
  | classRange => "invalid character class range, the start must be <= the end"
  | classRangeEnd => "invalid range boundary, must be a literal"
  | classUnclosed => "unclosed character class"
  | countTooLarge => "decimal literal invalid"
  | countMissing => "repetition quantifier expects a valid decimal"
  | countUnclosed => "unclosed counted repetition"
  | digitInvalid => "invalid hexadecimal digit"
  | scalarInvalid => "hexadecimal literal is not a Unicode scalar value"
  | escapeCut => "incomplete escape sequence, reached end of pattern prematurely"
  | escapeUnknown => "unrecognized escape sequence"
  | backreference => "backreferences are not supported"
  | propertyInvalid => "invalid Unicode character class"
  | negationDangling => "dangling flag negation operator"
  | flagTwice => "duplicate flag"
  | negationTwice => "flag negation operator repeated"
  | flagsCut => "expected flag but got end of regex"
  | flagUnknown => "unrecognized flag"
  | nameTwice => "duplicate capture group name"
  | nameEmpty => "empty capture group name"
  | nameInvalid => "invalid capture group character"
  | nameCut => "unclosed capture group name"
  | groupUnclosed => "unclosed group"
  | groupUnopened => "unopened group"
  | lookAround => "look-around, including look-ahead and look-behind, is not supported"
  | repeatsNothing => "repetition operator missing expression"
  | boundaryUnclosed =>
    "special word boundary assertion is either unclosed or contains an invalid character"
  | boundaryCut => "found either the beginning of a special word boundary or a bounded repetition on " ++
      "a \\b with an opening brace, but no closing brace"
  | bytesNoText => "pattern can match invalid UTF-8"
  | unicodeRefused => "Unicode not allowed here"
  | propertyUnknown => "Unicode property not found"
  | shorthandUnknown =>
    "Unicode-aware Perl class not found (make sure the unicode-perl feature is enabled)"
  | caseUnknown => "Unicode-aware case insensitivity matching is not available " ++
      "(make sure the unicode-case feature is enabled)"

/-- A flaw at a place, and the place that it repeats, if it repeats one. -/
structure Fault where
  flaw : Flaw
  span : Span
  earlier : Option Span
  deriving DecidableEq, Repr

namespace Fault

/-- The lines of a text, without their ends; a line end at the end begins no line. -/
def lines (text : List Char) : List (List Char) :=
  let ps := pieces '\n' text
  let ended := ps.dropLast.map fun l => if l.getLast? = some '\r' then l.dropLast else l
  ended ++ (ps.getLast?.toList.filter (· ≠ []))

/-- Carets under spans of one line, from a column on; there is one at least for each of them. -/
def carets (column : Nat) : List Span → List Char
  | [] => []
  | s :: rest =>
    let width := max 1 (s.stop.column - s.start.column)
    List.replicate (s.start.column - column) ' ' ++ List.replicate width '^' ++
      carets (max column s.start.column + width) rest

def isBefore (a b : Span) : Bool :=
  a.start.line < b.start.line || (a.start.line == b.start.line && a.start.column ≤ b.start.column)

def spans (f : Fault) : List Span :=
  match f.earlier with
  | none => [f.span]
  | some s => if isBefore s f.span then [s, f.span] else [f.span, s]

def extent (s : Span) : String :=
  s!"on line {s.start.line} (column {s.start.column}) through line {s.stop.line} (column {s.stop.column - 1})"

def shown (f : Fault) (margin : Nat → List Char) (n : Nat) (line : List Char) : List String :=
  let here := f.spans.filter fun s => s.start.line == n && s.stop.line == n
  String.ofList (margin n ++ line) ::
    if here.isEmpty then [] else [String.ofList (List.replicate (margin n).length ' ' ++ carets 1 here)]

def numberMargin (count n : Nat) : List Char :=
  let digits := Numeral.print 10 n
  List.replicate ((Numeral.print 10 count).length - digits.length) ' ' ++ digits ++ [':', ' ']

def report (f : Fault) (text : List Char) : String :=
  let ls := (lines text).zipIdx 1
  let body (margin : Nat → List Char) := ls.flatMap fun (l, n) => f.shown margin n l
  let told :=
    if text.contains '\n' then
      let rule := String.ofList (List.replicate 79 '~')
      let count := ls.length + if text.getLast? = some '\n' then 1 else 0
      let long := (f.spans.filter fun s => s.start.line != s.stop.line).map extent
      rule :: body (numberMargin count) ++ rule :: (if long.isEmpty then [] else ["\n".intercalate long])
    else body fun _ => [' ', ' ', ' ', ' ']
  "\n".intercalate ("regex parse error:" :: told ++ ["error: " ++ f.flaw.message])

end Fault

end RealmLogon.Pattern
