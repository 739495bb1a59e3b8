import RealmLogon.Pattern.Scan
import RealmLogon.Text.Blank
import RealmLogon.Text.Pieces

/-! Filters for log messages: directives with commas between them, each a level, or a target with
perhaps a span in brackets and fields in braces, and then perhaps a level. The blanks around a directive do
not count as part of it, but its fields and its level are taken, by their distance in bytes from its
beginning, out of the text with these blanks. -/

namespace RealmLogon.LogFilter

open Text

inductive Error where
  | directive
  | level
  /-- The value of a field is neither a number nor a pattern. -/
  | field (e : Pattern.Error)
  deriving DecidableEq, Repr

def Error.causes : Error → List String
  | directive => ["invalid filter directive"]
  | level =>
    let text := "error parsing level filter: expected one of \"off\", \"error\", \"warn\", \"info\", " ++
      "\"debug\", \"trace\", or a number 0-5"
    [text, text]
  | field e => ("invalid field filter: " ++ (e.causes.head?.getD "")) :: e.causes

def levels : List String := ["off", "error", "warn", "info", "debug", "trace"]

/-- A level by its name in any case or by its number; an empty text is one, too. -/
def isLevel (cs : List Char) : Bool :=
  cs.isEmpty || levels.contains (String.ofList (cs.map Char.toLower)) || (Numeral.unsigned 6 cs).isSome

def withoutSign : List Char → List Char
  | '+' :: r | '-' :: r => r
  | cs => cs

def isExponent : List Char → Bool
  | [] => true
  | c :: r => c.toLower = 'e' && withoutSign r != [] && (withoutSign r).all Char.isDigit

/-- A number with a sign or without one, with a point or without one, or the name of one. -/
def isNumber (text : List Char) : Bool :=
  let cs := withoutSign text
  let whole := cs.takeWhile Char.isDigit
  let named := ["inf", "infinity", "nan"].contains (String.ofList (cs.map Char.toLower))
  named || match cs.drop whole.length with
    | '.' :: r =>
      let part := r.takeWhile Char.isDigit
      whole ++ part != [] && isExponent (r.drop part.length)
    | r => whole != [] && isExponent r

/-- Whether a text is a field, a name with perhaps a value after an equals sign. What comes after a second
one is not read. -/
def checkField (text : List Char) : Except Error Unit :=
  match pieces '=' text with
  | _ :: value :: _ => if isNumber value then .ok () else (Pattern.check value).mapError .field
  | _ => .ok ()

def dropBytes : Nat → List Char → List Char
  | 0, cs => cs
  | _, [] => []
  | n, c :: cs => dropBytes (n - c.utf8Size) cs

def takeBytes : Nat → List Char → List Char
  | 0, _ => []
  | _, [] => []
  | n, c :: cs => c :: takeBytes (n - c.utf8Size) cs

/-- What a directive is at; a field begins at a distance from the beginning. -/
inductive Part where
  | start | target | span | field (first : Nat) | fields | afterSpan
  deriving DecidableEq

def beginsTarget (c : Char) : Bool := c = '-' || c = ':' || c = '_' || isAlphanumeric c

def directive (whole : List Char) : Part → Nat → List Char → Except Error Unit
  | .target, _, [] | .afterSpan, _, [] => .ok ()
  | _, _, [] => .error .directive
  | part, n, c :: rest =>
    let behind := n + c.utf8Size
    let level : Except Error Unit := if isLevel (dropBytes behind whole) then .ok () else .error .level
    match part with
    | .start =>
      if c = '[' then directive whole .span behind rest
      else if beginsTarget c then directive whole .target behind rest else .error .directive
    | .target =>
      if c = '=' then level
      else if c = '[' then directive whole .span behind rest else directive whole .target behind rest
    | .span =>
      if c = ']' then directive whole .afterSpan behind rest
      else if c = '{' then directive whole (.field behind) behind rest else directive whole .span behind rest
    | .field first =>
      if c = '}' then
        match takeBytes (n - first) (dropBytes first whole) with
        | [] => .error .directive
        | text => do
          checkField text
          directive whole .fields behind rest
      else directive whole (.field first) behind rest
    | .fields => if c = ']' then directive whole .afterSpan behind rest else .error .directive
    | .afterSpan => if c = '=' then level else .error .directive

/-- Whether a text is a filter; empty directives are left out. -/
def check (text : String) : Except Error Unit :=
  ((pieces ',' text.toList).filter (· ≠ [])).forM fun d => directive d .start 0 (trimEnd (trimStart d))

end RealmLogon.LogFilter
