import RealmLogon.Text.Pieces

/-! Paths: names with slashes between them, from the root on or from a directory. -/

namespace RealmLogon

inductive PathError where
  | missing
  | directory
  /-- The path goes on behind a file. -/
  | notDirectory
  | tooLong
  | zeroByte
  deriving DecidableEq, Repr

def PathError.message : PathError → String
  | missing => "No such file or directory (os error 2)"
  | directory => "Is a directory (os error 21)"
  | notDirectory => "Not a directory (os error 20)"
  | tooLong => "File name too long (os error 36)"
  | zeroByte => "file name contained an unexpected NUL byte"

namespace Path

open Text

/-- The names of a path; there is an empty one before, between and after slashes. -/
def names (path : String) : List String := (pieces '/' path.toList).map String.ofList

def origin (home : List String) (path : String) : List String :=
  if path.toList.head? = some '/' then [] else home

def text (names : List String) : String := String.join (names.map ("/" ++ ·))

def nameLimit : Nat := 255

/-- A path is shorter than so many bytes. -/
def lengthLimit : Nat := 4096

/-- Where a name leads from a directory, if a point stands for the directory and two of them for the one
around it, whether or not the rest is there. -/
def go (base : List String) (name : String) : List String :=
  if name = "" ∨ name = "." then base else if name = ".." then base.dropLast else base ++ [name]

/-- Where a path leads by its text alone. -/
def absolute (home : List String) (path : String) : List String := (names path).foldl go (origin home path)

end Path

end RealmLogon
