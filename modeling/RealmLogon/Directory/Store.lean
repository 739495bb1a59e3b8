import RealmLogon.Directory.Cell

/-! The tables of the login database. The rows of accounts and of realms have numbers, and the number of
a new row is one above the highest that was ever given. -/

namespace RealmLogon

structure Numbered (α : Type) where
  rows : List α
  /-- The highest number ever given, and zero if there was none. -/
  last : Int

def Numbered.empty {α : Type} : Numbered α := ⟨[], 0⟩

structure AccountRow where
  id : Int
  username : String
  salt : Cell
  verifier : Cell
  sessionKey : Cell := .null
  totpSecret : Cell := .null
  locked : Cell := .integer 0
  lockCountry : String := "00"
  lastIp : String := "127.0.0.1"
  failedLogins : Cell := .integer 0
  security : Cell := .integer 0
  locale : Cell := .integer 0
  os : String := ""
  timezoneOffset : Cell := .integer 0
  lastLogin : Cell := .null
  deriving DecidableEq

/-- A ban of an account, from its start to its finish; a ban whose two times are equal never ends. -/
structure AccountBan where
  account : Cell
  start : Cell
  finish : Cell
  author : String
  reason : String
  active : Cell
  deriving DecidableEq

structure IpBan where
  ip : String
  start : Cell
  finish : Cell
  author : String
  reason : String
  deriving DecidableEq

structure RealmRow where
  id : Int
  name : String
  address : String := "127.0.0.1"
  localAddress : String := "127.0.0.1"
  mask : String := "255.255.255.0"
  port : Cell := .integer 8085
  icon : Cell := .integer 0
  flag : Cell := .integer 2
  timezone : Cell := .integer 0
  security : Cell := .integer 0
  population : Cell := .real .zero
  build : Cell := .integer 12340
  deriving DecidableEq

structure CharactersRow where
  realm : Cell
  account : Cell
  count : Cell
  deriving DecidableEq

structure Store where
  accounts : Numbered AccountRow
  accountBans : List AccountBan
  ipBans : List IpBan
  realms : Numbered RealmRow
  characters : List CharactersRow

namespace Store

def empty : Store := ⟨.empty, [], [], .empty, []⟩

/-- The number that a new row gets, unless the highest possible one has been given. -/
def nextNumber {α : Type} (t : Numbered α) : Option Int :=
  if t.last < 0x7FFFFFFFFFFFFFFF then some (t.last + 1) else none

def append {α : Type} (t : Numbered α) (n : Int) (row : α) : Numbered α := ⟨t.rows ++ [row], max t.last n⟩

def addAccount (s : Store) (row : AccountRow) : Option Store :=
  if s.accounts.rows.any (fun r => r.username == row.username || r.id == row.id) then none
  else some { s with accounts := append s.accounts row.id row }

def addRealmRow (s : Store) (row : RealmRow) : Option Store :=
  if s.realms.rows.any (fun r => r.name == row.name || r.id == row.id) then none
  else some { s with realms := append s.realms row.id row }

def sameAccountBan (a b : AccountBan) : Bool := a.account == b.account && a.start == b.start
def sameIpBan (a b : IpBan) : Bool := a.ip == b.ip && a.start == b.start

/-- An account has at most one ban for each beginning. -/
def addAccountBan (s : Store) (ban : AccountBan) : Option Store :=
  if s.accountBans.any (sameAccountBan ban) then none
  else some { s with accountBans := s.accountBans ++ [ban] }

/-- Add a ban in place of one with the same beginning. -/
def putAccountBan (s : Store) (ban : AccountBan) : Store :=
  { s with accountBans := s.accountBans.filter (fun b => !sameAccountBan ban b) ++ [ban] }

def addIpBan (s : Store) (ban : IpBan) : Option Store :=
  if s.ipBans.any (sameIpBan ban) then none else some { s with ipBans := s.ipBans ++ [ban] }

def putIpBan (s : Store) (ban : IpBan) : Store :=
  { s with ipBans := s.ipBans.filter (fun b => !sameIpBan ban b) ++ [ban] }

def addCharacters (s : Store) (row : CharactersRow) : Option Store :=
  if s.characters.any (fun r => r.realm == row.realm && r.account == row.account) then none
  else some { s with characters := s.characters ++ [row] }

end Store

end RealmLogon
