import Mathlib.Data.List.Lex
import Mathlib.Data.List.MinMax
import Mathlib.Data.Prod.Lex
import WorkMesh.Encoding.Cookie
import WorkMesh.Mysql.Statement

/-!
# Privileges on a MySQL server

A server holds databases and accounts. An account has privileges on all databases and
rows with privileges on the databases that match a pattern. Of the rows that match a
database the most specific one counts.
-/

namespace WorkMesh.Mysql

open Encoding

/-! ## Patterns -/

/-- Wildcards of a pattern for databases: any text for `%`, any character for `_`. A backslash takes
the meaning of the character behind it away. -/
def likes : Bytes → Bytes → Bool
  | [], name => name = []
  | 37 :: pattern, name => name.tails.any (likes pattern)
  | 95 :: pattern, _ :: name => likes pattern name
  | 92 :: c :: pattern, d :: name => c = d && likes pattern name
  | c :: pattern, d :: name => c = d && likes pattern name
  | _ :: _, [] => false

/-- Where the first wildcard stands. -/
def firstWild : ℕ → Bytes → Option ℕ
  | _, [] => none
  | index, 92 :: _ :: pattern => firstWild (index + 2) pattern
  | index, c :: pattern => if c = 37 ∨ c = 95 then some index else firstWild (index + 1) pattern

/-- A pattern without wildcards comes first, then the one whose first wildcard stands last. -/
def specificity (pattern : Bytes) : ℕ :=
  match firstWild 0 pattern with
  | some index => min (index + 1) 127
  | none => if pattern = [] then 0 else 128

/-- Patterns of one specificity in the order of their texts. -/
def rank (pattern : Bytes) : ℕ ×ₗ List ℕ := toLex (specificity pattern, pattern.map UInt8.toNat)

/-! ## Accounts -/

/-- Which of the privileges on a database are held. -/
abbrev Privileges (π : Type) := π → Bool

def noPrivileges {π : Type} : Privileges π := fun _ => false

def allPrivileges {π : Type} : Privileges π := fun _ => true

structure Row (π : Type) where
  pattern : Bytes
  privileges : Privileges π

/-- An account with the password, the privileges on all databases and the rows for some. -/
structure Account (π : Type) where
  user : Bytes
  host : Bytes
  password : Bytes
  general : Privileges π := noPrivileges
  rows : List (Row π) := []
  nodup : (rows.map Row.pattern).Nodup := by simp

/-- Hosts are told apart without their case. -/
def Account.is {π : Type} (user host : Bytes) (a : Account π) : Bool :=
  a.user = user && a.host = toLower host

/-- The row that counts for a database. -/
def bestRow {π : Type} (database : Bytes) (rows : List (Row π)) : Option (Row π) :=
  (rows.filter fun row => likes row.pattern database).argmax fun row => rank row.pattern

def Account.allowed {π : Type} (a : Account π) (database : Bytes) : Privileges π := fun p =>
  a.general p || (bestRow database a.rows).any fun row => row.privileges p

/-- The account with all privileges in the row of a pattern. -/
def Account.granted {π : Type} (pattern : Bytes) (a : Account π) : Account π where
  user := a.user
  host := a.host
  password := a.password
  general := a.general
  rows := ⟨pattern, allPrivileges⟩ :: a.rows.filter fun row => row.pattern ≠ pattern
  nodup := by
    rw [List.map_cons, List.nodup_cons]
    refine ⟨fun hmem => ?_, (List.filter_sublist.map _).nodup a.nodup⟩
    obtain ⟨row, hrow, heq⟩ := List.mem_map.mp hmem
    simp [heq] at hrow

def Account.revoked {π : Type} (a : Account π) : Account π where
  user := a.user
  host := a.host
  password := a.password

/-! ## The server -/

structure Database where
  name : Bytes
  format : Option Bytes
  collation : Option Bytes
deriving DecidableEq

structure Server (π : Type) where
  databases : List Database := []
  accounts : List (Account π) := []

section Server
variable {π : Type}

def Server.account (s : Server π) (user host : Bytes) : Option (Account π) :=
  s.accounts.find? (·.is user host)

/-- What an account may do on a database. -/
def Server.allowed (s : Server π) (user host database : Bytes) : Privileges π :=
  match s.account user host with
  | none => noPrivileges
  | some a => a.allowed database

def Server.change (s : Server π) (user host : Bytes) (f : Account π → Account π) :
    Option (Server π) :=
  if (s.account user host).isSome then
    some { s with accounts := s.accounts.map fun a => if a.is user host then f a else a }
  else none

/-- The effect of a statement, `none` when the server answers with an error. -/
def Statement.apply (s : Server π) : Statement → Option (Server π)
  | .createDatabase name format collation =>
      if s.databases.any fun d => d.name = name then none
      else some { s with databases := s.databases ++ [⟨name, format, collation⟩] }
  | .dropDatabase name => some { s with databases := s.databases.filter fun d => d.name ≠ name }
  | .createUser user host password =>
      if (s.account user host).isSome then none
      else some { s with accounts := s.accounts ++ [{ user, host := toLower host, password }] }
  | .dropUser user host => some { s with accounts := s.accounts.filter fun a => !a.is user host }
  | .grantAll database user host => s.change user host (·.granted database)
  | .revokeAll user host => s.change user host Account.revoked

/-- The account that `.createUser` adds. -/
def newAccount (username password host : Bytes) : Account π where
  user := username
  host := toLower host
  password := password

end Server

/-! ## Checks -/

abbrev Check := Except Bytes Unit

def refuse (text : String) : Check := .error (bytes text)

/-- `[A-Za-z0-9_$.-]`. -/
def isIdentifierByte (c : UInt8) : Bool :=
  (65 ≤ c && c ≤ 90) || (97 ≤ c && c ≤ 122) || (48 ≤ c && c ≤ 57) || c ∈ bytes "_$.-"

def validateMySQLIdentifier (value : Bytes) : Check :=
  let value := trimSpace value
  if value = [] ∨ 128 < value.length ∨ !value.all isIdentifierByte then
    .error (bytes "MySQL 标识符无效: \"" ++ value ++ bytes "\"")
  else .ok ()

/-- An address of the Internet holds neither slash, so that the check for one decides nothing. -/
def validateMySQLHost (value : Bytes) : Check :=
  let value := trimSpace value
  if value = [] ∨ 255 < value.length ∨ value.any fun c => c ∈ [32, 9, 13, 10, 0] then
    refuse "MySQL 主机无效"
  else if value.any fun c => c = 47 ∨ c = 92 then refuse "MySQL 主机无效"
  else .ok ()

/-! ## Operations -/

/-- What becomes of a statement. When its time ends behind the command, it is carried out, and
`ExecOutput` reports an error all the same: it is unheard. -/
inductive Fate where
  | done
  | refused
  | unheard
  deriving DecidableEq

/-- The server, and how many statements were sent. -/
structure Session (π : Type) where
  server : Server π
  count : ℕ := 0

section Operations
variable {π : Type} (fates : ℕ → Fate)

/-- `Exec`. A statement that the client or the server refuses does nothing. -/
def exec (text : Bytes) (session : Session π) : Check × Session π :=
  let next := { session with count := session.count + 1 }
  if fates session.count = .refused then (refuse "MySQL 执行失败", next)
  else match (parse text).bind (·.apply session.server) with
    | none => (refuse "MySQL 执行失败", next)
    | some server =>
        (if fates session.count = .unheard then refuse "MySQL 执行超时" else .ok (),
          { next with server })

/-- The host of an account where a blank one stands for any. -/
def givenHost (host : Bytes) : Bytes := if trimSpace host = [] then bytes "%" else host

/-- The host of an account where an empty one stands for any. -/
def grantHost (host : Bytes) : Bytes := if host = [] then bytes "%" else host

def createMySQLUserAndGrantNoDatabase (username password host : Bytes) (session : Session π) :
    Check × Session π :=
  match validateMySQLIdentifier username with
  | .error e => (.error e, session)
  | .ok () =>
      match validateMySQLHost (givenHost host) with
      | .error e => (.error e, session)
      | .ok () => exec fates (createUserText username (givenHost host) password) session

/-- `createMySQLUserAndGrant`, which begins with the code of the function above. -/
def createMySQLUserAndGrant (database username password host : Bytes) (session : Session π) :
    Check × Session π :=
  match createMySQLUserAndGrantNoDatabase fates username password host session with
  | (.error e, session) => (.error e, session)
  | (.ok (), session) => exec fates (grantText database username (givenHost host)) session

/-- The names of a database to be created. -/
def checkDatabase (name format collation : Bytes) : Check := do
  validateMySQLIdentifier name
  if format ≠ [] then validateMySQLIdentifier format
  if collation ≠ [] then validateMySQLIdentifier collation

def createMySQLDatabase (name format collation username password host : Bytes)
    (session : Session π) : Check × Session π :=
  match checkDatabase name format collation with
  | .error e => (.error e, session)
  | .ok () =>
      match exec fates (createDatabaseText name format collation) session with
      | (.error e, session) => (.error e, session)
      | (.ok (), session) =>
          if trimSpace username = [] then (.ok (), session)
          else match createMySQLUserAndGrant fates name username password host session with
            | (.ok (), session) => (.ok (), session)
            | (.error e, session) =>
                (.error e, (exec fates (dropDatabaseText name) session).2)

def dropMySQLUser (username host : Bytes) (session : Session π) : Check × Session π :=
  match validateMySQLIdentifier username with
  | .error e => (.error e, session)
  | .ok () =>
      match validateMySQLHost (givenHost host) with
      | .error e => (.error e, session)
      | .ok () => exec fates (dropUserText username (givenHost host)) session

/-- What `GrantMySQLUser` and `RevokeMySQLGrant` check. -/
def checkGrant (database username host : Bytes) : Check := do
  validateMySQLIdentifier database
  validateMySQLIdentifier username
  validateMySQLHost (grantHost host)

def grantMySQLUser (database username host : Bytes) (session : Session π) : Check × Session π :=
  match checkGrant database username host with
  | .error e => (.error e, session)
  | .ok () => exec fates (grantText database username (grantHost host)) session

/-- `RevokeMySQLGrant`. The statement does not name the database. -/
def revokeMySQLGrant (database username host : Bytes) (session : Session π) : Check × Session π :=
  match checkGrant database username host with
  | .error e => (.error e, session)
  | .ok () => exec fates (revokeText username (grantHost host)) session

/-- The grants of `CreateMySQLUser`, up to the first that fails. -/
def grantDatabases (username host : Bytes) : List Bytes → Session π → Check × Session π
  | [], session => (.ok (), session)
  | database :: databases, session =>
      match grantMySQLUser fates database username host session with
      | (.ok (), session) => grantDatabases username host databases session
      | (.error e, session) => (.error e, (dropMySQLUser fates username host session).2)

def createMySQLUser (username password host : Bytes) (databases : List Bytes)
    (session : Session π) : Check × Session π :=
  match createMySQLUserAndGrantNoDatabase fates username password host session with
  | (.error e, session) => (.error e, session)
  | (.ok (), session) => grantDatabases fates username host databases session

end Operations

end WorkMesh.Mysql
