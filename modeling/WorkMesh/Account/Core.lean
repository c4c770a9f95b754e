import WorkMesh.Encoding.Clock
import WorkMesh.Encoding.Sha256
import WorkMesh.StateMachine.Table

/-!
# Accounts and sessions

The local users are kept by name and the sessions by token. A session stores
what its user's record is looked up by. Signing in reads the user and stores the
session in two critical sections; every other operation is one.
-/

namespace WorkMesh.Account

open Encoding StateMachine

structure APIConfig where
  enabled : Bool := false
  key : Bytes := []
  ipWhiteList : Bytes := []
  trustedProxy : Bytes := []
  validityHours : Int := 0
deriving DecidableEq

structure User where
  id : Bytes
  name : Bytes
  role : Bytes := []
  password : Bytes := []
  groups : List Bytes := []
  mfa : Bool := false
  api : APIConfig := {}
deriving DecidableEq

structure Session where
  id : Bytes
  userID : Bytes
  expiresAt : Time
deriving DecidableEq

/-- The tables of `CoreService` that signing in works on. -/
structure CoreService where
  users : Table Bytes User
  sessions : Table Bytes Session

def publicUser (user : User) : User := { user with password := [] }

def hashPassword (value : Bytes) : Bytes := hexEncode (sha256 value)

def verifyPassword (encoded value : Bytes) : Bool := encoded = hashPassword value

namespace CoreService

variable (s : CoreService)

/-- The users of `NewCoreService`, before a saved table is loaded. -/
def new (adminName adminPassword : Bytes) : CoreService where
  users := AList.singleton adminName
    { id := adminName, name := adminName, role := bytes "ADMIN",
      password := hashPassword adminPassword, groups := [bytes "administrators"] }
  sessions := ∅

/-- `Login` up to the end of its first critical section. -/
def checkLogin (name password : Bytes) : Except String User :=
  match s.users.lookup name with
  | some user =>
      if verifyPassword user.password password then .ok user else .error "用户名或密码错误"
  | none => .error "用户名或密码错误"

/-- A day, in nanoseconds. -/
def sessionLifetime : Int := 24 * 60 * 60 * 10 ^ 9

/-- The session that `Login` makes for a user that it has read. -/
def newSession (user : User) (token : Bytes) (now : Time) : Session :=
  { id := token, userID := user.id, expiresAt := now.add sessionLifetime }

/-- The second critical section of `Login`. -/
def storeSession (session : Session) : CoreService :=
  { s with sessions := s.sessions.insert session.id session }

def logout (sessionID : Bytes) : CoreService :=
  { s with sessions := s.sessions.erase sessionID }

/-- The user of an enabled key for calls without a session. -/
def userOfKey (key : Bytes) : Option User :=
  s.users.values.find? fun candidate =>
    candidate.api.enabled && candidate.api.key != [] && candidate.api.key == key

def current (sessionID : Bytes) (now : Time) : CoreService × Except String User :=
  match s.sessions.lookup sessionID with
  | none =>
      match s.userOfKey sessionID with
      | some candidate => (s, .ok (publicUser candidate))
      | none => (s, .error "会话无效或已过期")
  | some session =>
      if now.after session.expiresAt then (s.logout sessionID, .error "会话无效或已过期")
      else
        match s.users.lookup session.userID with
        | some user => (s, .ok (publicUser user))
        | none => (s, .error "会话用户不存在")

/-- The name that an update asks for is another one. -/
def renames (user : User) (name : Bytes) : Bool := trimSpace name != [] && name != user.name

/-- What `UpdateCurrentUser` checks before it writes. -/
def checkUpdate (sessionID name oldPassword newPassword : Bytes) (now : Time) :
    Except String (Session × User) :=
  match s.sessions.lookup sessionID with
  | none => .error "会话无效或已过期"
  | some session =>
      if now.after session.expiresAt then .error "会话无效或已过期"
      else
        match s.users.lookup session.userID with
        | none => .error "用户不存在"
        | some user =>
            if newPassword != [] && !verifyPassword user.password oldPassword then
              .error "原密码错误"
            else if renames user name && (s.users.lookup name).isSome then .error "用户名已存在"
            else .ok (session, user)

/-- The record that an update writes. -/
def updatedUser (user : User) (name newPassword : Bytes) : User :=
  let user := if renames user name then { user with name := trimSpace name } else user
  if newPassword != [] then { user with password := hashPassword newPassword } else user

/-- A rename takes the old name out of the table and points the sessions to the new one. -/
def rename (session : Session) (user : User) (name : Bytes) : CoreService where
  users := s.users.erase user.name
  sessions := s.sessions.mapValues fun active =>
    if active.userID = session.userID then { active with userID := trimSpace name } else active

/-- `UpdateCurrentUser`. A save that fails is reported, and the tables keep the update. -/
def updateCurrentUser (sessionID name oldPassword newPassword : Bytes) (now : Time)
    (saveError : Option String) : CoreService × Except String User :=
  match s.checkUpdate sessionID name oldPassword newPassword now with
  | .error message => (s, .error message)
  | .ok (session, user) =>
      let s := if renames user name then s.rename session user name else s
      let user := updatedUser user name newPassword
      let s := { s with users := s.users.insert user.name user }
      match saveError with
      | none => (s, .ok (publicUser user))
      | some message => (s, .error ("保存用户凭据失败: " ++ message))

end CoreService

end WorkMesh.Account
