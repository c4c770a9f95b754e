import WorkMesh.Account.Identity

/-!
# An update that cannot be saved

Three operations write the record of the current user and save all users after that. Both
that change the settings of the API put the old record back when the save fails, under the
user's name; the one that changes the name and the password puts nothing back. So a failed
save is invisible exactly where there was nothing to change, or where the old record was
found under the name that it bears.
-/

namespace WorkMesh.Account

open Encoding StateMachine

namespace CoreService

variable (s : CoreService)

/-- The user that a live session stands for, for the operations on the API. -/
def sessionUser (sessionID : Bytes) (now : Time) : Except String User :=
  match s.sessions.lookup sessionID with
  | none => .error "会话无效或已过期"
  | some session =>
      if now.after session.expiresAt then .error "会话无效或已过期"
      else
        match s.users.lookup session.userID with
        | none => .error "用户不存在"
        | some user => .ok user

/-- `GenerateAPIKey` with the random token that it draws. -/
def generateAPIKey (sessionID token : Bytes) (now : Time) (saveError : Option String) :
    CoreService × Except String Bytes :=
  match s.sessionUser sessionID now with
  | .error message => (s, .error message)
  | .ok user =>
      let previousAPI := user.api
      let user := { user with api := { user.api with key := token, enabled := true } }
      let s := { s with users := s.users.insert user.name user }
      match saveError with
      | none => (s, .ok user.api.key)
      | some message =>
          let user := { user with api := previousAPI }
          ({ s with users := s.users.insert user.name user },
            .error ("保存 API Key 失败: " ++ message))

/-- The settings after an update; an empty key and no validity keep what is there. -/
def updatedAPI (api config : APIConfig) : APIConfig where
  enabled := config.enabled
  key := if config.key != [] then config.key else api.key
  ipWhiteList := config.ipWhiteList
  trustedProxy := config.trustedProxy
  validityHours := if config.validityHours > 0 then config.validityHours else api.validityHours

/-- `UpdateAPIConfig`. -/
def updateAPIConfig (sessionID : Bytes) (config : APIConfig) (now : Time)
    (saveError : Option String) : CoreService × Except String Unit :=
  match s.sessionUser sessionID now with
  | .error message => (s, .error message)
  | .ok user =>
      let previousAPI := user.api
      let user := { user with api := updatedAPI user.api config }
      let s := { s with users := s.users.insert user.name user }
      match saveError with
      | none => (s, .ok ())
      | some message =>
          let user := { user with api := previousAPI }
          ({ s with users := s.users.insert user.name user },
            .error ("保存 API 配置失败: " ++ message))

end CoreService

/-- The updates of an account. -/
inductive Update where
  | currentUser (name oldPassword newPassword : Bytes)
  | apiKey (token : Bytes)
  | apiConfig (config : APIConfig)

/-- An update of the account of a session. -/
def CoreService.perform (s : CoreService) (sessionID : Bytes) (update : Update) (now : Time)
    (saveError : Option String) : CoreService :=
  match update with
  | .currentUser name oldPassword newPassword =>
      (s.updateCurrentUser sessionID name oldPassword newPassword now saveError).1
  | .apiKey token => (s.generateAPIKey sessionID token now saveError).1
  | .apiConfig config => (s.updateAPIConfig sessionID config now saveError).1

/-- The table of users and that of sessions, as maps. -/
structure SameTables (s after : CoreService) : Prop where
  users : ∀ key, after.users.lookup key = s.users.lookup key
  sessions : ∀ id, after.sessions.lookup id = s.sessions.lookup id

/-- The password after an update, as it is stored. -/
def storedPassword (user : User) (newPassword : Bytes) : Bytes :=
  if newPassword = [] then user.password else hashPassword newPassword

/-- There is nothing to lose: the update is refused, or what it asks for is already in the
table under the name of the user. For the API this is the record before the update. -/
def CoreService.Settled (s : CoreService) (sessionID : Bytes) (now : Time) : Update → Prop
  | .currentUser name oldPassword newPassword =>
      ∀ session user, s.checkUpdate sessionID name oldPassword newPassword now = .ok (session, user) →
        s.users.lookup user.name = some { user with password := storedPassword user newPassword } ∧
          (CoreService.renames user name → trimSpace name = user.name ∧ session.userID = user.name)
  | .apiKey _ | .apiConfig _ =>
      ∀ user, s.sessionUser sessionID now = .ok user → s.users.lookup user.name = some user

section Update
variable {s : CoreService} {sessionID name oldPassword newPassword : Bytes} {now : Time}
variable {session : Session} {user : User} {message : String}

theorem sameTables_iff_of_sessions {users : Table Bytes User} :
    SameTables s { s with users := users } ↔ ∀ key, users.lookup key = s.users.lookup key :=
  ⟨fun h => h.users, fun h => ⟨h, fun _ => rfl⟩⟩

/-! ### The operations on the API -/

/-- Taking a record back writes the old one under the name of the user. -/
theorem sameTables_taken_back {changed : User} :
    SameTables s { s with users := (s.users.insert user.name changed).insert user.name user } ↔
      s.users.lookup user.name = some user := by
  rw [sameTables_iff_of_sessions, ← Table.lookup_insert_eq_iff]
  apply forall_congr'
  intro key
  simp only [Table.lookup_insert]
  split_ifs <;> rfl

theorem generateAPIKey_failed (message : String) (token : Bytes)
    (huser : s.sessionUser sessionID now = .ok user) :
    ∃ changed : User, (s.generateAPIKey sessionID token now (some message)).1 =
      { s with users := (s.users.insert user.name changed).insert user.name user } := by
  refine ⟨{ user with api := { user.api with key := token, enabled := true } }, ?_⟩
  simp only [CoreService.generateAPIKey, huser]

theorem updateAPIConfig_failed (message : String) (config : APIConfig)
    (huser : s.sessionUser sessionID now = .ok user) :
    ∃ changed : User, (s.updateAPIConfig sessionID config now (some message)).1 =
      { s with users := (s.users.insert user.name changed).insert user.name user } := by
  refine ⟨{ user with api := CoreService.updatedAPI user.api config }, ?_⟩
  simp only [CoreService.updateAPIConfig, huser]

/-! ### The name and the password -/

theorem updatedUser_of_not_renames (h : CoreService.renames user name = false) :
    CoreService.updatedUser user name newPassword =
      { user with password := storedPassword user newPassword } := by
  by_cases hpassword : newPassword = []
  · simp [CoreService.updatedUser, storedPassword, h, hpassword]
  · simp [CoreService.updatedUser, storedPassword, h, hpassword]

theorem updatedUser_of_renames (h : CoreService.renames user name = true) :
    CoreService.updatedUser user name newPassword =
      { user with name := trimSpace name, password := storedPassword user newPassword } := by
  by_cases hpassword : newPassword = []
  · simp [CoreService.updatedUser, storedPassword, h, hpassword]
  · simp [CoreService.updatedUser, storedPassword, h, hpassword]

/-- An update without a new name writes one record. -/
theorem sameTables_password (hkeep : CoreService.renames user name = false)
    (hcheck : s.checkUpdate sessionID name oldPassword newPassword now = .ok (session, user)) :
    SameTables s (s.updateCurrentUser sessionID name oldPassword newPassword now (some message)).1 ↔
      s.users.lookup user.name = some { user with password := storedPassword user newPassword } := by
  simp only [CoreService.updateCurrentUser, hcheck, hkeep, Bool.false_eq_true, if_false,
    updatedUser_of_not_renames hkeep]
  rw [sameTables_iff_of_sessions, Table.lookup_insert_eq_iff]

/-- What a rename leaves in the two tables. -/
theorem lookup_renamed (message : String) (hrenames : CoreService.renames user name = true)
    (hcheck : s.checkUpdate sessionID name oldPassword newPassword now = .ok (session, user)) :
    let after := (s.updateCurrentUser sessionID name oldPassword newPassword now (some message)).1
    (∀ key, after.users.lookup key = if key = trimSpace name then
        some { user with name := trimSpace name, password := storedPassword user newPassword }
      else if key = user.name then none else s.users.lookup key) ∧
    ∀ id, after.sessions.lookup id = (s.sessions.lookup id).map fun active =>
      if active.userID = session.userID then { active with userID := trimSpace name }
      else active := by
  simp only [CoreService.updateCurrentUser, hcheck, hrenames, if_true, CoreService.rename,
    updatedUser_of_renames hrenames, Table.lookup_insert, Table.lookup_erase,
    Table.lookup_mapValues, implies_true, and_self]

/-- A rename is invisible only when the new name is the old one with blanks around it, the
record is stored under it and the session already stands for it. -/
theorem sameTables_rename (hrenames : CoreService.renames user name = true)
    (hcheck : s.checkUpdate sessionID name oldPassword newPassword now = .ok (session, user)) :
    SameTables s (s.updateCurrentUser sessionID name oldPassword newPassword now (some message)).1 ↔
      s.users.lookup user.name = some { user with password := storedPassword user newPassword } ∧
        trimSpace name = user.name ∧ session.userID = user.name := by
  obtain ⟨hsession, huser⟩ := checkUpdate_ok hcheck
  obtain ⟨husers, hsessions⟩ := lookup_renamed message hrenames hcheck
  constructor
  · intro h
    -- the session of the call follows the rename, so it stood for the new name already
    have hid : session.userID = trimSpace name := by
      have hmoved := (hsessions sessionID).symm.trans (h.sessions sessionID)
      rw [hsession, Option.map_some, if_pos rfl] at hmoved
      exact (congrArg Session.userID (Option.some.inj hmoved)).symm
    have hstored := (husers (trimSpace name)).symm.trans (h.users (trimSpace name))
    rw [if_pos rfl, ← hid, huser] at hstored
    have hname : session.userID = user.name :=
      congrArg User.name (Option.some.inj hstored)
    refine ⟨?_, hid.symm.trans hname, hname⟩
    rw [← hname, huser, ← hstored]
  · rintro ⟨hstored, hname, hid⟩
    constructor
    · intro key
      rw [husers key, hname]
      split_ifs with hkey
      · rw [hkey, hstored]
      · rfl
    · intro id
      rw [hsessions id]
      have hsame : (fun active : Session => if active.userID = session.userID then
          { active with userID := trimSpace name } else active) = fun active => active := by
        ext active
        split_ifs with hactive
        · rw [hname, ← hid, ← hactive]
        · rfl
      rw [hsame, Option.map_id']

end Update

/-- When the save fails, the users with their settings and the sessions are as before exactly
if the update was refused or asked for nothing new. -/
theorem failed_update_unchanged_iff (s : CoreService) (sessionID : Bytes) (update : Update)
    (now : Time) (message : String) :
    SameTables s (s.perform sessionID update now (some message)) ↔
      s.Settled sessionID now update := by
  have hrefl : SameTables s s := ⟨fun _ => rfl, fun _ => rfl⟩
  cases update with
  | currentUser name oldPassword newPassword =>
      simp only [CoreService.perform, CoreService.Settled]
      cases hcheck : s.checkUpdate sessionID name oldPassword newPassword now with
      | error refusal =>
          simp only [CoreService.updateCurrentUser, hcheck, reduceCtorEq, false_implies,
            implies_true, iff_true]
          exact hrefl
      | ok found =>
          obtain ⟨session, user⟩ := found
          simp only [Except.ok.injEq, Prod.mk.injEq, and_imp, forall_apply_eq_imp_iff,
            forall_eq']
          cases hrenames : CoreService.renames user name with
          | false => simp [sameTables_password hrenames hcheck]
          | true => simp [sameTables_rename hrenames hcheck]
  | apiKey token =>
      simp only [CoreService.perform, CoreService.Settled]
      cases huser : s.sessionUser sessionID now with
      | error refusal =>
          simp only [CoreService.generateAPIKey, huser, reduceCtorEq, false_implies,
            implies_true, iff_true]
          exact hrefl
      | ok user =>
          obtain ⟨changed, hafter⟩ := generateAPIKey_failed message token huser
          rw [hafter, sameTables_taken_back]
          simp only [Except.ok.injEq, forall_eq']
  | apiConfig config =>
      simp only [CoreService.perform, CoreService.Settled]
      cases huser : s.sessionUser sessionID now with
      | error refusal =>
          simp only [CoreService.updateAPIConfig, huser, reduceCtorEq, false_implies,
            implies_true, iff_true]
          exact hrefl
      | ok user =>
          obtain ⟨changed, hafter⟩ := updateAPIConfig_failed message config huser
          rw [hafter, sameTables_taken_back]
          simp only [Except.ok.injEq, forall_eq']

/-- A user asks for another name and the save fails: the old name is gone. -/
theorem failed_rename_loses_user :
    let user : User := { id := bytes "admin", name := bytes "admin", password := bytes "p" }
    let s : CoreService := ⟨AList.singleton (bytes "admin") user,
      AList.singleton (bytes "t") ⟨bytes "t", bytes "admin", ⟨10, none⟩⟩⟩
    let after := s.perform (bytes "t") (.currentUser (bytes "eve") [] []) ⟨0, none⟩
      (some "database is locked")
    s.users.lookup (bytes "admin") = some user ∧ after.users.lookup (bytes "admin") = none ∧
      (after.users.lookup (bytes "eve")).isSome ∧
      after.sessions.lookup (bytes "t") = some ⟨bytes "t", bytes "eve", ⟨10, none⟩⟩ := by
  decide +kernel

end WorkMesh.Account
