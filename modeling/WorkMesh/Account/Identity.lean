import WorkMesh.Account.Core
import WorkMesh.StateMachine.Handlers

/-!
# A session belongs to one user

Any number of users sign in, sign out, rename themselves and change their
passwords, in any order. What signing in returned is kept beside the tables,
with the tokens that were signed out or found expired.
-/

namespace WorkMesh.Account

open Encoding StateMachine

/-- The service, the sessions that signing in returned and the tokens that have ended. -/
structure Host where
  core : CoreService
  issued : List Session := []
  ended : List Bytes := []

inductive Request where
  | login (name password : Bytes)
  | logout (sessionID : Bytes)
  | current (sessionID : Bytes) (now : Time)
  | update (sessionID name oldPassword newPassword : Bytes) (now : Time)
      (saveError : Option String)

namespace Host

def arrive (h : Host) : Request → Host × Option User
  | .login name password =>
      match h.core.checkLogin name password with
      | .ok user => (h, some user)
      | .error _ => (h, none)
  | .logout sessionID =>
      ({ h with core := h.core.logout sessionID, ended := sessionID :: h.ended }, none)
  | .current sessionID now =>
      let core := (h.core.current sessionID now).1
      let dropped := (h.core.sessions.lookup sessionID).isSome &&
        (core.sessions.lookup sessionID).isNone
      ({ h with core, ended := if dropped then sessionID :: h.ended else h.ended }, none)
  | .update sessionID name oldPassword newPassword now saveError =>
      let core :=
        (h.core.updateCurrentUser sessionID name oldPassword newPassword now saveError).1
      ({ h with core }, none)

/-- A login that has read its user stores a session under a token drawn since. -/
def resume (h : Host) (user : User) (drawn : Bytes × Time) : Host × Option User :=
  let session := CoreService.newSession user drawn.1 drawn.2
  ({ h with core := h.core.storeSession session, issued := session :: h.issued }, none)

def sections : Sections Host User Request (Bytes × Time) := ⟨arrive, resume⟩

end Host

/-- A system with no sessions yet. Every user is kept by name and has an identifier of its own. -/
structure Accounts where
  users : Table Bytes User
  keyed : ∀ key user, users.lookup key = some user → user.name = key
  distinct : ∀ key other user user', users.lookup key = some user →
    users.lookup other = some user' → user.id = user'.id → key = other

/-- The accounts of a new service. -/
def Accounts.new (adminName adminPassword : Bytes) : Accounts where
  users := (CoreService.new adminName adminPassword).users
  keyed := by
    intro key user huser
    rw [CoreService.new, Table.lookup_singleton] at huser
    split at huser
    · rename_i hkey
      rw [← Option.some.inj huser, hkey]
    · cases huser
  distinct := by
    intro key other user user' huser huser' _
    rw [CoreService.new, Table.lookup_singleton] at huser huser'
    split at huser
    · split at huser'
      · rename_i hkey hother
        rw [hkey, hother]
      · cases huser'
    · cases huser

abbrev System := Concurrent Host User

abbrev Step := Turn Request (Bytes × Time)

def System.step : System → Step → System := Host.sections.step

def System.start (accounts : Accounts) : System := ⟨⟨⟨accounts.users, ∅⟩, [], []⟩, []⟩

/-! ## What is asked of the service -/

/-- Sessions resolve to the user they were issued for, and users are kept by name. -/
structure Identified (h : Host) : Prop where
  keyed : ∀ key user, h.core.users.lookup key = some user → user.name = key
  distinct : ∀ key other user user', h.core.users.lookup key = some user →
    h.core.users.lookup other = some user' → user.id = user'.id → key = other
  resolves : ∀ session ∈ h.issued, session.id ∉ h.ended → ∀ now,
    now.after session.expiresAt = false →
      ∃ user, (h.core.current session.id now).2 = .ok user ∧ user.id = session.userID
  exact : ∀ session ∈ h.issued, ∀ now user,
    (h.core.current session.id now).2 = .ok user → user.id = session.userID

/-- The name of the user that a step updates. -/
def owner (c : System) : Step → Option Bytes
  | .arrive (.update sessionID ..) => (c.shared.core.sessions.lookup sessionID).map (·.userID)
  | _ => none

/-- A step changes no record but its own user's. -/
def KeepsOthers (c : System) (turn : Step) : Prop :=
  ∀ key user, c.shared.core.users.lookup key = some user → owner c turn ≠ some key →
    (c.step turn).shared.core.users.lookup key = some user

structure IdentityKept (c : System) (turn : Step) : Prop where
  identified : Identified (c.step turn).shared
  others : KeepsOthers c turn

/-! ## When it holds -/

/-- A token that no session, and no user's key, has had before. -/
def Host.Unused (h : Host) (token : Bytes) : Prop :=
  (∀ session ∈ h.issued, session.id ≠ token) ∧ token ∉ h.ended ∧
    ∀ user ∈ h.core.users.values, user.api.key ≠ token

/-- Tokens are drawn from the random source, so none is drawn twice. -/
def Fresh (c : System) : Step → Prop
  | .resume _ drawn => c.shared.Unused drawn.1
  | .arrive _ => True

/-- A login that stores its session finds its user under its identifier, and a new name is,
once trimmed, not the name of another user. -/
def Settles (c : System) : Step → Prop
  | .resume i _ => ∀ user, c.waiting[i]? = some user →
      ∃ found, c.shared.core.users.lookup user.id = some found ∧ found.id = user.id
  | .arrive (.update sessionID name oldPassword newPassword now _) => ∀ session user,
      c.shared.core.checkUpdate sessionID name oldPassword newPassword now = .ok (session, user) →
        CoreService.renames user name = true →
          ∀ other, c.shared.core.users.lookup (trimSpace name) = some other →
            other.name = user.name
  | .arrive _ => True

/-! ## The invariant -/

/-- Each stored session is one that was issued and leads to its user, and tokens tell the
issued sessions, and these from the keys, apart. -/
structure Sound (h : Host) : Prop where
  keyed : ∀ key user, h.core.users.lookup key = some user → user.name = key
  distinct : ∀ key other user user', h.core.users.lookup key = some user →
    h.core.users.lookup other = some user' → user.id = user'.id → key = other
  stored : ∀ token session, h.core.sessions.lookup token = some session →
    ∃ first ∈ h.issued, first.id = token ∧ session.expiresAt = first.expiresAt ∧
      ∃ user, h.core.users.lookup session.userID = some user ∧ user.id = first.userID
  lasting : ∀ session ∈ h.issued, session.id ∉ h.ended →
    (h.core.sessions.lookup session.id).isSome = true
  tokens : ∀ first ∈ h.issued, ∀ second ∈ h.issued, first.id = second.id → first = second
  secret : ∀ session ∈ h.issued, ∀ user ∈ h.core.users.values, user.api.key ≠ session.id

theorem sound_start (accounts : Accounts) : Sound (System.start accounts).shared where
  keyed := accounts.keyed
  distinct := accounts.distinct
  stored := by
    intro token session hsession
    simp [System.start] at hsession
  lasting := by
    intro session hsession
    simp [System.start] at hsession
  tokens := by
    intro first hfirst
    simp [System.start] at hfirst
  secret := by
    intro session hsession
    simp [System.start] at hsession

section Current
variable {s : CoreService} {sessionID : Bytes} {session : Session} {user : User} {now : Time}

theorem current_of_stored (hsession : s.sessions.lookup sessionID = some session)
    (huser : s.users.lookup session.userID = some user)
    (hnow : now.after session.expiresAt = false) :
    (s.current sessionID now).2 = .ok (publicUser user) := by
  simp [CoreService.current, hsession, huser, hnow]

/-- A user that is resolved is found through the session, or by an enabled key. -/
theorem current_ok (h : (s.current sessionID now).2 = .ok user) :
    (∃ session found, s.sessions.lookup sessionID = some session ∧
      s.users.lookup session.userID = some found ∧ user = publicUser found) ∨
    ∃ found ∈ s.users.values, found.api.key = sessionID := by
  simp only [CoreService.current] at h
  split at h
  · split at h
    · rename_i found hfound
      have hkey := List.find?_some hfound
      simp only [Bool.and_eq_true, beq_iff_eq] at hkey
      exact .inr ⟨found, List.mem_of_find?_eq_some hfound, hkey.2⟩
    · cases h
  · rename_i session hsession
    split at h
    · cases h
    · split at h
      · rename_i found hfound
        exact .inl ⟨session, found, hsession, hfound, (Except.ok.inj h).symm⟩
      · cases h

/-- Resolving a session leaves the tables, or drops the session. -/
theorem current_fst : (s.current sessionID now).1 = s ∨
    (s.sessions.lookup sessionID).isSome = true ∧ (s.current sessionID now).1 = s.logout sessionID := by
  cases hsession : s.sessions.lookup sessionID with
  | none =>
      left
      simp only [CoreService.current, hsession]
      cases s.userOfKey sessionID <;> rfl
  | some session =>
      simp only [CoreService.current, hsession]
      by_cases hnow : now.after session.expiresAt = true
      · exact .inr ⟨rfl, by rw [if_pos hnow]⟩
      · left
        rw [if_neg hnow]
        cases s.users.lookup session.userID <;> rfl

end Current

theorem Sound.identified {h : Host} (hsound : Sound h) : Identified h where
  keyed := hsound.keyed
  distinct := hsound.distinct
  resolves := by
    intro session hmem hopen now hnow
    obtain ⟨held, hheld⟩ := Option.isSome_iff_exists.mp (hsound.lasting session hmem hopen)
    obtain ⟨first, hfirst, hid, hexpires, user, huser, howner⟩ := hsound.stored _ held hheld
    obtain rfl := hsound.tokens first hfirst session hmem hid
    exact ⟨_, current_of_stored hheld huser (hexpires ▸ hnow), howner⟩
  exact := by
    intro session hmem now user hcurrent
    cases current_ok hcurrent with
    | inl hsession =>
        obtain ⟨held, found, hheld, hfound, rfl⟩ := hsession
        obtain ⟨first, hfirst, hid, -, user, huser, howner⟩ := hsound.stored _ held hheld
        obtain rfl := hsound.tokens first hfirst session hmem hid
        obtain rfl := Option.some.inj (hfound.symm.trans huser)
        exact howner
    | inr hkey =>
        obtain ⟨found, hfound, hkey⟩ := hkey
        exact absurd hkey (hsound.secret session hmem found hfound)

/-! ## Updates of a user -/

section Update
variable {s : CoreService} {sessionID name oldPassword newPassword : Bytes} {now : Time}
variable {saveError : Option String} {session : Session} {user : User}

@[simp] theorem updatedUser_id : (CoreService.updatedUser user name newPassword).id = user.id := by
  simp only [CoreService.updatedUser]
  split <;> split <;> rfl

@[simp] theorem updatedUser_api :
    (CoreService.updatedUser user name newPassword).api = user.api := by
  simp only [CoreService.updatedUser]
  split <;> split <;> rfl

theorem updatedUser_name : (CoreService.updatedUser user name newPassword).name =
    if CoreService.renames user name then trimSpace name else user.name := by
  simp only [CoreService.updatedUser]
  split <;> split <;> rfl

theorem checkUpdate_ok
    (h : s.checkUpdate sessionID name oldPassword newPassword now = .ok (session, user)) :
    s.sessions.lookup sessionID = some session ∧ s.users.lookup session.userID = some user := by
  simp only [CoreService.checkUpdate] at h
  split at h
  · cases h
  · rename_i held hheld
    split at h
    · cases h
    · split at h
      · cases h
      · rename_i found hfound
        split at h
        · cases h
        · split at h
          · cases h
          · obtain ⟨rfl, rfl⟩ := Prod.mk.inj (Except.ok.inj h)
            exact ⟨hheld, hfound⟩

/-- What an update writes: the record moves to its new name, and the sessions follow. -/
structure Moves (s after : CoreService) (user user' : User) : Prop where
  users : ∀ key, after.users.lookup key = if key = user'.name then some user' else
    if key = user.name then none else s.users.lookup key
  sessions : ∀ token, after.sessions.lookup token = (s.sessions.lookup token).map fun active =>
    if active.userID = user.name then { active with userID := user'.name } else active

theorem moves_update
    (hcheck : s.checkUpdate sessionID name oldPassword newPassword now = .ok (session, user))
    (hkeyed : ∀ key user, s.users.lookup key = some user → user.name = key) :
    Moves s (s.updateCurrentUser sessionID name oldPassword newPassword now saveError).1 user
      (CoreService.updatedUser user name newPassword) := by
  have hname : user.name = session.userID := hkeyed _ _ (checkUpdate_ok hcheck).2
  have hafter : (s.updateCurrentUser sessionID name oldPassword newPassword now saveError).1 =
      let user' := CoreService.updatedUser user name newPassword
      let renamed := if CoreService.renames user name then s.rename session user name else s
      { renamed with users := renamed.users.insert user'.name user' } := by
    simp only [CoreService.updateCurrentUser, hcheck]
    cases saveError <;> rfl
  have hsame : ∀ active : Session, (if active.userID = user.name then
      { active with userID := user.name } else active) = active := by
    intro active
    split
    · rename_i h
      rw [← h]
    · rfl
  rw [hafter]
  constructor
  · intro key
    simp only [Table.lookup_insert]
    by_cases hrenames : CoreService.renames user name = true
    · simp only [hrenames, if_true, CoreService.rename, Table.lookup_erase]
    · have hkept : (CoreService.updatedUser user name newPassword).name = user.name := by
        rw [updatedUser_name, if_neg hrenames]
      simp only [hkept, if_neg hrenames]
      split <;> rfl
  · intro token
    simp only [updatedUser_name]
    by_cases hrenames : CoreService.renames user name = true
    · simp only [hrenames, if_true, CoreService.rename, Table.lookup_mapValues, hname]
    · simp only [if_neg hrenames, hsame, Option.map_id']

variable {after : CoreService} {user' : User}

/-- The new name is free, or the user's own. -/
def Free (s : CoreService) (user user' : User) : Prop :=
  ∀ other, s.users.lookup user'.name = some other → other.name = user.name

theorem Moves.lookup_other (h : Moves s after user user')
    (hkeyed : ∀ key user, s.users.lookup key = some user → user.name = key)
    (hfree : Free s user user') {key : Bytes} {other : User}
    (hother : s.users.lookup key = some other) (hne : key ≠ user.name) :
    after.users.lookup key = some other := by
  have hnew : key ≠ user'.name := by
    rintro rfl
    exact hne ((hkeyed _ _ hother).symm.trans (hfree other hother))
  rw [h.users, if_neg hnew, if_neg hne, hother]

theorem Moves.lookup_new (h : Moves s after user user') :
    after.users.lookup user'.name = some user' := by
  rw [h.users, if_pos rfl]

theorem Moves.lookup_some (h : Moves s after user user') {key : Bytes} {found : User}
    (hfound : after.users.lookup key = some found) :
    key = user'.name ∧ found = user' ∨ key ≠ user.name ∧ s.users.lookup key = some found := by
  rw [h.users] at hfound
  split at hfound
  · rename_i hnew
    exact .inl ⟨hnew, (Option.some.inj hfound).symm⟩
  · split at hfound
    · cases hfound
    · rename_i hne
      exact .inr ⟨hne, hfound⟩

end Update

section Keeps
variable {h : Host} {after : CoreService} {user user' : User}

/-- A session leads to its user after the user moved. -/
theorem Sound.stored_moves (hsound : Sound h) (hmoves : Moves h.core after user user')
    (hfree : Free h.core user user') (huser : h.core.users.lookup user.name = some user)
    (hid : user'.id = user.id) {token : Bytes} {session : Session}
    (hsession : after.sessions.lookup token = some session) :
    ∃ first ∈ h.issued, first.id = token ∧ session.expiresAt = first.expiresAt ∧
      ∃ found, after.users.lookup session.userID = some found ∧ found.id = first.userID := by
  rw [hmoves.sessions] at hsession
  obtain ⟨held, hheld, rfl⟩ := Option.map_eq_some_iff.mp hsession
  obtain ⟨first, hfirst, htoken, hexpires, found, hfound, howner⟩ := hsound.stored _ held hheld
  refine ⟨first, hfirst, htoken, ?_, ?_⟩
  · split <;> exact hexpires
  · by_cases hown : held.userID = user.name
    · rw [if_pos hown]
      rw [hown, huser] at hfound
      obtain rfl := Option.some.inj hfound
      exact ⟨user', hmoves.lookup_new, hid.trans howner⟩
    · rw [if_neg hown]
      exact ⟨found, hmoves.lookup_other hsound.keyed hfree hfound hown, howner⟩

/-- Identifiers still tell the users apart after one of them moved. -/
theorem Sound.distinct_moves (hsound : Sound h) (hmoves : Moves h.core after user user')
    (huser : h.core.users.lookup user.name = some user) (hid : user'.id = user.id)
    {key other : Bytes} {found found' : User} (hfound : after.users.lookup key = some found)
    (hfound' : after.users.lookup other = some found') (hsame : found.id = found'.id) :
    key = other := by
  obtain ⟨hkey, rfl⟩ | ⟨hkey, hfound⟩ := hmoves.lookup_some hfound
  · obtain ⟨hother, -⟩ | ⟨hother, hfound'⟩ := hmoves.lookup_some hfound'
    · rw [hkey, hother]
    · exact absurd (hsound.distinct _ _ _ _ hfound' huser (hsame.symm.trans hid)) hother
  · obtain ⟨-, rfl⟩ | ⟨-, hfound'⟩ := hmoves.lookup_some hfound'
    · exact absurd (hsound.distinct _ _ _ _ hfound huser (hsame.trans hid)) hkey
    · exact hsound.distinct _ _ _ _ hfound hfound' hsame

theorem Sound.moves (hsound : Sound h) (hmoves : Moves h.core after user user')
    (hfree : Free h.core user user') (huser : h.core.users.lookup user.name = some user)
    (hid : user'.id = user.id) (hapi : user'.api = user.api) :
    Sound { h with core := after } where
  keyed := by
    intro key found hfound
    obtain ⟨hkey, rfl⟩ | ⟨-, hfound⟩ := hmoves.lookup_some hfound
    · exact hkey.symm
    · exact hsound.keyed key found hfound
  distinct := fun _ _ _ _ hfound hfound' => hsound.distinct_moves hmoves huser hid hfound hfound'
  stored := fun _ _ hsession => hsound.stored_moves hmoves hfree huser hid hsession
  lasting := by
    intro session hmem hopen
    rw [hmoves.sessions, Option.isSome_map]
    exact hsound.lasting session hmem hopen
  tokens := hsound.tokens
  secret := by
    intro session hmem found hfound
    obtain ⟨key, hkey⟩ := Table.mem_values.mp hfound
    obtain ⟨-, rfl⟩ | ⟨-, hold⟩ := hmoves.lookup_some hkey
    · rw [hapi]
      exact hsound.secret session hmem user (Table.mem_values.mpr ⟨_, huser⟩)
    · exact hsound.secret session hmem found (Table.mem_values.mpr ⟨key, hold⟩)

/-- A session that ends leaves the others. -/
theorem Sound.logout (hsound : Sound h) (token : Bytes) :
    Sound { h with core := h.core.logout token, ended := token :: h.ended } where
  keyed := hsound.keyed
  distinct := hsound.distinct
  stored := by
    intro other session hsession
    rw [CoreService.logout, Table.lookup_erase] at hsession
    split at hsession
    · cases hsession
    · exact hsound.stored other session hsession
  lasting := by
    intro session hmem hopen
    rw [List.mem_cons, not_or] at hopen
    rw [CoreService.logout, Table.lookup_erase, if_neg hopen.1]
    exact hsound.lasting session hmem hopen.2
  tokens := hsound.tokens
  secret := hsound.secret

/-- A session for a user that is found under its identifier. -/
theorem Sound.store (hsound : Sound h) {token : Bytes} (now : Time) {found : User}
    (hunused : h.Unused token) (hfound : h.core.users.lookup user.id = some found)
    (hid : found.id = user.id) : Sound (h.resume user (token, now)).1 where
  keyed := hsound.keyed
  distinct := hsound.distinct
  stored := by
    intro other session hsession
    simp only [Host.resume, CoreService.storeSession, Table.lookup_insert] at hsession
    split at hsession
    · rename_i hother
      obtain rfl := Option.some.inj hsession
      exact ⟨_, List.mem_cons_self, hother.symm, rfl, found, hfound, hid⟩
    · obtain ⟨first, hfirst, hrest⟩ := hsound.stored other session hsession
      exact ⟨first, List.mem_cons_of_mem _ hfirst, hrest⟩
  lasting := by
    intro session hmem hopen
    simp only [Host.resume, CoreService.storeSession, Table.lookup_insert]
    split
    · rfl
    · rename_i hne
      cases List.mem_cons.mp hmem with
      | inl hnew => exact absurd (congrArg Session.id hnew) hne
      | inr hold => exact hsound.lasting session hold hopen
  tokens := by
    intro first hfirst second hsecond hsame
    cases List.mem_cons.mp hfirst with
    | inl hnew =>
        cases List.mem_cons.mp hsecond with
        | inl hnew' => rw [hnew, hnew']
        | inr hold => exact absurd (hsame.symm.trans (congrArg Session.id hnew)) (hunused.1 _ hold)
    | inr hold =>
        cases List.mem_cons.mp hsecond with
        | inl hnew => exact absurd (hsame.trans (congrArg Session.id hnew)) (hunused.1 _ hold)
        | inr hold' => exact hsound.tokens _ hold _ hold' hsame
  secret := by
    intro session hmem other hother
    cases List.mem_cons.mp hmem with
    | inl hnew => exact hnew ▸ hunused.2.2 other hother
    | inr hold => exact hsound.secret session hold other hother

end Keeps

/-! ## Steps -/

section Steps
variable {c : System} {turn : Step}

theorem step_arrive (request : Request) :
    (c.step (.arrive request)).shared = (c.shared.arrive request).1 := rfl

theorem step_resume {i : Nat} {user : User} (drawn : Bytes × Time)
    (hi : c.waiting[i]? = some user) :
    (c.step (.resume i drawn)).shared = (c.shared.resume user drawn).1 := by
  simp [System.step, Sections.step, hi, Host.sections]

theorem step_resume_none {i : Nat} (drawn : Bytes × Time) (hi : c.waiting[i]? = none) :
    (c.step (.resume i drawn)).shared = c.shared := by
  simp [System.step, Sections.step, hi]

/-- An update that is refused changes nothing, and one that is not moves the user. -/
theorem update_cases (hsound : Sound c.shared)
    {sessionID name oldPassword newPassword : Bytes} {now : Time} {saveError : Option String}
    (hturn : turn = .arrive (.update sessionID name oldPassword newPassword now saveError)) :
    (c.step turn).shared = c.shared ∨ ∃ session user after,
      c.shared.core.checkUpdate sessionID name oldPassword newPassword now = .ok (session, user) ∧
        (c.step turn).shared = { c.shared with core := after } ∧
        Moves c.shared.core after user (CoreService.updatedUser user name newPassword) ∧
        c.shared.core.users.lookup user.name = some user ∧ owner c turn = some user.name := by
  subst hturn
  cases hcheck : c.shared.core.checkUpdate sessionID name oldPassword newPassword now with
  | error message =>
      left
      simp [step_arrive, Host.arrive, CoreService.updateCurrentUser, hcheck]
  | ok found =>
      obtain ⟨session, user⟩ := found
      obtain ⟨hsession, huser⟩ := checkUpdate_ok hcheck
      have hname := hsound.keyed _ _ huser
      exact .inr ⟨session, user, _, rfl, rfl, moves_update hcheck hsound.keyed,
        hname ▸ huser, by simp [owner, hsession, hname]⟩

/-- The new name is free under the condition. -/
theorem Settles.free (hsound : Sound c.shared)
    {sessionID name oldPassword newPassword : Bytes} {now : Time} {saveError : Option String}
    (hsettles : Settles c
      (.arrive (.update sessionID name oldPassword newPassword now saveError)))
    {session : Session} {user : User} (hcheck : c.shared.core.checkUpdate sessionID name
      oldPassword newPassword now = .ok (session, user)) :
    Free c.shared.core user (CoreService.updatedUser user name newPassword) := by
  intro other hother
  rw [updatedUser_name] at hother
  by_cases hrenames : CoreService.renames user name = true
  · rw [if_pos hrenames] at hother
    exact hsettles session user hcheck hrenames other hother
  · rw [if_neg hrenames] at hother
    exact hsound.keyed _ _ hother

theorem sound_step (hsound : Sound c.shared) (hsettles : Settles c turn) (hfresh : Fresh c turn) :
    Sound (c.step turn).shared := by
  cases turn with
  | resume i drawn =>
      cases hi : c.waiting[i]? with
      | none => rwa [step_resume_none drawn hi]
      | some user =>
          obtain ⟨found, hfound, hid⟩ := hsettles user hi
          rw [step_resume drawn hi]
          exact hsound.store drawn.2 hfresh hfound hid
  | arrive request =>
      cases request with
      | login name password =>
          rw [step_arrive]
          simp only [Host.arrive]
          split <;> exact hsound
      | logout token => exact hsound.logout token
      | current token now =>
          rw [step_arrive]
          simp only [Host.arrive]
          cases @current_fst c.shared.core token now with
          | inl hkept =>
              have hdropped : ((c.shared.core.sessions.lookup token).isSome &&
                  (c.shared.core.sessions.lookup token).isNone) = false := by
                cases c.shared.core.sessions.lookup token <;> rfl
              rw [hkept, hdropped]
              exact hsound
          | inr hgone =>
              rw [hgone.2, hgone.1]
              simpa [CoreService.logout] using hsound.logout token
      | update sessionID name oldPassword newPassword now saveError =>
          cases update_cases hsound rfl with
          | inl hkept => rwa [hkept]
          | inr hmoved =>
              obtain ⟨session, user, after, hcheck, hafter, hmoves, huser, -⟩ := hmoved
              rw [hafter]
              exact hsound.moves hmoves (hsettles.free hsound hcheck) huser updatedUser_id
                updatedUser_api

/-- Only an update writes the users. -/
theorem users_step (hturn : owner c turn = none) :
    (c.step turn).shared.core.users = c.shared.core.users := by
  cases turn with
  | resume i drawn =>
      cases hi : c.waiting[i]? with
      | none => rw [step_resume_none drawn hi]
      | some user =>
          rw [step_resume drawn hi]
          rfl
  | arrive request =>
      rw [step_arrive]
      cases request with
      | login name password =>
          simp only [Host.arrive]
          split <;> rfl
      | logout token => rfl
      | current token now =>
          simp only [Host.arrive]
          cases @current_fst c.shared.core token now with
          | inl hkept => rw [hkept]
          | inr hgone => rw [hgone.2]; rfl
      | update sessionID name oldPassword newPassword now saveError =>
          have hnone : c.shared.core.sessions.lookup sessionID = none := by
            simpa [owner] using hturn
          simp [Host.arrive, CoreService.updateCurrentUser, CoreService.checkUpdate, hnone]

theorem keepsOthers_of_settles (hsound : Sound c.shared) (hsettles : Settles c turn) :
    KeepsOthers c turn := by
  intro key user huser hother
  cases howner : owner c turn with
  | none => rwa [users_step howner]
  | some name =>
      cases turn with
      | resume i drawn => simp [owner] at howner
      | arrive request =>
          cases request with
          | login name password => simp [owner] at howner
          | logout token => simp [owner] at howner
          | current token now => simp [owner] at howner
          | update sessionID name oldPassword newPassword now saveError =>
              cases update_cases hsound rfl with
              | inl hkept => rwa [hkept]
              | inr hmoved =>
                  obtain ⟨session, renamed, after, hcheck, hafter, hmoves, -, hown⟩ := hmoved
                  rw [hown] at hother
                  rw [hafter]
                  exact hmoves.lookup_other hsound.keyed (hsettles.free hsound hcheck) huser
                    fun hkey => hother (congrArg some hkey.symm)

/-- A step that keeps the property finds its users where the condition says. -/
theorem settles_of_identityKept (hsound : Sound c.shared) (hfresh : Fresh c turn)
    (hkept : IdentityKept c turn) : Settles c turn := by
  cases turn with
  | resume i drawn =>
      intro user hi
      have hafter := hkept.identified
      rw [step_resume drawn hi] at hafter
      have hopen : drawn.1 ∉ (c.shared.resume user drawn).1.ended := hfresh.2.1
      have hnow : drawn.2.after (CoreService.newSession user drawn.1 drawn.2).expiresAt = false :=
        Time.after_add_self (by decide)
      obtain ⟨found, hcurrent, hid⟩ := hafter.resolves _ List.mem_cons_self hopen drawn.2 hnow
      cases current_ok hcurrent with
      | inl hsession =>
          obtain ⟨session, record, hsession, hrecord, rfl⟩ := hsession
          have hstored : session = CoreService.newSession user drawn.1 drawn.2 := by
            simpa [Host.resume, CoreService.storeSession, Table.lookup_insert, eq_comm]
              using hsession
          exact ⟨record, by rwa [hstored] at hrecord, hid⟩
      | inr hkey =>
          obtain ⟨record, hrecord, hkey⟩ := hkey
          exact absurd hkey (hfresh.2.2 record hrecord)
  | arrive request =>
      cases request with
      | login name password => trivial
      | logout token => trivial
      | current token now => trivial
      | update sessionID name oldPassword newPassword now saveError =>
          intro session user hcheck hrenames other hother
          have hsession := checkUpdate_ok hcheck
          have hname := hsound.keyed _ _ hsession.2
          have hmoves := @moves_update _ _ _ _ _ _ saveError _ _ hcheck hsound.keyed
          have hnew : (CoreService.updatedUser user name newPassword).name = trimSpace name := by
            rw [updatedUser_name, if_pos hrenames]
          -- A record that the new name takes the place of would be lost.
          by_contra hne
          have hkey := hsound.keyed _ _ hother
          have howner : owner c (.arrive (.update sessionID name oldPassword newPassword now
              saveError)) ≠ some (trimSpace name) := by
            simp only [owner, hsession.1, Option.map_some, ← hname]
            exact fun heq => hne (hkey.trans (Option.some.inj heq).symm)
          have hkept := hkept.others _ other hother howner
          have hfound := hmoves.lookup_new
          rw [hnew] at hfound
          obtain rfl := Option.some.inj (hkept.symm.trans hfound)
          exact hne (hkey.trans (hsound.distinct _ _ _ _ hother (hname ▸ hsession.2)
            updatedUser_id))

end Steps

/-- In every run, sessions resolve to their users and renames keep the others if and only if
each login finds its user under its identifier and no trimmed name is another user's. -/
theorem sessions_identify_iff (accounts : Accounts) (turns : List Step)
    (hfresh : Meets System.step Fresh (System.start accounts) turns) :
    Meets System.step IdentityKept (System.start accounts) turns ↔
      Meets System.step Settles (System.start accounts) turns := by
  have hcongr : Meets System.step (fun c turn => IdentityKept c turn ∧ Fresh c turn)
      (System.start accounts) turns ↔
        Meets System.step (fun c turn => Settles c turn ∧ Fresh c turn)
          (System.start accounts) turns := by
    refine meets_congr (P := fun c => Sound c.shared)
      (fun c turn hsound h => sound_step hsound h.1 h.2) (fun c turn hsound => ?_)
      (sound_start accounts)
    constructor
    · rintro ⟨hkept, hfresh⟩
      exact ⟨settles_of_identityKept hsound hfresh hkept, hfresh⟩
    · rintro ⟨hsettles, hfresh⟩
      exact ⟨⟨(sound_step hsound hsettles hfresh).identified,
        keepsOthers_of_settles hsound hsettles⟩, hfresh⟩
  constructor
  · intro hkept
    exact (hcongr.mp (hkept.and hfresh)).mono fun c turn h => h.1
  · intro hsettles
    exact (hcongr.mpr (hsettles.and hfresh)).mono fun c turn h => h.1

/-! ## A name that is given up -/

/-- Signs in as the administrator. -/
def signIn : List Step :=
  [.arrive (.login (bytes "admin") (bytes "admin")), .resume 0 (bytes "first", ⟨0, none⟩)]

/-- Takes another name, and signs in under it. -/
def renameAndSignIn : List Step :=
  [.arrive (.update (bytes "first") (bytes "root") [] [] ⟨0, none⟩ none),
    .arrive (.login (bytes "root") (bytes "admin")), .resume 0 (bytes "second", ⟨0, none⟩)]

/-- The administrator of a new service. -/
def adminUser : User :=
  { id := bytes "admin", name := bytes "admin", role := bytes "ADMIN",
    password := hashPassword (bytes "admin"), groups := [bytes "administrators"] }

/-- The session of a sign-in at the epoch. -/
def sessionOf (user : User) (token : Bytes) : Session :=
  CoreService.newSession user token ⟨0, none⟩

theorem step_login {c : System} {name password : Bytes} {user : User}
    (huser : c.shared.core.users.lookup name = some user)
    (hpassword : user.password = hashPassword password) :
    c.step (.arrive (.login name password)) = ⟨c.shared, user :: c.waiting⟩ := by
  have hverified : verifyPassword user.password password = true := by
    rw [hpassword, verifyPassword, decide_eq_true rfl]
  simp [System.step, Sections.step, Host.sections, Host.arrive, CoreService.checkLogin, huser,
    hverified]

theorem lookup_adminUser :
    (System.start (.new (bytes "admin") (bytes "admin"))).shared.core.users.lookup
      (bytes "admin") = some adminUser := by
  simp [System.start, Accounts.new, CoreService.new, Table.lookup_singleton, adminUser]

/-- The system after the administrator signed in. -/
def signedIn : System :=
  ⟨⟨⟨(Accounts.new (bytes "admin") (bytes "admin")).users,
    AList.insert (bytes "first") (sessionOf adminUser (bytes "first")) ∅⟩,
    [sessionOf adminUser (bytes "first")], []⟩, []⟩

theorem run_signIn :
    run System.step (System.start (.new (bytes "admin") (bytes "admin"))) signIn = signedIn := by
  rw [signIn, run_cons, step_login lookup_adminUser rfl]
  rfl

theorem fresh_signIn :
    Meets System.step Fresh (System.start (.new (bytes "admin") (bytes "admin"))) signIn := by
  rw [signIn, Meets, step_login lookup_adminUser rfl]
  refine ⟨trivial, ?_, trivial⟩
  rw [Fresh, Host.Unused]
  refine ⟨(fun session hmem => by cases hmem), by simp [System.start], fun user huser => ?_⟩
  obtain ⟨key, hkey⟩ := Table.mem_values.mp huser
  obtain ⟨-, rfl⟩ : key = bytes "admin" ∧ adminUser = user := by
    simpa [System.start, Accounts.new, CoreService.new, Table.lookup_singleton, adminUser]
      using hkey
  decide +kernel

theorem sessions_identify_signIn :
    Meets System.step IdentityKept (System.start (.new (bytes "admin") (bytes "admin")))
      signIn := by
  refine (sessions_identify_iff _ _ fresh_signIn).mpr ?_
  rw [signIn, Meets, step_login lookup_adminUser rfl]
  refine ⟨trivial, fun user huser => ?_, trivial⟩
  obtain rfl : adminUser = user := by simpa [System.start] using huser
  exact ⟨adminUser, lookup_adminUser, rfl⟩

/-- Under the name it took, the administrator gets a session that leads to no user. -/
theorem session_lost_after_rename :
    ¬Meets System.step IdentityKept (System.start (.new (bytes "admin") (bytes "admin")))
      (signIn ++ renameAndSignIn) := by
  have hroot : bytes "root" ≠ bytes "admin" := by decide +kernel
  have htrim : trimSpace (bytes "root") = bytes "root" := by decide +kernel
  have hnew : trimSpace (bytes "root") ≠ [] := by decide +kernel
  have hrenames : CoreService.renames adminUser (bytes "root") = true := by
    simpa [CoreService.renames, adminUser, hroot] using hnew
  have hkeyed : ∀ key user, signedIn.shared.core.users.lookup key = some user → user.name = key :=
    (Accounts.new (bytes "admin") (bytes "admin")).keyed
  have hfirst : signedIn.shared.core.sessions.lookup (bytes "first") =
      some (sessionOf adminUser (bytes "first")) := AList.lookup_insert _
  have hcheck : signedIn.shared.core.checkUpdate (bytes "first") (bytes "root") [] [] ⟨0, none⟩ =
      .ok (sessionOf adminUser (bytes "first"), adminUser) := by
    have hadmin : signedIn.shared.core.users.lookup
        (sessionOf adminUser (bytes "first")).userID = some adminUser := lookup_adminUser
    have hfree : signedIn.shared.core.users.lookup (bytes "root") = none := by
      simp [signedIn, Accounts.new, CoreService.new, Table.lookup_singleton, hroot]
    have hnow : (⟨0, none⟩ : Time).after (sessionOf adminUser (bytes "first")).expiresAt = false :=
      Time.after_add_self (by decide)
    simp [CoreService.checkUpdate, hfirst, hadmin, hfree, hnow]
  have hmoves := @moves_update _ _ _ _ _ _ none _ _ hcheck hkeyed
  generalize hafter : (signedIn.shared.core.updateCurrentUser (bytes "first") (bytes "root") [] []
    ⟨0, none⟩ none).1 = after at hmoves
  generalize huser : CoreService.updatedUser adminUser (bytes "root") [] = user at hmoves
  have hname : user.name = bytes "root" := by rw [← huser, updatedUser_name, if_pos hrenames, htrim]
  have hpassword : user.password = hashPassword (bytes "admin") := by
    rw [← huser, CoreService.updatedUser, if_pos hrenames]
    rfl
  have hid : user.id = bytes "admin" := by rw [← huser, updatedUser_id]; rfl
  have hstep : signedIn.step (.arrive (.update (bytes "first") (bytes "root") [] [] ⟨0, none⟩ none)) =
      ⟨{ signedIn.shared with core := after }, []⟩ := by
    rw [← hafter]
    rfl
  have hlogin : System.step ⟨{ signedIn.shared with core := after }, []⟩
      (.arrive (.login (bytes "root") (bytes "admin"))) =
        ⟨{ signedIn.shared with core := after }, [user]⟩ :=
    step_login (hname ▸ hmoves.lookup_new) hpassword
  intro hkept
  have hkept := (meets_append.mp hkept).2
  rw [run_signIn, renameAndSignIn, Meets, Meets, Meets, hstep, hlogin] at hkept
  have hlast := hkept.2.2.1.identified
  rw [step_resume _ rfl] at hlast
  have hnow : (⟨0, none⟩ : Time).after (sessionOf user (bytes "second")).expiresAt = false :=
    Time.after_add_self (by decide)
  obtain ⟨found, hcurrent, -⟩ := hlast.resolves _ List.mem_cons_self (by simp [Host.resume, signedIn])
    ⟨0, none⟩ hnow
  have hgone : after.users.lookup (bytes "admin") = none := by
    rw [hmoves.users, if_neg (hname ▸ hroot.symm)]
    exact if_pos rfl
  have hstored : (after.storeSession (sessionOf user (bytes "second"))).sessions.lookup
      (bytes "second") = some (sessionOf user (bytes "second")) := AList.lookup_insert _
  have hlost : (after.storeSession (sessionOf user (bytes "second"))).users.lookup
      (sessionOf user (bytes "second")).userID = none := by
    have hkey : (sessionOf user (bytes "second")).userID = bytes "admin" := hid
    rw [hkey]
    exact hgone
  have herror : ((after.storeSession (sessionOf user (bytes "second"))).current (bytes "second")
      ⟨0, none⟩).2 = .error "会话用户不存在" := by
    simp [CoreService.current, hstored, hlost, hnow]
  cases herror.symm.trans hcurrent

end WorkMesh.Account
