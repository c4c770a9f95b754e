import WorkMesh.Mysql.Server

/-!
# Exact changes of privileges

A grant reaches every database that the name matches as a pattern, a revocation every
database there is. A creation that fails is undone when its first statements are heard of
and its last ones are not refused.
-/

namespace WorkMesh.Mysql

open Encoding

/-! ## Rows -/

section Rows
variable {π : Type} {a : Account π} {rows : List (Row π)} {row : Row π} {database pattern : Bytes}

theorem rank_injective : Function.Injective rank := by
  intro p q h
  have hmap := congrArg (fun r => (ofLex r).2) h
  exact List.map_injective_iff.mpr (fun _ _ => UInt8.toNat_inj.mp) hmap

/-- The row that counts is the greatest of those that match. -/
theorem bestRow_iff (hnodup : (rows.map Row.pattern).Nodup) :
    bestRow database rows = some row ↔ row ∈ rows ∧ likes row.pattern database = true ∧
      ∀ other ∈ rows, likes other.pattern database = true → rank other.pattern ≤ rank row.pattern := by
  have hbest : ∀ {row}, bestRow database rows = some row → row ∈ rows ∧
      likes row.pattern database = true ∧ ∀ other ∈ rows, likes other.pattern database = true →
        rank other.pattern ≤ rank row.pattern := by
    intro row h
    obtain ⟨hrow, hlikes⟩ := List.mem_filter.mp (List.argmax_mem h)
    exact ⟨hrow, hlikes, fun other hother hmatch =>
      List.le_of_mem_argmax (f := fun row : Row π => rank row.pattern)
        (List.mem_filter.mpr ⟨hother, hmatch⟩) h⟩
  refine ⟨hbest, fun ⟨hrow, hlikes, hgreatest⟩ => ?_⟩
  cases hfound : bestRow database rows with
  | none =>
      have hnil := List.argmax_eq_none.mp hfound
      have hmem : row ∈ rows.filter fun row => likes row.pattern database :=
        List.mem_filter.mpr ⟨hrow, hlikes⟩
      rw [hnil] at hmem
      cases hmem
  | some other =>
      obtain ⟨hother, hmatch, hmax⟩ := hbest hfound
      have hrank := le_antisymm (hgreatest other hother hmatch) (hmax row hrow hlikes)
      rw [List.inj_on_of_nodup_map hnodup hother hrow (rank_injective hrank)]

theorem bestRow_ne_none (hrow : row ∈ rows) (hlikes : likes row.pattern database = true) :
    bestRow database rows ≠ none := by
  intro hnone
  have hmem : row ∈ rows.filter fun row => likes row.pattern database :=
    List.mem_filter.mpr ⟨hrow, hlikes⟩
  rw [List.argmax_eq_none.mp hnone] at hmem
  cases hmem

/-- A row that is not matched changes nothing. -/
theorem bestRow_granted_other (h : likes pattern database = false) :
    bestRow database (a.granted pattern).rows = bestRow database a.rows := by
  unfold bestRow Account.granted
  dsimp only
  rw [List.filter_cons, h, if_neg Bool.false_ne_true, List.filter_filter]
  congr 1
  refine List.filter_congr fun row _ => ?_
  by_cases heq : row.pattern = pattern
  · simp [heq, h]
  · simp [heq]

/-- A row below another that is matched changes nothing. -/
theorem bestRow_granted_outranked
    (h : ∃ row ∈ a.rows, likes row.pattern database = true ∧ rank pattern < rank row.pattern) :
    bestRow database (a.granted pattern).rows = bestRow database a.rows := by
  obtain ⟨row, hrow, hlikes, hrank⟩ := h
  obtain ⟨best, hbest⟩ := Option.ne_none_iff_exists'.mp (bestRow_ne_none hrow hlikes)
  obtain ⟨hmem, hmatch, hgreatest⟩ := (bestRow_iff a.nodup).mp hbest
  have habove : rank pattern < rank best.pattern := hrank.trans_le (hgreatest row hrow hlikes)
  rw [hbest, bestRow_iff (a.granted pattern).nodup]
  refine ⟨?_, hmatch, fun other hother hother' => ?_⟩
  · refine List.mem_cons_of_mem _ (List.mem_filter.mpr ⟨hmem, ?_⟩)
    rw [decide_eq_true_eq]
    rintro heq
    rw [heq] at habove
    exact lt_irrefl _ habove
  · obtain rfl | hold := List.mem_cons.mp hother
    · exact habove.le
    · exact hgreatest other (List.mem_filter.mp hold).1 hother'

/-- A row above all others that are matched counts. -/
theorem bestRow_granted_best (hlikes : likes pattern database = true)
    (h : ¬ ∃ row ∈ a.rows, likes row.pattern database = true ∧ rank pattern < rank row.pattern) :
    bestRow database (a.granted pattern).rows = some ⟨pattern, allPrivileges⟩ := by
  rw [bestRow_iff (a.granted pattern).nodup]
  refine ⟨List.mem_cons_self, hlikes, fun other hother hmatch => ?_⟩
  obtain rfl | hold := List.mem_cons.mp hother
  · exact le_rfl
  · by_contra hbelow
    exact h ⟨other, (List.mem_filter.mp hold).1, hmatch, not_le.mp hbelow⟩

/-- A grant leaves the privileges on a database if and only if its row does not match, or another
row counts, or all privileges are there already. -/
theorem allowed_granted_iff : (a.granted pattern).allowed database = a.allowed database ↔
    (likes pattern database = true →
      (∃ row ∈ a.rows, likes row.pattern database = true ∧ rank pattern < rank row.pattern) ∨
        a.allowed database = allPrivileges) := by
  have hsame : bestRow database (a.granted pattern).rows = bestRow database a.rows →
      (a.granted pattern).allowed database = a.allowed database := by
    intro h
    unfold Account.allowed
    rw [h]
    rfl
  constructor
  · intro h hlikes
    by_cases houtranked : ∃ row ∈ a.rows, likes row.pattern database = true ∧
        rank pattern < rank row.pattern
    · exact .inl houtranked
    · refine .inr (h.symm.trans (funext fun p => ?_))
      unfold Account.allowed
      rw [bestRow_granted_best hlikes houtranked]
      simp [allPrivileges]
  · intro h
    by_cases hlikes : likes pattern database = true
    · by_cases houtranked : ∃ row ∈ a.rows, likes row.pattern database = true ∧
          rank pattern < rank row.pattern
      · exact hsame (bestRow_granted_outranked houtranked)
      · rw [(h hlikes).resolve_left houtranked]
        funext p
        unfold Account.allowed
        rw [bestRow_granted_best hlikes houtranked]
        simp [allPrivileges]
    · exact hsame (bestRow_granted_other (Bool.not_eq_true _ ▸ hlikes))

theorem allowed_revoked : a.revoked.allowed database = noPrivileges := by
  funext p
  rfl

end Rows

/-! ## Accounts -/

/-- The names stand for one account. -/
def SameAccount (user host user' host' : Bytes) : Prop := user = user' ∧ toLower host = toLower host'

instance (user host user' host' : Bytes) : Decidable (SameAccount user host user' host') :=
  inferInstanceAs (Decidable (_ ∧ _))

section Change
variable {π : Type} {s after : Server π} {user host u h : Bytes} {f : Account π → Account π}
  {a : Account π}

theorem is_iff : a.is user host = true ↔ a.user = user ∧ a.host = toLower host := by
  simp [Account.is]

/-- A change of one account keeps its names and its password. -/
structure KeepsIdentity (f : Account π → Account π) : Prop where
  user : ∀ a, (f a).user = a.user
  host : ∀ a, (f a).host = a.host
  password : ∀ a, (f a).password = a.password

theorem keeps_granted (database : Bytes) :
    KeepsIdentity fun a : Account π => a.granted database := ⟨fun _ => rfl, fun _ => rfl, fun _ => rfl⟩

theorem keeps_revoked : KeepsIdentity (Account.revoked : Account π → Account π) :=
  ⟨fun _ => rfl, fun _ => rfl, fun _ => rfl⟩

theorem KeepsIdentity.is (hf : KeepsIdentity f) (a : Account π) :
    (if a.is user host then f a else a).is u h = a.is u h := by
  split
  · rw [Account.is, Account.is, hf.user, hf.host]
  · rfl

theorem account_change (hf : KeepsIdentity f) (hchange : s.change user host f = some after) :
    after.account u h =
      if SameAccount u h user host then (s.account u h).map f else s.account u h := by
  unfold Server.change at hchange
  split at hchange
  · cases hchange
    unfold Server.account
    rw [List.find?_map]
    have hfind : ((fun a : Account π => a.is u h) ∘ fun a => if a.is user host then f a else a) =
        fun a => a.is u h := funext fun a => hf.is a
    rw [hfind]
    cases hfound : s.accounts.find? (·.is u h) with
    | none => split <;> rfl
    | some a =>
        obtain ⟨huser, hhost⟩ := is_iff.mp (List.find?_some hfound)
        rw [Option.map_some, Option.map_some]
        by_cases hsame : SameAccount u h user host
        · rw [if_pos hsame, if_pos (is_iff.mpr ⟨huser.trans hsame.1, hhost.trans hsame.2⟩)]
        · rw [if_neg hsame, if_neg]
          intro his
          obtain ⟨huser', hhost'⟩ := is_iff.mp his
          exact hsame ⟨huser.symm.trans huser', hhost.symm.trans hhost'⟩
  · cases hchange

/-- Only the privileges of one account on one database differ. -/
structure OnlyOn (user host database : Bytes) (s after : Server π) : Prop where
  databases : after.databases = s.databases
  accounts : after.accounts.map (fun a => (a.user, a.host, a.password)) =
    s.accounts.map fun a => (a.user, a.host, a.password)
  others : ∀ u h d, ¬ SameAccount u h user host → after.allowed u h d = s.allowed u h d
  elsewhere : ∀ d, d ≠ database → after.allowed user host d = s.allowed user host d

theorem onlyOn_refl (user host database : Bytes) (s : Server π) :
    OnlyOn user host database s s := ⟨rfl, rfl, fun _ _ _ _ => rfl, fun _ _ => rfl⟩

/-- A change of one account differs on one database only if and only if it keeps what the account
may do on the others. -/
theorem onlyOn_change_iff {database : Bytes} (hf : KeepsIdentity f)
    (haccount : s.account user host = some a) (hchange : s.change user host f = some after) :
    OnlyOn user host database s after ↔ ∀ d, d ≠ database → (f a).allowed d = a.allowed d := by
  have hself : ∀ d, after.allowed user host d = (f a).allowed d := by
    intro d
    unfold Server.allowed
    rw [account_change hf hchange, if_pos ⟨rfl, rfl⟩, haccount]
    rfl
  have hbefore : ∀ d, s.allowed user host d = a.allowed d := by
    intro d
    unfold Server.allowed
    rw [haccount]
  have hshape : after =
      { s with accounts := s.accounts.map (fun b => if b.is user host then f b else b) } := by
    unfold Server.change at hchange
    rw [haccount, Option.isSome_some, if_pos rfl] at hchange
    exact (Option.some.inj hchange).symm
  constructor
  · intro h d hd
    rw [← hself, ← hbefore]
    exact h.elsewhere d hd
  · intro h
    refine ⟨by rw [hshape], ?_, fun u h' d hother => ?_, fun d hd => ?_⟩
    · rw [hshape, List.map_map]
      refine List.map_congr_left fun b _ => ?_
      rw [Function.comp_apply]
      split
      · rw [hf.user, hf.host, hf.password]
      · rfl
    · unfold Server.allowed
      rw [account_change hf hchange, if_neg hother]
    · rw [hself, hbefore]
      exact h d hd

end Change

/-! ## One statement -/

section Statement
variable {π : Type} {fates : ℕ → Fate} {text : Bytes} {session : Session π}
  {statement : Statement}

theorem exec_refused (h : fates session.count = .refused) :
    exec fates text session =
      (refuse "MySQL 执行失败", { session with count := session.count + 1 }) := if_pos h

theorem exec_none (hparse : parse text = some statement)
    (happly : statement.apply session.server = none) :
    exec fates text session =
      (refuse "MySQL 执行失败", { session with count := session.count + 1 }) := by
  unfold exec
  by_cases h : fates session.count = .refused
  · rw [if_pos h]
  · rw [if_neg h]
    simp [hparse, happly]

theorem exec_some {server : Server π} (hparse : parse text = some statement)
    (h : fates session.count ≠ .refused) (happly : statement.apply session.server = some server) :
    exec fates text session =
      (if fates session.count = .unheard then refuse "MySQL 执行超时" else .ok (),
        { server, count := session.count + 1 }) := by
  unfold exec
  rw [if_neg h]
  simp [hparse, happly]

theorem Fate.done_of_heard {fate : Fate} (hrefused : fate ≠ .refused) (hunheard : fate ≠ .unheard) :
    fate = .done := by
  cases fate with
  | done => rfl
  | refused => exact absurd rfl hrefused
  | unheard => exact absurd rfl hunheard

end Statement

/-! ## Grants and revocations -/

section Privileges
variable {π : Type} (fates : ℕ → Fate) (s : Server π) (database username host : Bytes)

/-- A grant changes nothing but the privileges of the account on the named database. -/
def GrantExact : Prop :=
  OnlyOn username (grantHost host) database s
    (grantMySQLUser fates database username host ⟨s, 0⟩).2.server

/-- The grant is carried out only where the other databases that its name matches as a pattern have
a more specific row or all privileges. -/
def GrantHarmless : Prop :=
  checkGrant database username host = .ok () → fates 0 ≠ .refused →
    ∀ a, s.account username (grantHost host) = some a →
      ∀ d, d ≠ database → likes database d = true →
        (∃ row ∈ a.rows, likes row.pattern d = true ∧ rank database < rank row.pattern) ∨
          a.allowed d = allPrivileges

/-- A revocation takes the privileges of the account on the named database and nothing else. -/
def RevokeExact : Prop :=
  let out := revokeMySQLGrant fates database username host ⟨s, 0⟩
  OnlyOn username (grantHost host) database s out.2.server ∧
    (out.1 = .ok () → out.2.server.allowed username (grantHost host) database = noPrivileges)

/-- The revocation is carried out only where the account has no privileges on other databases. -/
def RevokeHarmless : Prop :=
  checkGrant database username host = .ok () → fates 0 ≠ .refused →
    ∀ a, s.account username (grantHost host) = some a →
      ∀ d, d ≠ database → a.allowed d = noPrivileges

variable {fates s database username host}

theorem change_of_none {f : Account π → Account π} {user : Bytes} (h : s.account user host = none) :
    s.change user host f = none := by
  rw [Server.change, h]
  rfl

theorem change_of_some {f : Account π → Account π} {user : Bytes} {a : Account π}
    (h : s.account user host = some a) : ∃ after, s.change user host f = some after := by
  rw [Server.change, h]
  exact ⟨_, rfl⟩

theorem grant_exact_iff :
    GrantExact fates s database username host ↔
      GrantHarmless fates s database username host := by
  unfold GrantExact GrantHarmless grantMySQLUser
  cases hcheck : checkGrant database username host with
  | error e => exact iff_of_true (onlyOn_refl _ _ _ _) nofun
  | ok _ =>
      dsimp only
      by_cases hrefused : fates 0 = .refused
      · rw [exec_refused hrefused]
        exact iff_of_true (onlyOn_refl _ _ _ _) fun _ hnot => absurd hrefused hnot
      · cases haccount : s.account username (grantHost host) with
        | none =>
            have hnone : (Statement.grantAll database username (grantHost host)).apply s = none :=
              change_of_none haccount
            rw [exec_none (parse_grant _ _ _) hnone]
            exact iff_of_true (onlyOn_refl _ _ _ _) nofun
        | some a =>
            obtain ⟨after, hafter⟩ := change_of_some (f := (·.granted database)) haccount
            have hsome : (Statement.grantAll database username (grantHost host)).apply s =
              some after := hafter
            rw [exec_some (parse_grant _ _ _) hrefused hsome]
            refine (onlyOn_change_iff (keeps_granted database) haccount hafter).trans ?_
            simp only [allowed_granted_iff]
            exact ⟨fun h _ _ b hb => Option.some.inj hb ▸ h, fun h => h trivial hrefused a rfl⟩

theorem revoke_exact_iff :
    RevokeExact fates s database username host ↔
      RevokeHarmless fates s database username host := by
  unfold RevokeExact RevokeHarmless revokeMySQLGrant
  cases hcheck : checkGrant database username host with
  | error e => exact iff_of_true ⟨onlyOn_refl _ _ _ _, nofun⟩ nofun
  | ok _ =>
      dsimp only
      by_cases hrefused : fates 0 = .refused
      · rw [exec_refused hrefused]
        exact iff_of_true ⟨onlyOn_refl _ _ _ _, nofun⟩ fun _ hnot => absurd hrefused hnot
      · cases haccount : s.account username (grantHost host) with
        | none =>
            have hnone : (Statement.revokeAll username (grantHost host)).apply s = none :=
              change_of_none haccount
            rw [exec_none (parse_revoke _ _) hnone]
            exact iff_of_true ⟨onlyOn_refl _ _ _ _, nofun⟩ nofun
        | some a =>
            obtain ⟨after, hafter⟩ := change_of_some (f := Account.revoked) haccount
            have hsome : (Statement.revokeAll username (grantHost host)).apply s =
              some after := hafter
            have hself : after.allowed username (grantHost host) database = noPrivileges := by
              unfold Server.allowed
              rw [account_change keeps_revoked hafter, if_pos ⟨rfl, rfl⟩, haccount]
              exact allowed_revoked
            rw [exec_some (parse_revoke _ _) hrefused hsome]
            refine (and_iff_left fun _ => hself).trans
              ((onlyOn_change_iff keeps_revoked haccount hafter).trans ?_)
            simp only [allowed_revoked]
            exact ⟨fun h _ _ b hb d hd => Option.some.inj hb ▸ (h d hd).symm,
              fun h d hd => (h trivial hrefused a rfl d hd).symm⟩

end Privileges

/-! ## Creations -/

section Creation
variable {π : Type} (fates : ℕ → Fate) (s : Server π)
  (name format collation username password host : Bytes) (databases : List Bytes)

/-- The name and the host of a new account are accepted. -/
def UserAccepted : Prop :=
  validateMySQLIdentifier username = .ok () ∧ validateMySQLHost (givenHost host) = .ok ()

/-- A creation of a database that ends in an error leaves the server as it was. -/
def DatabaseUndone : Prop :=
  let out := createMySQLDatabase fates name format collation username password host ⟨s, 0⟩
  ∀ e, out.1 = .error e → out.2.server = s

/-- What comes behind a new database leads to no error, or to one after which nothing but the
database has to be dropped, and that is not refused. -/
structure AccountUndoable : Prop where
  unaccepted : ¬ UserAccepted username host → fates 1 ≠ .refused
  unmade : UserAccepted username host →
    fates 1 = .refused ∨ s.account username (givenHost host) ≠ none → fates 2 ≠ .refused
  made : UserAccepted username host →
    fates 1 ≠ .refused → s.account username (givenHost host) = none →
      fates 1 = .done ∧ fates 2 = .done

/-- The statement that makes a new database is heard of, and so is what comes behind it where it
has to be. -/
def DatabaseUndoable : Prop :=
  checkDatabase name format collation = .ok () → fates 0 ≠ .refused →
    (∀ d ∈ s.databases, d.name ≠ name) →
      fates 0 = .done ∧ (trimSpace username ≠ [] → AccountUndoable fates s username host)

variable {fates s name format collation username password host}

theorem createUser_unaccepted (h : ¬ UserAccepted username host) (session : Session π) :
    ∃ e, createMySQLUserAndGrantNoDatabase fates username password host session =
      (.error e, session) := by
  unfold createMySQLUserAndGrantNoDatabase
  cases hname : validateMySQLIdentifier username with
  | error e => exact ⟨e, rfl⟩
  | ok _ =>
      dsimp only
      cases hhost : validateMySQLHost (givenHost host) with
      | error e => exact ⟨e, rfl⟩
      | ok _ => exact absurd ⟨hname, hhost⟩ h

theorem createUser_accepted (h : UserAccepted username host) (session : Session π) :
    createMySQLUserAndGrantNoDatabase fates username password host session =
      exec fates (createUserText username (givenHost host) password) session := by
  unfold createMySQLUserAndGrantNoDatabase
  rw [h.1, h.2]

/-! ### New accounts -/

theorem account_last {databases : List Database} {a : Account π}
    (ha : a.is username (givenHost host) = true)
    (hnone : s.account username (givenHost host) = none) :
    (⟨databases, s.accounts ++ [a]⟩ : Server π).account username (givenHost host) = some a := by
  unfold Server.account at hnone ⊢
  rw [List.find?_append, hnone, Option.none_or]
  simp [ha]

theorem not_is_of_none (hnone : s.account username (givenHost host) = none) :
    ∀ b ∈ s.accounts, b.is username (givenHost host) = false := fun b hb =>
  Bool.eq_false_iff.mpr (List.find?_eq_none.mp hnone b hb)

theorem change_last {databases : List Database} {a : Account π}
    (ha : a.is username (givenHost host) = true)
    (hnone : s.account username (givenHost host) = none) (f : Account π → Account π) :
    (⟨databases, s.accounts ++ [a]⟩ : Server π).change username (givenHost host) f =
      some ⟨databases, s.accounts ++ [f a]⟩ := by
  have hsame : s.accounts.map (fun b => if b.is username (givenHost host) then f b else b) =
      s.accounts := by
    refine (List.map_congr_left fun b hb => ?_).trans (List.map_id _)
    rw [not_is_of_none hnone b hb]
    rfl
  unfold Server.change
  rw [account_last ha hnone, Option.isSome_some, if_pos rfl]
  dsimp only
  rw [List.map_append, hsame]
  simp [ha]

theorem newAccount_is :
    (newAccount username password (givenHost host) : Account π).is username (givenHost host) =
      true := is_iff.mpr ⟨rfl, rfl⟩

theorem apply_createUser_none {databases : List Database}
    (hnone : s.account username (givenHost host) = none) :
    (Statement.createUser username (givenHost host) password).apply ⟨databases, s.accounts⟩ =
      some ⟨databases, s.accounts ++ [newAccount username password (givenHost host)]⟩ := by
  have habsent : ¬ ((⟨databases, s.accounts⟩ : Server π).account username
      (givenHost host)).isSome = true := by
    rw [Option.not_isSome_iff_eq_none]
    exact hnone
  exact if_neg habsent

theorem apply_createUser_some {databases : List Database}
    (hsome : s.account username (givenHost host) ≠ none) :
    (Statement.createUser username (givenHost host) password).apply
      (⟨databases, s.accounts⟩ : Server π) = none := by
  have hthere : ((⟨databases, s.accounts⟩ : Server π).account username
      (givenHost host)).isSome = true := Option.isSome_iff_ne_none.mpr hsome
  exact if_pos hthere

/-! ### Databases -/

theorem drop_new {s : Server π} (hname : ∀ d ∈ s.databases, d.name ≠ name) (d : Database)
    (hd : d.name = name) : ((s.databases ++ [d]).filter fun d => d.name ≠ name) = s.databases := by
  rw [List.filter_append, List.filter_eq_self.mpr fun d hmem => by simpa using hname d hmem]
  simp [hd]

/-- The statement that drops the new database, as the given one of the operation. -/
theorem exec_drop (hnew : ∀ d ∈ s.databases, d.name ≠ name) (d : Database) (hd : d.name = name)
    (accounts : List (Account π)) (count : ℕ) :
    (exec fates (dropDatabaseText name) ⟨⟨s.databases ++ [d], accounts⟩, count⟩).2.server =
      if fates count = .refused then ⟨s.databases ++ [d], accounts⟩
      else ⟨s.databases, accounts⟩ := by
  by_cases hrefused : fates count = .refused
  · rw [exec_refused hrefused, if_pos hrefused]
  · have hdropped : (Statement.dropDatabase name).apply ⟨s.databases ++ [d], accounts⟩ =
        some ⟨s.databases, accounts⟩ := by
      dsimp only [Statement.apply]
      rw [drop_new hnew d hd]
    rw [exec_some (parse_dropDatabase name) hrefused hdropped, if_neg hrefused]

theorem server_ne_database (d : Database) :
    (⟨s.databases ++ [d], s.accounts⟩ : Server π) ≠ s := by
  intro h
  have hlength := congrArg (fun s : Server π => s.databases.length) h
  simp at hlength

theorem server_ne_account (databases : List Database) (a : Account π) :
    (⟨databases, s.accounts ++ [a]⟩ : Server π) ≠ s := by
  intro h
  have hlength := congrArg (fun s : Server π => s.accounts.length) h
  simp at hlength

/-- Where nothing but the database is new, the server is as before once that is dropped. -/
theorem drop_undoes_iff (hnew : ∀ d ∈ s.databases, d.name ≠ name) (d : Database)
    (hd : d.name = name) (count : ℕ) :
    (exec fates (dropDatabaseText name) ⟨⟨s.databases ++ [d], s.accounts⟩, count⟩).2.server = s ↔
      fates count ≠ .refused := by
  rw [exec_drop hnew d hd]
  split
  · rename_i hrefused
    exact iff_of_false (server_ne_database d) (not_not_intro hrefused)
  · rename_i hdone
    exact iff_of_true rfl hdone

/-- Nothing drops a new account. -/
theorem drop_leaves_account (hnew : ∀ d ∈ s.databases, d.name ≠ name) (d : Database)
    (hd : d.name = name) (a : Account π) (count : ℕ) :
    (exec fates (dropDatabaseText name)
      ⟨⟨s.databases ++ [d], s.accounts ++ [a]⟩, count⟩).2.server ≠ s := by
  rw [exec_drop hnew d hd]
  split
  · exact server_ne_account _ a
  · exact server_ne_account _ a

/-- What `CreateMySQLDatabase` does behind the outcome of the part for the account. -/
def dropBehind (fates : ℕ → Fate) (name : Bytes) : Check × Session π → Check × Session π
  | (.ok (), session) => (.ok (), session)
  | (.error e, session) => (.error e, (exec fates (dropDatabaseText name) session).2)

/-- An outcome that is an error leaves the server as `s`. -/
def Undone (s : Server π) (out : Check × Session π) : Prop :=
  ∀ e, out.1 = .error e → out.2.server = s

theorem undone_error {e : Bytes} {session : Session π} :
    Undone s (.error e, session) ↔ session.server = s :=
  ⟨fun h => h e rfl, fun h _ _ => h⟩

theorem undone_ok {session : Session π} : Undone s (.ok (), session) := nofun

theorem dropBehind_unmade (hnew : ∀ d ∈ s.databases, d.name ≠ name) {d : Database}
    (hd : d.name = name) {e : Bytes} {count : ℕ} :
    Undone s (dropBehind fates name (.error e, ⟨⟨s.databases ++ [d], s.accounts⟩, count⟩)) ↔
      fates count ≠ .refused :=
  undone_error.trans (drop_undoes_iff hnew d hd count)

theorem dropBehind_made (hnew : ∀ d ∈ s.databases, d.name ≠ name) {d : Database}
    (hd : d.name = name) {e : Bytes} {a : Account π} {count : ℕ} :
    ¬ Undone s (dropBehind fates name
      (.error e, ⟨⟨s.databases ++ [d], s.accounts ++ [a]⟩, count⟩)) := fun h =>
  drop_leaves_account hnew d hd a count (undone_error.mp h)

/-- The grant on a new database to a new account. -/
theorem grant_made_iff (hnew : ∀ d ∈ s.databases, d.name ≠ name) {d : Database}
    (hd : d.name = name) {a : Account π} (ha : a.is username (givenHost host) = true)
    (hnone : s.account username (givenHost host) = none) :
    Undone s (dropBehind fates name (exec fates (grantText name username (givenHost host))
      ⟨⟨s.databases ++ [d], s.accounts ++ [a]⟩, 2⟩)) ↔ fates 2 = .done := by
  by_cases hrefused : fates 2 = .refused
  · rw [exec_refused hrefused]
    exact iff_of_false (dropBehind_made hnew hd) (by simp [hrefused])
  · have hgranted : (Statement.grantAll name username (givenHost host)).apply
        ⟨s.databases ++ [d], s.accounts ++ [a]⟩ =
          some ⟨s.databases ++ [d], s.accounts ++ [a.granted name]⟩ :=
      change_last ha hnone (·.granted name)
    rw [exec_some (parse_grant _ _ _) hrefused hgranted]
    by_cases hunheard : fates 2 = .unheard
    · rw [if_pos hunheard]
      exact iff_of_false (dropBehind_made hnew hd) (by simp [hunheard])
    · rw [if_neg hunheard]
      exact iff_of_true undone_ok (Fate.done_of_heard hrefused hunheard)

/-- The account of a new database fails to be created, or the grant on it does. -/
theorem account_undone_iff (hnew : ∀ d ∈ s.databases, d.name ≠ name) {d : Database}
    (hd : d.name = name) :
    Undone s (dropBehind fates name (createMySQLUserAndGrant fates name username password host
      ⟨⟨s.databases ++ [d], s.accounts⟩, 1⟩)) ↔ AccountUndoable fates s username host := by
  unfold createMySQLUserAndGrant
  by_cases haccepted : UserAccepted username host
  · have hunmade : ∀ {e : Bytes}, fates 1 = .refused ∨ s.account username (givenHost host) ≠ none →
        (Undone s (dropBehind fates name
          (.error e, ⟨⟨s.databases ++ [d], s.accounts⟩, 2⟩)) ↔
            AccountUndoable fates s username host) := by
      intro e hcase
      refine (dropBehind_unmade hnew hd).trans ⟨fun h => ?_, fun h => h.unmade haccepted hcase⟩
      refine ⟨absurd haccepted, fun _ _ => h, fun _ hfate hnone => ?_⟩
      rcases hcase with hrefused | hsome
      · exact absurd hrefused hfate
      · exact absurd hnone hsome
    rw [createUser_accepted haccepted]
    by_cases hrefused : fates 1 = .refused
    · rw [exec_refused hrefused]
      exact hunmade (.inl hrefused)
    · cases haccount : s.account username (givenHost host) with
      | some a =>
          have hsome : s.account username (givenHost host) ≠ none := by simp [haccount]
          rw [exec_none (parse_createUser _ _ _) (apply_createUser_some hsome)]
          exact hunmade (.inr hsome)
      | none =>
          have hmade : AccountUndoable fates s username host ↔
              fates 1 = .done ∧ fates 2 = .done := by
            refine ⟨fun h => h.made haccepted hrefused haccount, fun h => ?_⟩
            refine ⟨absurd haccepted, fun _ hcase => ?_, fun _ _ _ => h⟩
            exact absurd haccount (hcase.resolve_left hrefused)
          rw [hmade, exec_some (parse_createUser _ _ _) hrefused (apply_createUser_none haccount)]
          by_cases hunheard : fates 1 = .unheard
          · rw [if_pos hunheard]
            exact iff_of_false (dropBehind_made hnew hd) (by simp [hunheard])
          · rw [if_neg hunheard]
            refine (grant_made_iff hnew hd newAccount_is haccount).trans ?_
            exact (and_iff_right (Fate.done_of_heard hrefused hunheard)).symm
  · obtain ⟨e, he⟩ := @createUser_unaccepted π fates username password host haccepted
      ⟨⟨s.databases ++ [d], s.accounts⟩, 1⟩
    rw [he]
    refine (dropBehind_unmade hnew hd).trans ⟨fun h => ?_, fun h => h.unaccepted haccepted⟩
    exact ⟨fun _ => h, fun h => absurd h haccepted, fun h => absurd h haccepted⟩

theorem database_undone_iff :
    DatabaseUndone fates s name format collation username password host ↔
      DatabaseUndoable fates s name format collation username host := by
  change Undone s _ ↔ _
  unfold DatabaseUndoable createMySQLDatabase
  cases hcheck : checkDatabase name format collation with
  | error e => exact iff_of_true (undone_error.mpr rfl) nofun
  | ok _ =>
      dsimp only
      by_cases hrefused : fates 0 = .refused
      · rw [exec_refused hrefused]
        exact iff_of_true (undone_error.mpr rfl) fun _ hnot => absurd hrefused hnot
      · by_cases hexists : s.databases.any fun d => d.name = name
        · have hnone (format collation : Option Bytes) :
              (Statement.createDatabase name format collation).apply s = none := if_pos hexists
          rw [exec_none (parse_createDatabase _ _ _) (hnone _ _)]
          obtain ⟨d, hd, heq⟩ := List.any_eq_true.mp hexists
          exact iff_of_true (undone_error.mpr rfl)
            fun _ _ hnew => absurd (of_decide_eq_true heq) (hnew d hd)
        · have hnew : ∀ d ∈ s.databases, d.name ≠ name := fun d hd heq =>
            hexists (List.any_eq_true.mpr ⟨d, hd, decide_eq_true heq⟩)
          have hsome (format collation : Option Bytes) :
              (Statement.createDatabase name format collation).apply s =
                some ⟨s.databases ++ [⟨name, format, collation⟩], s.accounts⟩ := if_neg hexists
          rw [exec_some (parse_createDatabase _ _ _) hrefused (hsome _ _)]
          by_cases hunheard : fates 0 = .unheard
          · rw [if_pos hunheard]
            refine iff_of_false (fun h => server_ne_database _ (undone_error.mp h)) fun h => ?_
            have hdone := (h rfl hrefused hnew).1
            rw [hunheard] at hdone
            cases hdone
          · rw [if_neg hunheard]
            have hdone := Fate.done_of_heard hrefused hunheard
            dsimp only
            by_cases huser : trimSpace username = []
            · rw [if_pos huser]
              exact iff_of_true undone_ok fun _ _ _ => ⟨hdone, absurd huser⟩
            · rw [if_neg huser]
              refine (account_undone_iff hnew rfl).trans ?_
              exact ⟨fun h _ _ _ => ⟨hdone, fun _ => h⟩, fun h => (h rfl hrefused hnew).2 huser⟩

/-! ### Users -/

variable (fates s username password host)

/-- The number of the statement that drops a new user again, when the grants begin with a given
one. -/
def dropAt (count : ℕ) : List Bytes → Option ℕ
  | [] => none
  | database :: databases =>
      match checkGrant database username host with
      | .error _ => some count
      | .ok () =>
          if fates count = .done then dropAt (count + 1) databases else some (count + 1)

/-- A creation of a user that ends in an error leaves the server as it was. -/
def UserUndone : Prop :=
  let out := createMySQLUser fates username password host databases ⟨s, 0⟩
  ∀ e, out.1 = .error e → out.2.server = s

/-- The statement that makes a new user is heard of, and the one that drops it is not refused. -/
def UserUndoable : Prop :=
  UserAccepted username host → fates 0 ≠ .refused → s.account username (givenHost host) = none →
    fates 0 = .done ∧
      ∀ count, dropAt fates username host 1 databases = some count → fates count ≠ .refused

variable {fates s username password host databases}

theorem grantHost_of_checked {database : Bytes}
    (h : checkGrant database username host = .ok ()) : grantHost host = givenHost host := by
  have hnil : trimSpace [] = [] := by decide +kernel
  have hhost : validateMySQLHost (grantHost host) = .ok () := by
    unfold checkGrant at h
    cases hdatabase : validateMySQLIdentifier database with
    | error e =>
        rw [hdatabase] at h
        cases h
    | ok _ =>
        cases huser : validateMySQLIdentifier username with
        | error e =>
            rw [hdatabase, huser] at h
            cases h
        | ok _ =>
            rw [hdatabase, huser] at h
            exact h
  unfold grantHost at hhost ⊢
  unfold givenHost
  by_cases hempty : host = []
  · rw [if_pos hempty, hempty, if_pos hnil]
  · rw [if_neg hempty] at hhost ⊢
    rw [if_neg]
    intro hblank
    unfold validateMySQLHost at hhost
    rw [if_pos (.inl hblank)] at hhost
    cases hhost

/-- The statement that drops the new user. -/
theorem dropUser_undoes_iff {a : Account π} (haccepted : UserAccepted username host)
    (ha : a.is username (givenHost host) = true)
    (hnone : s.account username (givenHost host) = none) (count : ℕ) :
    (dropMySQLUser fates username host ⟨⟨s.databases, s.accounts ++ [a]⟩, count⟩).2.server = s ↔
      fates count ≠ .refused := by
  unfold dropMySQLUser
  rw [haccepted.1, haccepted.2]
  dsimp only
  by_cases hrefused : fates count = .refused
  · rw [exec_refused hrefused]
    exact iff_of_false (server_ne_account _ _) (not_not_intro hrefused)
  · have hdropped : (Statement.dropUser username (givenHost host)).apply
        ⟨s.databases, s.accounts ++ [a]⟩ = some s := by
      dsimp only [Statement.apply]
      rw [List.filter_append, List.filter_eq_self.mpr fun b hb => by
        rw [not_is_of_none hnone b hb]
        rfl]
      simp [ha]
    rw [exec_some (parse_dropUser _ _) hrefused hdropped]
    exact iff_of_true rfl hrefused

/-- The grants to a new user end well or with the statement that drops it. -/
theorem grants_undone_iff (haccepted : UserAccepted username host)
    (hnone : s.account username (givenHost host) = none) {a : Account π}
    (ha : a.is username (givenHost host) = true) (count : ℕ) :
    Undone s (grantDatabases fates username host databases
        ⟨⟨s.databases, s.accounts ++ [a]⟩, count⟩) ↔
      ∀ index, dropAt fates username host count databases = some index →
        fates index ≠ .refused := by
  have hdropped : ∀ {a : Account π} (_ : a.is username (givenHost host) = true) (e : Bytes)
      (count : ℕ), Undone s (.error e, (dropMySQLUser fates username host
        ⟨⟨s.databases, s.accounts ++ [a]⟩, count⟩).2) ↔
          ∀ index, some count = some index → fates index ≠ .refused := by
    intro a ha e count
    refine undone_error.trans ((dropUser_undoes_iff haccepted ha hnone count).trans ?_)
    exact ⟨fun h index heq => Option.some.inj heq ▸ h, fun h => h count rfl⟩
  induction databases generalizing a count with
  | nil => exact iff_of_true undone_ok nofun
  | cons database databases ih =>
      unfold grantDatabases dropAt grantMySQLUser
      cases hcheck : checkGrant database username host with
      | error e => exact hdropped ha e count
      | ok _ =>
          dsimp only
          by_cases hrefused : fates count = .refused
          · rw [exec_refused hrefused, if_neg (by simp [hrefused])]
            exact hdropped ha _ (count + 1)
          · have hgranted : (Statement.grantAll database username (givenHost host)).apply
                ⟨s.databases, s.accounts ++ [a]⟩ =
                  some ⟨s.databases, s.accounts ++ [a.granted database]⟩ :=
              change_last ha hnone (·.granted database)
            have hgrantedIs : (a.granted database).is username (givenHost host) = true := ha
            rw [grantHost_of_checked hcheck, exec_some (parse_grant _ _ _) hrefused hgranted]
            by_cases hunheard : fates count = .unheard
            · rw [if_pos hunheard, if_neg (by simp [hunheard])]
              exact hdropped hgrantedIs _ (count + 1)
            · rw [if_neg hunheard, if_pos (Fate.done_of_heard hrefused hunheard)]
              exact ih hgrantedIs (count + 1)

theorem user_undone_iff :
    UserUndone fates s username password host databases ↔
      UserUndoable fates s username host databases := by
  change Undone s _ ↔ _
  unfold UserUndoable createMySQLUser
  by_cases haccepted : UserAccepted username host
  · rw [createUser_accepted haccepted, imp_iff_right haccepted]
    by_cases hrefused : fates 0 = .refused
    · rw [exec_refused hrefused]
      exact iff_of_true (undone_error.mpr rfl) fun hnot => absurd hrefused hnot
    · cases haccount : s.account username (givenHost host) with
      | some a =>
          have hsome : s.account username (givenHost host) ≠ none := by simp [haccount]
          rw [exec_none (parse_createUser _ _ _) (apply_createUser_some hsome)]
          exact iff_of_true (undone_error.mpr rfl) nofun
      | none =>
          rw [exec_some (parse_createUser _ _ _) hrefused (apply_createUser_none haccount)]
          by_cases hunheard : fates 0 = .unheard
          · rw [if_pos hunheard]
            refine iff_of_false (fun h => server_ne_account _ _ (undone_error.mp h)) fun h => ?_
            have hdone := (h hrefused rfl).1
            rw [hunheard] at hdone
            cases hdone
          · rw [if_neg hunheard]
            refine (grants_undone_iff haccepted haccount newAccount_is 1).trans ?_
            exact ⟨fun h _ _ => ⟨Fate.done_of_heard hrefused hunheard, h⟩,
              fun h => (h hrefused rfl).2⟩
  · obtain ⟨e, he⟩ := @createUser_unaccepted π fates username password host haccepted ⟨s, 0⟩
    rw [he]
    exact iff_of_true (undone_error.mpr rfl) fun h => absurd h haccepted

end Creation

/-- The operations on privileges do what they should if and only if the grant and the revocation
meet no other database, and the statements of a creation are heard of and not refused where they
have to be. -/
theorem privileges_exact_iff {π : Type} (fates : ℕ → Fate) (s : Server π)
    (database format collation username password host : Bytes) (databases : List Bytes) :
    (GrantExact fates s database username host ↔
        GrantHarmless fates s database username host) ∧
      (RevokeExact fates s database username host ↔
        RevokeHarmless fates s database username host) ∧
      (DatabaseUndone fates s database format collation username password host ↔
        DatabaseUndoable fates s database format collation username host) ∧
      (UserUndone fates s username password host databases ↔
        UserUndoable fates s username host databases) :=
  ⟨grant_exact_iff, revoke_exact_iff, database_undone_iff, user_undone_iff⟩

/-- A server with one account, which has all privileges on two databases. -/
def shopServer : Server Unit where
  databases := [⟨bytes "shop", none, none⟩, ⟨bytes "blog", none, none⟩]
  accounts :=
    [{ user := bytes "app", host := bytes "%", password := bytes "secret"
       rows := [⟨bytes "shop", allPrivileges⟩, ⟨bytes "blog", allPrivileges⟩]
       nodup := by decide }]

/-- A revocation on one database takes the privileges on the other, a grant on a name with an
underscore reaches other names, a refused grant leaves the account of a new database, and a new
database stays whose statement is not heard of in time. -/
theorem privileges_not_exact :
    ¬ RevokeExact (fun _ => .done) shopServer (bytes "shop") (bytes "app") [] ∧
      ¬ GrantExact (fun _ => .done) shopServer (bytes "my_app") (bytes "app") [] ∧
      ¬ DatabaseUndone (fun count => if count = 2 then .refused else .done) shopServer
        (bytes "new") [] [] (bytes "user") (bytes "secret") [] ∧
      ¬ DatabaseUndone (fun _ => .unheard) shopServer (bytes "new") [] [] [] [] [] := by
  refine ⟨fun h => ?_, fun h => ?_, fun h => ?_, fun h => ?_⟩
  · have hblog := revoke_exact_iff.mp h rfl nofun _ rfl (bytes "blog") (by decide)
    exact absurd (congrFun hblog ()) (by decide +kernel)
  · have hother := grant_exact_iff.mp h rfl nofun _ rfl (bytes "my1app") (by decide)
      (by decide +kernel)
    obtain ⟨row, hrow, hlikes, -⟩ | hall := hother
    · revert hlikes
      revert row
      decide +kernel
    · exact absurd (congrFun hall ()) (by decide +kernel)
  · have hlate := ((database_undone_iff.mp h rfl nofun (by decide)).2 (by decide +kernel)).made
      ⟨rfl, rfl⟩ nofun (by decide +kernel)
    exact absurd hlate.2 (by decide)
  · exact absurd (database_undone_iff.mp h rfl nofun (by decide)).1 nofun

end WorkMesh.Mysql
