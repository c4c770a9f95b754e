import WorkMesh.Encoding.Search

/-!
# Statements for MySQL

The texts that are sent to a server are put together from quoted names and values. The
server reads the same names and values back from them.
-/

namespace WorkMesh.Mysql

open Encoding

/-! ## Quoting -/

/-- `QuoteMySQLIdentifier`. -/
def quoteMySQLIdentifier (value : Bytes) : Bytes := 96 :: replaceAll value [96] [96, 96] ++ [96]

/-- `QuoteMySQLString`. -/
def quoteMySQLString (value : Bytes) : Bytes :=
  let value := replaceAll value [92] [92, 92]
  let value := replaceAll value [39] [92, 39]
  let value := replaceAll value [0] [92, 48]
  39 :: value ++ [39]

section Texts
variable (name database user host password format collation : Bytes)

def createDatabaseText : Bytes :=
  bytes "CREATE DATABASE " ++ quoteMySQLIdentifier name ++
    (if format = [] then [] else
      bytes " DEFAULT CHARACTER SET " ++ quoteMySQLIdentifier format) ++
    (if collation = [] then [] else bytes " COLLATE " ++ quoteMySQLIdentifier collation) ++
    bytes ";"

def dropDatabaseText : Bytes :=
  bytes "DROP DATABASE IF EXISTS " ++ quoteMySQLIdentifier name ++ bytes ";"

def identityText : Bytes := quoteMySQLString user ++ bytes "@" ++ quoteMySQLString host

def createUserText : Bytes :=
  bytes "CREATE USER " ++ identityText user host ++ bytes " IDENTIFIED BY " ++
    quoteMySQLString password ++ bytes ";"

def dropUserText : Bytes := bytes "DROP USER IF EXISTS " ++ identityText user host ++ bytes ";"

def grantText : Bytes :=
  bytes "GRANT ALL PRIVILEGES ON " ++ quoteMySQLIdentifier database ++ bytes ".* TO " ++
    identityText user host ++ bytes " WITH GRANT OPTION;"

def revokeText : Bytes :=
  bytes "REVOKE ALL PRIVILEGES, GRANT OPTION FROM " ++ identityText user host ++ bytes ";"

end Texts

/-! ## Reading -/

/-- What the server takes a text for. -/
inductive Statement where
  | createDatabase (name : Bytes) (format collation : Option Bytes)
  | dropDatabase (name : Bytes)
  | createUser (user host password : Bytes)
  | dropUser (user host : Bytes)
  | grantAll (database user host : Bytes)
  | revokeAll (user host : Bytes)
deriving DecidableEq

/-- What is behind a word that the text starts with. -/
def expect (word : String) (text : Bytes) : Option Bytes :=
  if (bytes word).isPrefixOf text then some (text.drop (bytes word).length) else none

/-- A name behind its first quote, and the text behind its last one. -/
def identifierTail : Bytes → Option (Bytes × Bytes)
  | 96 :: 96 :: text => (identifierTail text).map fun (name, rest) => (96 :: name, rest)
  | 96 :: text => some ([], text)
  | c :: text => (identifierTail text).map fun (name, rest) => (c :: name, rest)
  | [] => none

def identifier : Bytes → Option (Bytes × Bytes)
  | 96 :: text => identifierTail text
  | _ => none

/-- What the character behind a backslash stands for. -/
def unescape (c : UInt8) : Bytes :=
  if c = 48 then [0]
  else if c = 98 then [8]
  else if c = 110 then [10]
  else if c = 114 then [13]
  else if c = 116 then [9]
  else if c = 90 then [26]
  else if c = 37 ∨ c = 95 then [92, c]
  else [c]

/-- A value behind its first quote, and the text behind its last one. -/
def stringTail : Bytes → Option (Bytes × Bytes)
  | 92 :: c :: text => (stringTail text).map fun (value, rest) => (unescape c ++ value, rest)
  | 39 :: 39 :: text => (stringTail text).map fun (value, rest) => (39 :: value, rest)
  | 39 :: text => some ([], text)
  | c :: text => (stringTail text).map fun (value, rest) => (c :: value, rest)
  | [] => none

def stringValue : Bytes → Option (Bytes × Bytes)
  | 39 :: text => stringTail text
  | _ => none

def identity (text : Bytes) : Option (Bytes × Bytes × Bytes) := do
  let (user, text) ← stringValue text
  let text ← expect "@" text
  let (host, text) ← stringValue text
  pure (user, host, text)

/-- A clause with a name, which may be left out. -/
def clause (word : String) (text : Bytes) : Option (Option Bytes × Bytes) :=
  match expect word text with
  | none => some (none, text)
  | some text => (identifier text).map fun (name, rest) => (some name, rest)

def parseCreateDatabase (text : Bytes) : Option Statement := do
  let text ← expect "CREATE DATABASE " text
  let (name, text) ← identifier text
  let (format, text) ← clause " DEFAULT CHARACTER SET " text
  let (collation, text) ← clause " COLLATE " text
  if text = bytes ";" then some (.createDatabase name format collation) else none

def parseDropDatabase (text : Bytes) : Option Statement := do
  let text ← expect "DROP DATABASE IF EXISTS " text
  let (name, text) ← identifier text
  if text = bytes ";" then some (.dropDatabase name) else none

def parseCreateUser (text : Bytes) : Option Statement := do
  let text ← expect "CREATE USER " text
  let (user, host, text) ← identity text
  let text ← expect " IDENTIFIED BY " text
  let (password, text) ← stringValue text
  if text = bytes ";" then some (.createUser user host password) else none

def parseDropUser (text : Bytes) : Option Statement := do
  let text ← expect "DROP USER IF EXISTS " text
  let (user, host, text) ← identity text
  if text = bytes ";" then some (.dropUser user host) else none

def parseGrant (text : Bytes) : Option Statement := do
  let text ← expect "GRANT ALL PRIVILEGES ON " text
  let (database, text) ← identifier text
  let text ← expect ".* TO " text
  let (user, host, text) ← identity text
  if text = bytes " WITH GRANT OPTION;" then some (.grantAll database user host) else none

def parseRevoke (text : Bytes) : Option Statement := do
  let text ← expect "REVOKE ALL PRIVILEGES, GRANT OPTION FROM " text
  let (user, host, text) ← identity text
  if text = bytes ";" then some (.revokeAll user host) else none

def parse (text : Bytes) : Option Statement :=
  parseCreateDatabase text <|> parseDropDatabase text <|> parseCreateUser text <|>
    parseDropUser text <|> parseGrant text <|> parseRevoke text

/-! ## Round trips -/

section RoundTrip
variable {value rest : Bytes}

theorem expect_append (word : String) (rest : Bytes) :
    expect word (bytes word ++ rest) = some rest := by
  rw [expect, if_pos (List.isPrefixOf_iff_prefix.mpr (List.prefix_append _ _)), List.drop_left]

theorem replaceAll_single (text : Bytes) (c : UInt8) (new : Bytes) :
    replaceAll text [c] new = text.flatMap fun d => if d = c then new else [d] := by
  unfold replaceAll
  induction text with
  | nil => rfl
  | cons d text ih =>
      rw [replaceFrom, List.flatMap_cons]
      by_cases h : d = c
      · simp [h, ih]
      · have hne : ¬ c = d := fun heq => h heq.symm
        simp [h, hne, ih]

theorem identifierTail_quoted (hrest : rest.head? ≠ some 96) :
    identifierTail (value.flatMap (fun d => if d = 96 then [96, 96] else [d]) ++ 96 :: rest) =
      some (value, rest) := by
  induction value with
  | nil =>
      cases rest with
      | nil => rfl
      | cons c rest =>
          have hc : c ≠ 96 := fun h => hrest (h ▸ rfl)
          change identifierTail (96 :: c :: rest) = _
          unfold identifierTail
          split <;> simp_all
  | cons c value ih =>
      by_cases h : c = 96
      · subst h
        simp only [List.flatMap_cons, if_true, List.cons_append, List.nil_append]
        rw [identifierTail, ih]
        rfl
      · simp only [List.flatMap_cons, if_neg h, List.cons_append, List.nil_append]
        rw [identifierTail, ih]
        · rfl
        · simp_all
        · simp_all

/-- A quoted name is read back. -/
theorem identifier_quote (value : Bytes) (hrest : rest.head? ≠ some 96) :
    identifier (quoteMySQLIdentifier value ++ rest) = some (value, rest) := by
  rw [quoteMySQLIdentifier, replaceAll_single, List.cons_append, List.cons_append,
    List.append_assoc]
  exact identifierTail_quoted hrest

/-- How one byte of a value is written. -/
def escapeByte (c : UInt8) : Bytes :=
  if c = 92 then [92, 92] else if c = 39 then [92, 39] else if c = 0 then [92, 48] else [c]

theorem quoteMySQLString_eq (value : Bytes) :
    quoteMySQLString value = 39 :: value.flatMap escapeByte ++ [39] := by
  unfold quoteMySQLString
  dsimp only
  rw [replaceAll_single, replaceAll_single, replaceAll_single, List.flatMap_assoc,
    List.flatMap_assoc]
  congr 3
  funext c
  unfold escapeByte
  by_cases h92 : c = 92
  · subst h92
    rfl
  · by_cases h39 : c = 39
    · subst h39
      rfl
    · by_cases h0 : c = 0
      · subst h0
        rfl
      · simp [h92, h39, h0]

theorem stringTail_quoted (hrest : rest.head? ≠ some 39) :
    stringTail (value.flatMap escapeByte ++ 39 :: rest) = some (value, rest) := by
  induction value with
  | nil =>
      cases rest with
      | nil => rfl
      | cons c rest =>
          have hc : c ≠ 39 := fun h => hrest (h ▸ rfl)
          change stringTail (39 :: c :: rest) = _
          unfold stringTail
          split <;> simp_all
  | cons c value ih =>
      rw [List.flatMap_cons, List.append_assoc]
      by_cases h92 : c = 92
      · subst h92
        change stringTail (92 :: 92 :: (value.flatMap escapeByte ++ 39 :: rest)) = _
        rw [stringTail, ih]
        rfl
      · by_cases h39 : c = 39
        · subst h39
          change stringTail (92 :: 39 :: (value.flatMap escapeByte ++ 39 :: rest)) = _
          rw [stringTail, ih]
          rfl
        · by_cases h0 : c = 0
          · subst h0
            change stringTail (92 :: 48 :: (value.flatMap escapeByte ++ 39 :: rest)) = _
            rw [stringTail, ih]
            rfl
          · have hsame : escapeByte c = [c] := by simp [escapeByte, h92, h39, h0]
            rw [hsame, List.singleton_append, stringTail, ih]
            · rfl
            · simp_all
            · simp_all
            · simp_all

/-- A quoted value is read back. -/
theorem stringValue_quote (value : Bytes) (hrest : rest.head? ≠ some 39) :
    stringValue (quoteMySQLString value ++ rest) = some (value, rest) := by
  rw [quoteMySQLString_eq, List.cons_append, List.cons_append, List.append_assoc]
  exact stringTail_quoted hrest

theorem identity_text (user host : Bytes) (hrest : rest.head? ≠ some 39) :
    identity (identityText user host ++ rest) = some (user, host, rest) := by
  unfold identityText identity
  rw [List.append_assoc, List.append_assoc, stringValue_quote _ (by exact nofun)]
  simp [expect_append, stringValue_quote _ hrest]

theorem clause_text (word : String) (name : Bytes) (hrest : rest.head? ≠ some 96)
    (hother : expect word rest = none) :
    clause word ((if name = [] then [] else bytes word ++ quoteMySQLIdentifier name) ++ rest) =
      some (if name = [] then none else some name, rest) := by
  unfold clause
  split
  · rename_i hnone
    split at hnone
    · rename_i hname
      rw [if_pos hname, if_pos hname]
      rfl
    · rw [List.append_assoc, expect_append] at hnone
      cases hnone
  · rename_i text hsome
    split at hsome
    · rw [List.nil_append, hother] at hsome
      cases hsome
    · rename_i hname
      rw [List.append_assoc, expect_append] at hsome
      cases hsome
      rw [identifier_quote name hrest, if_neg hname]
      rfl

end RoundTrip

section Parse
variable (name database user host password format collation : Bytes)

theorem parse_createDatabase : parse (createDatabaseText name format collation) =
    some (.createDatabase name (if format = [] then none else some format)
      (if collation = [] then none else some collation)) := by
  have hparse : parseCreateDatabase (createDatabaseText name format collation) =
      some (.createDatabase name (if format = [] then none else some format)
        (if collation = [] then none else some collation)) := by
    have hcollation : ((if collation = [] then [] else
        bytes " COLLATE " ++ quoteMySQLIdentifier collation) ++ bytes ";").head? ≠ some 96 ∧
        expect " DEFAULT CHARACTER SET " ((if collation = [] then [] else
          bytes " COLLATE " ++ quoteMySQLIdentifier collation) ++ bytes ";") = none := by
      split
      · exact ⟨by decide, rfl⟩
      · exact ⟨by exact nofun, rfl⟩
    have hformat : ((if format = [] then [] else
        bytes " DEFAULT CHARACTER SET " ++ quoteMySQLIdentifier format) ++
          ((if collation = [] then [] else bytes " COLLATE " ++ quoteMySQLIdentifier collation) ++
            bytes ";")).head? ≠ some 96 := by
      split
      · exact hcollation.1
      · exact nofun
    unfold parseCreateDatabase createDatabaseText
    rw [List.append_assoc, List.append_assoc, List.append_assoc, expect_append, Option.bind_eq_bind,
      Option.bind_some, identifier_quote _ hformat]
    dsimp only [Option.bind_eq_bind, Option.bind_some]
    rw [clause_text _ _ hcollation.1 hcollation.2]
    dsimp only [Option.bind_some]
    rw [clause_text _ _ (by decide) rfl]
    rfl
  rw [parse, hparse]
  rfl

theorem parse_dropDatabase :
    parse (dropDatabaseText name) = some (.dropDatabase name) := by
  have hother : parseCreateDatabase (dropDatabaseText name) = none := rfl
  have hparse : parseDropDatabase (dropDatabaseText name) = some (.dropDatabase name) := by
    unfold parseDropDatabase dropDatabaseText
    rw [List.append_assoc, expect_append, Option.bind_eq_bind, Option.bind_some,
      identifier_quote _ (by decide)]
    rfl
  rw [parse, hother, hparse]
  rfl

theorem parse_createUser :
    parse (createUserText user host password) = some (.createUser user host password) := by
  have hparse : parseCreateUser (createUserText user host password) =
      some (.createUser user host password) := by
    unfold parseCreateUser createUserText
    rw [List.append_assoc, List.append_assoc, List.append_assoc, expect_append, Option.bind_eq_bind,
      Option.bind_some, identity_text _ _ (by exact nofun)]
    dsimp only [Option.bind_eq_bind, Option.bind_some]
    rw [expect_append, Option.bind_some, stringValue_quote _ (by decide)]
    rfl
  unfold parse
  rw [hparse]
  rfl

theorem parse_dropUser : parse (dropUserText user host) = some (.dropUser user host) := by
  have hparse : parseDropUser (dropUserText user host) = some (.dropUser user host) := by
    unfold parseDropUser dropUserText
    rw [List.append_assoc, expect_append, Option.bind_eq_bind, Option.bind_some,
      identity_text _ _ (by decide)]
    rfl
  unfold parse
  rw [hparse]
  rfl

theorem parse_grant :
    parse (grantText database user host) = some (.grantAll database user host) := by
  have hparse : parseGrant (grantText database user host) = some (.grantAll database user host) := by
    unfold parseGrant grantText
    rw [List.append_assoc, List.append_assoc, List.append_assoc, expect_append, Option.bind_eq_bind,
      Option.bind_some, identifier_quote _ (by exact nofun)]
    dsimp only [Option.bind_eq_bind, Option.bind_some]
    rw [expect_append, Option.bind_some, identity_text _ _ (by decide)]
    rfl
  unfold parse
  rw [hparse]
  rfl

theorem parse_revoke : parse (revokeText user host) = some (.revokeAll user host) := by
  have hparse : parseRevoke (revokeText user host) = some (.revokeAll user host) := by
    unfold parseRevoke revokeText
    rw [List.append_assoc, expect_append, Option.bind_eq_bind, Option.bind_some,
      identity_text _ _ (by decide)]
    rfl
  unfold parse
  rw [hparse]
  rfl

end Parse

end WorkMesh.Mysql
