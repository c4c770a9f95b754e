import WorkMesh.Encoding.Text

/-!
# Paths and queries of a URL

A URL keeps the decoded path and, where the plain encoding of it differs, the
path as it was written. The written form of a path that has been read and
written once does not change any more, and a query that is written is read
back as it was.
-/

namespace Encoding

/-- `url.Values`, with every key once. -/
abbrev Values := List (Bytes × List Bytes)

def Values.del (values : Values) (key : Bytes) : Values := values.filter fun entry => entry.1 ≠ key

/-- The letters, the digits and `-_.~`. -/
def isUnreserved (c : UInt8) : Bool :=
  (97 ≤ c && c ≤ 122) || (65 ≤ c && c ≤ 90) || (48 ≤ c && c ≤ 57) ||
    c == 45 || c == 95 || c == 46 || c == 126

def upperHexDigit (n : Nat) : UInt8 := UInt8.ofNat (if n < 10 then 48 + n else 55 + n)

/-- `url.QueryEscape`. -/
def queryEscape (text : Bytes) : Bytes :=
  text.flatMap fun c =>
    if isUnreserved c then [c]
    else if c = 32 then [43]
    else [37, upperHexDigit (c.toNat / 16), upperHexDigit (c.toNat % 16)]

/-- `Values.Encode`. -/
def Values.encode (values : Values) : Bytes :=
  let pairs := (values.mergeSort fun a b => decide (a.1 ≤ b.1)).flatMap fun entry =>
    entry.2.map fun value => queryEscape entry.1 ++ 61 :: queryEscape value
  List.intercalate [38] pairs

/-! ## Percent encoding -/

/-- `url.PathUnescape`, and `url.QueryUnescape` where a plus stands for a space. -/
def unescape (plus : Bool) : Bytes → Option Bytes
  | [] => some []
  | c :: rest =>
      if c = 37 then
        match rest with
        | a :: b :: rest =>
            match fromHexChar a, fromHexChar b with
            | some high, some low => (unescape plus rest).map (UInt8.ofNat (16 * high + low) :: ·)
            | _, _ => none
        | _ => none
      else (unescape plus rest).map ((if plus = true ∧ c = 43 then 32 else c) :: ·)

/-- What stands for itself in a path: besides the unreserved characters `$&+,/:;=@`. -/
def isPathChar (c : UInt8) : Bool :=
  isUnreserved c || c == 36 || c == 38 || c == 43 || c == 44 || c == 47 || c == 58 || c == 59 ||
    c == 61 || c == 64

def percentByte (c : UInt8) : Bytes :=
  [37, upperHexDigit (c.toNat / 16), upperHexDigit (c.toNat % 16)]

/-- The encoding of a path. -/
def escapePath (path : Bytes) : Bytes :=
  path.flatMap fun c => if isPathChar c then [c] else percentByte c

/-- `validEncoded` for a path: `!'()*[]` and the percent sign are left alone as well. -/
def validEncodedPath (text : Bytes) : Bool :=
  text.all fun c => isPathChar c || c == 33 || c == 39 || c == 40 || c == 41 || c == 42 || c == 91 ||
    c == 93 || c == 37

section Percent
variable {plus : Bool} {c : UInt8} {rest : Bytes}

theorem unescape_cons (h : c ≠ 37) : unescape plus (c :: rest) =
    (unescape plus rest).map ((if plus = true ∧ c = 43 then 32 else c) :: ·) := by
  rw [unescape.eq_def]
  simp only [if_neg h]

theorem fromHexChar_upperHexDigit : ∀ n < 16, fromHexChar (upperHexDigit n) = some n := by decide

theorem unescape_hex {a b : UInt8} {high low : Nat} (hhigh : fromHexChar a = some high)
    (hlow : fromHexChar b = some low) : unescape plus (37 :: a :: b :: rest) =
      (unescape plus rest).map (UInt8.ofNat (16 * high + low) :: ·) := by
  rw [unescape, if_pos rfl]
  simp only [hhigh, hlow]

theorem unescape_percentByte (c : UInt8) (rest : Bytes) :
    unescape plus (percentByte c ++ rest) = (unescape plus rest).map (c :: ·) := by
  have hc : c.toNat < 256 := c.toNat_lt
  have hhigh := fromHexChar_upperHexDigit (c.toNat / 16) (by omega)
  have hlow := fromHexChar_upperHexDigit (c.toNat % 16) (by omega)
  have hsplit : 16 * (c.toNat / 16) + c.toNat % 16 = c.toNat := Nat.div_add_mod _ _
  calc unescape plus (percentByte c ++ rest) =
        unescape plus (37 :: upperHexDigit (c.toNat / 16) :: upperHexDigit (c.toNat % 16) :: rest) :=
          rfl
    _ = (unescape plus rest).map (UInt8.ofNat (16 * (c.toNat / 16) + c.toNat % 16) :: ·) :=
        unescape_hex hhigh hlow
    _ = (unescape plus rest).map (c :: ·) := by rw [hsplit, UInt8.ofNat_toNat]

theorem unescape_escapePath (path : Bytes) : unescape false (escapePath path) = some path := by
  have hplain : ∀ c : UInt8, isPathChar c = true → c ≠ 37 := by decide +kernel
  induction path with
  | nil => rfl
  | cons c path ih =>
      rw [escapePath, List.flatMap_cons, ← escapePath]
      by_cases hc : isPathChar c = true
      · rw [if_pos hc, List.singleton_append, unescape_cons (hplain c hc), ih]
        simp
      · rw [if_neg hc, unescape_percentByte, ih]
        rfl

theorem unescape_queryEscape (text : Bytes) : unescape true (queryEscape text) = some text := by
  have hplain : ∀ c : UInt8, isUnreserved c = true → c ≠ 37 ∧ c ≠ 43 := by decide +kernel
  induction text with
  | nil => rfl
  | cons c text ih =>
      rw [queryEscape, List.flatMap_cons, ← queryEscape]
      by_cases hc : isUnreserved c = true
      · obtain ⟨hpercent, hplus⟩ := hplain c hc
        rw [if_pos hc, List.singleton_append, unescape_cons hpercent, ih]
        simp [hplus]
      · rw [if_neg hc]
        by_cases hspace : c = 32
        · subst hspace
          rw [if_pos rfl, List.singleton_append, unescape_cons (by decide), ih]
          rfl
        · rw [if_neg hspace, ← percentByte, unescape_percentByte, ih]
          rfl

theorem validEncodedPath_escapePath (path : Bytes) : validEncodedPath (escapePath path) = true := by
  have hdigit : ∀ n < 16, isPathChar (upperHexDigit n) = true := by decide
  rw [validEncodedPath, List.all_eq_true]
  intro d hd
  obtain ⟨c, -, hd⟩ := List.mem_flatMap.mp hd
  by_cases hc : isPathChar c = true
  · rw [if_pos hc, List.mem_singleton] at hd
    simp [hd, hc]
  · have hlt : c.toNat < 256 := c.toNat_lt
    rw [if_neg hc, percentByte, List.mem_cons, List.mem_cons, List.mem_singleton] at hd
    obtain rfl | rfl | rfl := hd
    · rfl
    · simp [hdigit _ (by omega : c.toNat / 16 < 16)]
    · simp [hdigit _ (by omega : c.toNat % 16 < 16)]

/-- What is decoded is decoded in front of any other text. -/
theorem unescape_append {front path back : Bytes} (h : unescape plus front = some path) :
    unescape plus (front ++ back) = (unescape plus back).map (path ++ ·) := by
  fun_induction unescape plus front generalizing path with
  | case1 =>
      obtain rfl := Option.some.inj h
      simp
  | case2 a b rest high low hlow hhigh ih =>
      obtain ⟨tail, htail, rfl⟩ := Option.map_eq_some_iff.mp h
      rw [List.cons_append, List.cons_append, List.cons_append, unescape_hex hhigh hlow, ih htail,
        Option.map_map]
      rfl
  | case3 => cases h
  | case4 => cases h
  | case5 c rest hc ih =>
      obtain ⟨tail, htail, rfl⟩ := Option.map_eq_some_iff.mp h
      rw [List.cons_append, unescape_cons hc, ih htail, Option.map_map]
      rfl

end Percent

/-! ## Paths -/

/-- The path of a URL, and its written form where that is not the encoding of the path. -/
structure UrlPath where
  path : Bytes
  rawPath : Bytes
deriving DecidableEq

/-- `URL.setPath`. -/
def setPath (text : Bytes) : Option UrlPath :=
  (unescape false text).map fun path => ⟨path, if text = escapePath path then [] else text⟩

/-- `URL.EscapedPath`. -/
def UrlPath.escapedPath (u : UrlPath) : Bytes :=
  if u.rawPath ≠ [] ∧ validEncodedPath u.rawPath = true ∧ unescape false u.rawPath = some u.path then
    u.rawPath
  else if u.path = bytes "*" then bytes "*"
  else escapePath u.path

/-- A valid encoding of a path. -/
structure Encodes (text path : Bytes) : Prop where
  valid : validEncodedPath text = true
  decoded : unescape false text = some path

theorem Encodes.append {front back path tail : Bytes} (hfront : Encodes front path)
    (hback : Encodes back tail) : Encodes (front ++ back) (path ++ tail) := by
  constructor
  · rw [validEncodedPath, List.all_append, Bool.and_eq_true]
    exact ⟨hfront.valid, hback.valid⟩
  · rw [unescape_append hfront.decoded, hback.decoded]
    rfl

/-- After a percent sign stand two hexadecimal digits. -/
theorem hex_of_unescape {plus : Bool} {text path : Bytes}
    (h : unescape plus (37 :: text) = some path) : ∃ a b rest high low,
      text = a :: b :: rest ∧ fromHexChar a = some high ∧ fromHexChar b = some low := by
  match text with
  | [] => cases h
  | [_] => cases h
  | a :: b :: rest =>
      rw [unescape, if_pos rfl] at h
      split at h
      · rename_i high low hhigh hlow
        exact ⟨a, b, rest, high, low, rfl, hhigh, hlow⟩
      · cases h

/-- A slash stands for itself, whatever stands before it. -/
theorem unescape_of_append_slash {text back path : Bytes}
    (h : unescape false (text ++ 47 :: back) = some path) :
    ∃ front, unescape false text = some front := by
  fun_induction unescape false text generalizing path with
  | case1 => exact ⟨[], rfl⟩
  | case2 a b rest high low hlow hhigh ih =>
      rw [List.cons_append, List.cons_append, List.cons_append, unescape_hex hhigh hlow] at h
      obtain ⟨tail, htail, -⟩ := Option.map_eq_some_iff.mp h
      obtain ⟨front, hfront⟩ := ih htail
      rw [hfront]
      exact ⟨_, rfl⟩
  | case3 a b rest hhex =>
      obtain ⟨a', b', rest', high, low, htext, hhigh, hlow⟩ := hex_of_unescape h
      obtain ⟨rfl, rfl, -⟩ : a = a' ∧ b = b' ∧ rest ++ 47 :: back = rest' := by simpa using htext
      exact absurd hlow (hhex high low hhigh)
  | case4 rest hshort =>
      obtain ⟨a, b, rest', high, low, htext, hhigh, hlow⟩ := hex_of_unescape h
      match rest with
      | [] =>
          obtain rfl : 47 = a := (List.cons.inj htext).1
          cases hhigh
      | [c] =>
          obtain ⟨-, rfl, -⟩ : c = a ∧ 47 = b ∧ back = rest' := by simpa using htext
          cases hlow
      | c :: d :: rest => exact absurd rfl (hshort c d rest)
  | case5 c rest hc ih =>
      rw [List.cons_append, unescape_cons hc] at h
      obtain ⟨tail, htail, -⟩ := Option.map_eq_some_iff.mp h
      obtain ⟨front, hfront⟩ := ih htail
      rw [hfront]
      exact ⟨_, rfl⟩

/-- `strings.TrimRight` with a slash. -/
def trimSlashes (text : Bytes) : Bytes := text.rdropWhile (· = 47)

theorem Encodes.trim {text path : Bytes} (h : Encodes text path) :
    ∃ front, Encodes (trimSlashes text) front := by
  induction text using List.reverseRecOn generalizing path with
  | nil => exact ⟨path, h⟩
  | append_singleton text c ih =>
      by_cases hc : c = 47
      · subst hc
        obtain ⟨front, hfront⟩ := unescape_of_append_slash h.decoded
        have hvalid : validEncodedPath text = true := by
          have hall := h.valid
          rw [validEncodedPath, List.all_append, Bool.and_eq_true] at hall
          exact hall.1
        rw [trimSlashes, List.rdropWhile_concat_pos _ _ _ (by decide)]
        exact ih ⟨hvalid, hfront⟩
      · rw [trimSlashes, List.rdropWhile_concat_neg _ _ _ (by simpa using hc)]
        exact ⟨path, h⟩

/-- The written form of a path encodes it. -/
theorem encodes_escapedPath (u : UrlPath) : Encodes u.escapedPath u.path := by
  rw [UrlPath.escapedPath]
  split
  · rename_i hraw
    exact ⟨hraw.2.1, hraw.2.2⟩
  · split
    · rename_i hstar
      rw [hstar]
      exact ⟨by decide, by decide⟩
    · exact ⟨validEncodedPath_escapePath _, unescape_escapePath _⟩

/-- A valid encoding is read and written back as it is. -/
theorem escapedPath_of_encodes {text path : Bytes} (h : Encodes text path)
    (hstar : path ≠ bytes "*") :
    ∃ u, setPath text = some u ∧ u.path = path ∧ u.escapedPath = text := by
  refine ⟨⟨path, if text = escapePath path then [] else text⟩, ?_, rfl, ?_⟩
  · rw [setPath, h.decoded]
    rfl
  · by_cases hplain : text = escapePath path
    · rw [UrlPath.escapedPath, if_pos hplain, if_neg (by simp), if_neg hstar]
      exact hplain.symm
    · rw [UrlPath.escapedPath, if_neg hplain]
      by_cases hempty : text = []
      · subst hempty
        have hpath : path = [] := (Option.some.inj h.decoded).symm
        rw [if_neg (by simp), if_neg hstar, hpath]
        rfl
      · exact if_pos ⟨hempty, h.valid, h.decoded⟩

/-! ## Paths from the root -/

section Rooted
variable {text path : Bytes}

theorem ne_nil_of_head? (h : text.head? = some 47) : text ≠ [] := by
  rintro rfl
  cases h

theorem ne_star_of_head? (h : text.head? = some 47) : text ≠ bytes "*" := by
  rintro rfl
  exact absurd h (by decide)

theorem head?_of_unescape (h : unescape false text = some path) (hroot : text.head? = some 47) :
    path.head? = some 47 := by
  cases text with
  | nil => cases hroot
  | cons c rest =>
      obtain rfl : c = 47 := Option.some.inj hroot
      rw [unescape_cons (by decide), Option.map_eq_some_iff] at h
      obtain ⟨tail, -, rfl⟩ := h
      rfl

theorem head?_escapePath (h : path.head? = some 47) : (escapePath path).head? = some 47 := by
  cases path with
  | nil => cases h
  | cons c rest =>
      obtain rfl : c = 47 := Option.some.inj h
      rfl

/-- A path from the root is written from the root. -/
theorem head?_escapedPath {u : UrlPath} (h : setPath text = some u)
    (hroot : text.head? = some 47) : u.escapedPath.head? = some 47 := by
  obtain ⟨path, hpath, rfl⟩ := Option.map_eq_some_iff.mp h
  have hhead : path.head? = some 47 := head?_of_unescape hpath hroot
  by_cases hplain : text = escapePath path
  · rw [UrlPath.escapedPath, if_pos hplain, if_neg (by simp), if_neg (ne_star_of_head? hhead)]
    exact head?_escapePath hhead
  · rw [UrlPath.escapedPath, if_neg hplain, if_neg (ne_star_of_head? hhead)]
    split
    · exact hroot
    · exact head?_escapePath hhead

end Rooted

/-! ## Queries -/

/-- `Values.Add`. -/
def Values.add (key value : Bytes) : Values → Values
  | [] => [(key, [value])]
  | entry :: rest =>
      if entry.1 = key then (key, entry.2 ++ [value]) :: rest else entry :: Values.add key value rest

/-- A key with a value. What is empty, has a semicolon or does not decode is left out. -/
def parsePair (pair : Bytes) : Option (Bytes × Bytes) :=
  if pair = [] ∨ 59 ∈ pair then none
  else
    match unescape true (pair.takeWhile (· ≠ 61)), unescape true (pair.dropWhile (· ≠ 61)).tail with
    | some key, some value => some (key, value)
    | _, _ => none

/-- `URL.Query` for the query as it was written. -/
def parseQuery (raw : Bytes) : Values :=
  ((raw.splitOn 38).filterMap parsePair).foldl (fun values pair => values.add pair.1 pair.2) []

/-- The values in the order in which they are written. -/
def Values.sorted (values : Values) : Values := values.mergeSort fun a b => decide (a.1 ≤ b.1)

/-- Every key stands once and has a value. -/
structure Values.Proper (values : Values) : Prop where
  nodup : (values.map Prod.fst).Nodup
  nonempty : ∀ entry ∈ values, entry.2 ≠ []

section Query
variable {values : Values} {key value : Bytes}

theorem Values.Proper.sorted (h : values.Proper) : values.sorted.Proper := by
  have hperm : values.sorted.Perm values := List.mergeSort_perm _ _
  refine ⟨(hperm.map Prod.fst).nodup_iff.mpr h.nodup, fun entry hentry => ?_⟩
  exact h.nonempty entry (hperm.mem_iff.mp hentry)

theorem Values.sorted_sorted (values : Values) : values.sorted.sorted = values.sorted := by
  refine List.mergeSort_of_pairwise (List.pairwise_mergeSort ?_ ?_ values)
  · intro a b c hab hbc
    simp only [decide_eq_true_eq] at hab hbc ⊢
    exact List.le_trans hab hbc
  · intro a b
    simp only [Bool.or_eq_true, decide_eq_true_eq]
    exact List.le_total a.1 b.1

theorem Values.encode_sorted (values : Values) : values.sorted.encode = values.encode := by
  have hsorted := Values.sorted_sorted values
  rw [Values.sorted] at hsorted
  rw [Values.encode, Values.encode, hsorted, Values.sorted]

/-- The order in which the values are held does not show. -/
theorem Values.encode_perm {other : Values} (h : values.Proper) (hperm : values.Perm other) :
    values.encode = other.encode := by
  have hle : ∀ values : Values, values.sorted.Pairwise fun a b => a.1 ≤ b.1 := by
    intro values
    refine (List.pairwise_mergeSort ?_ ?_ values).imp of_decide_eq_true
    · intro a b c hab hbc
      simp only [decide_eq_true_eq] at hab hbc ⊢
      exact List.le_trans hab hbc
    · intro a b
      simp only [Bool.or_eq_true, decide_eq_true_eq]
      exact List.le_total a.1 b.1
  have hsorted : values.sorted.Perm values := List.mergeSort_perm _ _
  have hsame : values.sorted = other.sorted := by
    refine List.Perm.eq_of_pairwise ?_ (hle values) (hle other)
      (hsorted.trans (hperm.trans (List.mergeSort_perm _ _).symm))
    intro a b ha hb hab hba
    have ha' : a ∈ values := hsorted.mem_iff.mp ha
    have hb' : b ∈ values := hperm.mem_iff.mpr ((List.mergeSort_perm _ _).mem_iff.mp hb)
    exact List.inj_on_of_nodup_map h.nodup ha' hb' (List.le_antisymm hab hba)
  rw [← Values.encode_sorted values, hsame, Values.encode_sorted]

/-- A separator does not occur in what is escaped. -/
theorem notMem_queryEscape (text : Bytes) : 38 ∉ queryEscape text ∧ 61 ∉ queryEscape text ∧
    59 ∉ queryEscape text := by
  have hplain : ∀ c : UInt8, isUnreserved c = true → c ≠ 38 ∧ c ≠ 61 ∧ c ≠ 59 := by decide +kernel
  have hdigit : ∀ n < 16, isUnreserved (upperHexDigit n) = true := by decide
  have hall : ∀ c ∈ queryEscape text, c ≠ 38 ∧ c ≠ 61 ∧ c ≠ 59 := by
    intro d hd
    obtain ⟨c, -, hd⟩ := List.mem_flatMap.mp hd
    have hlt : c.toNat < 256 := c.toNat_lt
    split_ifs at hd with hc hspace
    · rw [List.mem_singleton] at hd
      exact hplain d (hd ▸ hc)
    · rw [List.mem_singleton] at hd
      subst hd
      decide
    · rw [List.mem_cons, List.mem_cons, List.mem_singleton] at hd
      obtain rfl | rfl | rfl := hd
      · decide
      · exact hplain _ (hdigit _ (by omega))
      · exact hplain _ (hdigit _ (by omega))
  exact ⟨fun h => (hall _ h).1 rfl, fun h => (hall _ h).2.1 rfl, fun h => (hall _ h).2.2 rfl⟩

/-- The pairs that a query is written from. -/
def Values.pairs (values : Values) : List (Bytes × Bytes) :=
  values.flatMap fun entry => entry.2.map fun value => (entry.1, value)

def writePair (pair : Bytes × Bytes) : Bytes := queryEscape pair.1 ++ 61 :: queryEscape pair.2

theorem Values.encode_eq (values : Values) :
    values.encode = List.intercalate [38] (values.sorted.pairs.map writePair) := by
  rw [Values.encode, Values.pairs, List.map_flatMap]
  simp only [List.map_map]
  rfl

theorem notMem_writePair (pair : Bytes × Bytes) : 38 ∉ writePair pair := by
  rw [writePair, List.mem_append, List.mem_cons]
  rintro (h | h | h)
  · exact (notMem_queryEscape _).1 h
  · exact absurd h (by decide)
  · exact (notMem_queryEscape _).1 h

theorem parsePair_writePair (pair : Bytes × Bytes) : parsePair (writePair pair) = some pair := by
  have hkey : ∀ c ∈ queryEscape pair.1, decide (c ≠ 61) = true := by
    intro c hc
    have hne : c ≠ 61 := fun h => (notMem_queryEscape pair.1).2.1 (h ▸ hc)
    exact decide_eq_true hne
  have htake : (writePair pair).takeWhile (· ≠ 61) = queryEscape pair.1 := by
    rw [writePair, List.takeWhile_append_of_pos hkey]
    simp
  have hdrop : (writePair pair).dropWhile (· ≠ 61) = 61 :: queryEscape pair.2 := by
    rw [writePair, List.dropWhile_append_of_pos hkey]
    simp
  have hgood : ¬(writePair pair = [] ∨ 59 ∈ writePair pair) := by
    rintro (hempty | hsemicolon)
    · simp [writePair] at hempty
    · rw [writePair, List.mem_append, List.mem_cons] at hsemicolon
      rcases hsemicolon with h | h | h
      · exact (notMem_queryEscape _).2.2 h
      · exact absurd h (by decide)
      · exact (notMem_queryEscape _).2.2 h
  rw [parsePair, if_neg hgood, htake, hdrop, List.tail_cons, unescape_queryEscape,
    unescape_queryEscape]

/-- Splitting what was written gives back the pairs. -/
theorem splitOn_encode (values : Values) :
    (values.encode.splitOn 38).filterMap parsePair = values.sorted.pairs := by
  rw [Values.encode_eq]
  by_cases hempty : values.sorted.pairs = []
  · rw [hempty]
    decide +kernel
  · rw [List.splitOn_intercalate]
    · rw [List.filterMap_map]
      have hsame : parsePair ∘ writePair = some := funext parsePair_writePair
      rw [hsame, List.filterMap_some]
    · intro text htext
      obtain ⟨pair, -, rfl⟩ := List.mem_map.mp htext
      exact notMem_writePair pair
    · simpa using hempty

theorem add_of_notMem (h : key ∉ values.map Prod.fst) :
    values.add key value = values ++ [(key, [value])] := by
  induction values with
  | nil => rfl
  | cons entry rest ih =>
      rw [List.map_cons, List.mem_cons, not_or] at h
      rw [Values.add, if_neg (Ne.symm h.1), ih h.2, List.cons_append]

theorem add_append_self {held : List Bytes} (h : key ∉ values.map Prod.fst) :
    Values.add key value (values ++ [(key, held)]) = values ++ [(key, held ++ [value])] := by
  induction values with
  | nil => simp [Values.add]
  | cons entry rest ih =>
      rw [List.map_cons, List.mem_cons, not_or] at h
      rw [List.cons_append, Values.add, if_neg (Ne.symm h.1), ih h.2, List.cons_append]

theorem foldl_add_append {held more : List Bytes} (h : key ∉ values.map Prod.fst) :
    (more.map fun value => (key, value)).foldl (fun values pair => Values.add pair.1 pair.2 values)
      (values ++ [(key, held)]) = values ++ [(key, held ++ more)] := by
  induction more generalizing held with
  | nil => simp
  | cons value more ih =>
      rw [List.map_cons, List.foldl_cons, add_append_self h, ih, List.append_assoc,
        List.singleton_append]

/-- Adding the pairs of proper values one after the other appends the values. -/
theorem foldl_add_pairs {more : Values} (hmore : more.Proper)
    (hfresh : ∀ entry ∈ more, entry.1 ∉ values.map Prod.fst) :
    more.pairs.foldl (fun values pair => Values.add pair.1 pair.2 values) values =
      values ++ more := by
  induction more generalizing values with
  | nil => simp [Values.pairs]
  | cons entry rest ih =>
      obtain ⟨key, held⟩ := entry
      have hkey := hfresh (key, held) List.mem_cons_self
      have hnodup := List.nodup_cons.mp hmore.nodup
      have hrest : Values.Proper rest :=
        ⟨hnodup.2, fun entry hentry => hmore.nonempty entry (List.mem_cons_of_mem _ hentry)⟩
      cases held with
      | nil => exact absurd rfl (hmore.nonempty (key, []) List.mem_cons_self)
      | cons value held =>
          have hpairs : Values.pairs ((key, value :: held) :: rest) =
              (key, value) :: (held.map fun value => (key, value)) ++ Values.pairs rest := rfl
          have hfresh' : ∀ entry ∈ rest,
              entry.1 ∉ (values ++ [(key, [value] ++ held)]).map Prod.fst := by
            intro entry hentry
            rw [List.map_append, List.mem_append, not_or]
            refine ⟨hfresh entry (List.mem_cons_of_mem _ hentry), fun hsame => hnodup.1 ?_⟩
            rw [← List.mem_singleton.mp hsame]
            exact List.mem_map_of_mem hentry
          rw [hpairs, List.cons_append, List.foldl_cons, List.foldl_append, add_of_notMem hkey,
            foldl_add_append hkey, ih hrest hfresh', List.append_assoc]
          rfl

theorem parseQuery_encode (h : values.Proper) : parseQuery values.encode = values.sorted := by
  rw [parseQuery, splitOn_encode, foldl_add_pairs h.sorted (by simp), List.nil_append]

theorem mem_keys_add {other : Bytes}
    (h : other ∈ (Values.add key value values).map Prod.fst) :
    other = key ∨ other ∈ values.map Prod.fst := by
  induction values with
  | nil => exact .inl (List.mem_singleton.mp h)
  | cons entry rest ih =>
      rw [Values.add] at h
      split at h
      · cases List.mem_cons.mp h with
        | inl hkey => exact .inl hkey
        | inr hrest => exact .inr (List.mem_cons_of_mem _ hrest)
      · cases List.mem_cons.mp h with
        | inl hentry => exact .inr (hentry ▸ List.mem_cons_self)
        | inr hrest => exact (ih hrest).imp_right (List.mem_cons_of_mem _)

theorem Values.Proper.add (h : values.Proper) (key value : Bytes) :
    (Values.add key value values).Proper := by
  induction values with
  | nil => exact ⟨List.nodup_singleton _, by simp [Values.add]⟩
  | cons entry rest ih =>
      have hnodup := List.nodup_cons.mp h.nodup
      have hrest : Values.Proper rest :=
        ⟨hnodup.2, fun entry hentry => h.nonempty entry (List.mem_cons_of_mem _ hentry)⟩
      rw [Values.add]
      split
      · rename_i hkey
        refine ⟨List.nodup_cons.mpr ⟨hkey ▸ hnodup.1, hnodup.2⟩, ?_⟩
        exact List.forall_mem_cons.mpr ⟨by simp, hrest.nonempty⟩
      · rename_i hkey
        have hadded := ih hrest
        refine ⟨List.nodup_cons.mpr ⟨fun hmem => ?_, hadded.nodup⟩, ?_⟩
        · cases mem_keys_add hmem with
          | inl hsame => exact hkey hsame
          | inr hold => exact hnodup.1 hold
        · exact List.forall_mem_cons.mpr ⟨h.nonempty entry List.mem_cons_self, hadded.nonempty⟩

theorem proper_parseQuery (raw : Bytes) : (parseQuery raw).Proper := by
  rw [parseQuery]
  exact List.foldlRecOn (motive := Values.Proper) _ _ ⟨List.nodup_nil, by simp⟩
    fun values h pair _ => h.add pair.1 pair.2

theorem Values.Proper.del (h : values.Proper) (key : Bytes) : (values.del key).Proper :=
  ⟨h.nodup.sublist (List.filter_sublist.map _),
    fun entry hentry => h.nonempty entry (List.mem_of_mem_filter hentry)⟩

end Query

end Encoding
