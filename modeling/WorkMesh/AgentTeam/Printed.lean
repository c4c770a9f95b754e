import WorkMesh.AgentTeam.Value

/-!
# Secrets in a printed value

A payload that is no map is stored as the text that `fmt.Sprint` prints of it,
cut after 64000 bytes. This text is a sequence of pieces, and those that print a
value under a sensitive key are its secrets. What comes before the first of them
depends on nothing secret.
-/

namespace WorkMesh.AgentTeam

/-! ## Values that differ in their secrets -/

mutual

/-- Two values differ at most in what is stored under sensitive keys. -/
inductive SamePublic : Json → Json → Prop
  | null : SamePublic .null .null
  | bool (b) : SamePublic (.bool b) (.bool b)
  | num (value text) : SamePublic (.num value text) (.num value text)
  | str (s) : SamePublic (.str s) (.str s)
  | arr {xs ys} : SamePublicItems xs ys → SamePublic (.arr xs) (.arr ys)
  | obj {xs ys} : SamePublicFields xs ys → SamePublic (.obj xs) (.obj ys)

inductive SamePublicItems : List Json → List Json → Prop
  | nil : SamePublicItems [] []
  | cons {x y xs ys} : SamePublic x y → SamePublicItems xs ys →
      SamePublicItems (x :: xs) (y :: ys)

inductive SamePublicFields : Fields → Fields → Prop
  | nil : SamePublicFields [] []
  | secret {key xs ys} (v w) : sensitiveTeamField key = true → SamePublicFields xs ys →
      SamePublicFields ((key, v) :: xs) ((key, w) :: ys)
  | shown {key v w xs ys} : SamePublic v w → SamePublicFields xs ys →
      SamePublicFields ((key, v) :: xs) ((key, w) :: ys)

end

/-! ## Redaction -/

mutual

/-- Redaction removes all that differs. -/
theorem SamePublic.sanitize {v w : Json} : SamePublic v w →
    sanitizeTeamValue v = sanitizeTeamValue w
  | .null => rfl
  | .bool _ => rfl
  | .num _ _ => rfl
  | .str _ => rfl
  | .arr h => by rw [sanitizeTeamValue, sanitizeTeamValue, h.sanitize]
  | .obj h => by
      rw [sanitizeTeamValue, sanitizeTeamValue]
      exact congrArg Json.obj h.sanitize

theorem SamePublicItems.sanitize {xs ys : List Json} : SamePublicItems xs ys →
    sanitizeTeamValue.sanitizeItems xs = sanitizeTeamValue.sanitizeItems ys
  | .nil => rfl
  | .cons hv h => by
      rw [sanitizeTeamValue.sanitizeItems, sanitizeTeamValue.sanitizeItems, hv.sanitize, h.sanitize]

theorem SamePublicFields.sanitize {xs ys : Fields} : SamePublicFields xs ys →
    sanitizeTeamValue.sanitizeTeamMap xs = sanitizeTeamValue.sanitizeTeamMap ys
  | .nil => rfl
  | .secret _ _ hkey h => by
      rw [sanitizeTeamValue.sanitizeTeamMap, sanitizeTeamValue.sanitizeTeamMap, if_pos hkey,
        if_pos hkey, h.sanitize]
  | .shown hv h => by
      rw [sanitizeTeamValue.sanitizeTeamMap, sanitizeTeamValue.sanitizeTeamMap, hv.sanitize,
        h.sanitize]

end

mutual

/-- A value that is redacted already stays as it is. -/
theorem sanitizeTeamValue_twice (v : Json) :
    sanitizeTeamValue (sanitizeTeamValue v) = sanitizeTeamValue v := by
  cases v with
  | arr items => simp only [sanitizeTeamValue, sanitizeItems_twice items]
  | obj fields => simp only [sanitizeTeamValue, sanitizeTeamMap_twice fields]
  | _ => rfl

theorem sanitizeItems_twice (items : List Json) :
    sanitizeTeamValue.sanitizeItems (sanitizeTeamValue.sanitizeItems items) =
      sanitizeTeamValue.sanitizeItems items := by
  cases items with
  | nil => rfl
  | cons item items =>
      simp only [sanitizeTeamValue.sanitizeItems, sanitizeTeamValue_twice item,
        sanitizeItems_twice items]

theorem sanitizeTeamMap_twice (fields : Fields) :
    sanitizeTeamValue.sanitizeTeamMap (sanitizeTeamValue.sanitizeTeamMap fields) =
      sanitizeTeamValue.sanitizeTeamMap fields := by
  cases fields with
  | nil => rfl
  | cons entry fields =>
      obtain ⟨key, value⟩ := entry
      simp only [sanitizeTeamValue.sanitizeTeamMap, sanitizeTeamMap_twice fields]
      split
      · rfl
      · rw [sanitizeTeamValue_twice value]

end

/-! ## The pieces of a printed value -/

/-- A piece of the text that is printed of a value. -/
inductive Piece where
  | shown (text : List Char)
  | secret (text : List Char)

def Piece.text : Piece → List Char
  | .shown text => text
  | .secret text => text

def Piece.isShown : Piece → Bool
  | .shown _ => true
  | .secret _ => false

/-- The same piece with another secret. -/
def Piece.fill (text : List Char) : Piece → Piece
  | .shown old => .shown old
  | .secret _ => .secret text

/-- The text of a list of pieces. -/
def textOf (pieces : List Piece) : List Char := pieces.flatMap Piece.text

/-- Map entries in the order in which they are printed. -/
def byKey {α : Type*} (entries : List (String × α)) : List (String × α) :=
  entries.insertionSort fun a b => decide (a.1 ≤ b.1)

/-- The pieces of `sprint`. -/
def piecesOf : Json → List Piece
  | .arr items =>
      .shown ['['] :: [.shown [' ']].intercalate (itemPieces items) ++ [.shown [']']]
  | .obj fields =>
      .shown "map[".toList :: [.shown [' ']].intercalate ((byKey (fieldPieces fields)).map
        fun e => .shown e.1.toList :: .shown [':'] :: e.2) ++ [.shown [']']]
  | value => [.shown (sprint value).toList]
where
  itemPieces : List Json → List (List Piece)
    | [] => []
    | item :: items => piecesOf item :: itemPieces items
  fieldPieces : Fields → List (String × List Piece)
    | [] => []
    | (key, value) :: fields =>
        (key, if sensitiveTeamField key then [.secret (sprint value).toList] else piecesOf value) ::
          fieldPieces fields

theorem map_byKey {α β : Type*} (f : α → β) (entries : List (String × α)) :
    (byKey entries).map (fun e => (e.1, f e.2)) = byKey (entries.map fun e => (e.1, f e.2)) :=
  List.map_insertionSort _ _ _ _ fun _ _ _ _ => Iff.rfl

theorem flatMap_intercalate {α β : Type*} (f : α → List β) (separator : List α)
    (parts : List (List α)) :
    (separator.intercalate parts).flatMap f =
      (separator.flatMap f).intercalate (parts.map fun part => part.flatMap f) := by
  induction parts with
  | nil => rfl
  | cons part parts ih =>
      cases parts with
      | nil => simp
      | cons next parts =>
          rw [List.intercalate_cons_cons, List.flatMap_append, List.flatMap_append, ih]
          simp only [List.map_cons, List.intercalate_cons_cons]

theorem map_intercalate {α β : Type*} (f : α → β) (separator : List α) (parts : List (List α)) :
    (separator.intercalate parts).map f =
      (separator.map f).intercalate (parts.map fun part => part.map f) := by
  simpa only [List.map_eq_flatMap] using flatMap_intercalate (fun a => [f a]) separator parts

@[simp] theorem textOf_nil : textOf [] = [] := rfl

@[simp] theorem textOf_cons (piece : Piece) (pieces : List Piece) :
    textOf (piece :: pieces) = piece.text ++ textOf pieces := rfl

@[simp] theorem textOf_append (first second : List Piece) :
    textOf (first ++ second) = textOf first ++ textOf second := List.flatMap_append

theorem textOf_intercalate (separator : List Piece) (parts : List (List Piece)) :
    textOf (separator.intercalate parts) = (textOf separator).intercalate (parts.map textOf) :=
  flatMap_intercalate Piece.text separator parts

mutual

/-- The pieces make up what is printed. -/
theorem textOf_piecesOf (v : Json) : textOf (piecesOf v) = (sprint v).toList := by
  cases v with
  | arr items =>
      have hitems := textOf_itemPieces items
      simp [piecesOf, sprint, textOf_intercalate, hitems, Piece.text]
  | obj fields =>
      have hfields := textOf_fieldPieces fields
      have hsorted : (byKey (piecesOf.fieldPieces fields)).map (fun e => (e.1, textOf e.2)) =
          (byKey (sprint.sprintFields fields)).map fun e => (e.1, e.2.toList) := by
        rw [map_byKey, map_byKey, hfields]
      have hentries := congrArg
        (List.map fun e : String × List Char => e.1.toList ++ ':' :: e.2) hsorted
      simp only [List.map_map] at hentries
      simp only [piecesOf, sprint, textOf_append, textOf_cons, textOf_nil, textOf_intercalate,
        List.map_map, Piece.text, String.toList_append, String.toList_intercalate]
      simpa [Function.comp_def, byKey, Piece.text] using
        congrArg (List.intercalate [' ']) hentries
  | null => simp [piecesOf, Piece.text]
  | bool b => simp [piecesOf, Piece.text]
  | num value text => simp [piecesOf, Piece.text]
  | str s => simp [piecesOf, Piece.text]

theorem textOf_itemPieces (items : List Json) :
    (piecesOf.itemPieces items).map textOf = (sprint.sprintItems items).map String.toList := by
  cases items with
  | nil => rfl
  | cons item items =>
      simp only [piecesOf.itemPieces, sprint.sprintItems, List.map_cons, textOf_piecesOf item,
        textOf_itemPieces items]

theorem textOf_fieldPieces (fields : Fields) :
    (piecesOf.fieldPieces fields).map (fun e => (e.1, textOf e.2)) =
      (sprint.sprintFields fields).map fun e => (e.1, e.2.toList) := by
  cases fields with
  | nil => rfl
  | cons entry fields =>
      obtain ⟨key, value⟩ := entry
      simp only [piecesOf.fieldPieces, sprint.sprintFields, List.map_cons,
        textOf_fieldPieces fields]
      split
      · simp [textOf, Piece.text]
      · rw [textOf_piecesOf value]

end

/-! ## Other secrets in the same places -/

mutual

/-- With the same secret everywhere the pieces no longer differ. -/
theorem SamePublic.pieces (text : List Char) {v w : Json} : SamePublic v w →
    (piecesOf v).map (Piece.fill text) = (piecesOf w).map (Piece.fill text)
  | .null => rfl
  | .bool _ => rfl
  | .num _ _ => rfl
  | .str _ => rfl
  | .arr h => by
      simp only [piecesOf, List.map_append, List.map_cons, map_intercalate, h.pieces text]
  | .obj h => by
      have hsorted := congrArg byKey (h.pieces text)
      rw [← map_byKey, ← map_byKey] at hsorted
      have hentries := congrArg (List.map fun e : String × List Piece =>
        .shown e.1.toList :: .shown [':'] :: e.2) hsorted
      simp only [List.map_map, Function.comp_def] at hentries
      simp only [piecesOf, List.map_append, List.map_cons, map_intercalate, List.map_map,
        Function.comp_def, Piece.fill, hentries]

theorem SamePublicItems.pieces (text : List Char) {xs ys : List Json} : SamePublicItems xs ys →
    (piecesOf.itemPieces xs).map (List.map (Piece.fill text)) =
      (piecesOf.itemPieces ys).map (List.map (Piece.fill text))
  | .nil => rfl
  | .cons hv h => by
      simp only [piecesOf.itemPieces, List.map_cons, hv.pieces text, h.pieces text]

theorem SamePublicFields.pieces (text : List Char) {xs ys : Fields} : SamePublicFields xs ys →
    (piecesOf.fieldPieces xs).map (fun e => (e.1, e.2.map (Piece.fill text))) =
      (piecesOf.fieldPieces ys).map fun e => (e.1, e.2.map (Piece.fill text))
  | .nil => rfl
  | .secret _ _ hkey h => by
      simp only [piecesOf.fieldPieces, List.map_cons, h.pieces text, hkey, if_true, List.map_nil,
        Piece.fill]
  | .shown hv h => by
      simp only [piecesOf.fieldPieces, List.map_cons, h.pieces text]
      split
      · rfl
      · rw [hv.pieces text]

end

/-- The value with one text under every sensitive key. -/
def fillSecrets (text : String) : Json → Json
  | .obj fields => .obj (fillFields text fields)
  | .arr items => .arr (fillItems text items)
  | value => value
where
  fillFields (text : String) : Fields → Fields
    | [] => []
    | (key, value) :: fields =>
        (key, if sensitiveTeamField key then .str text else fillSecrets text value) ::
          fillFields text fields
  fillItems (text : String) : List Json → List Json
    | [] => []
    | item :: items => fillSecrets text item :: fillItems text items

mutual

theorem samePublic_fillSecrets (text : String) (v : Json) : SamePublic v (fillSecrets text v) := by
  cases v with
  | arr items => exact .arr (samePublic_fillItems text items)
  | obj fields => exact .obj (samePublic_fillFields text fields)
  | null => exact .null
  | bool b => exact .bool b
  | num value text => exact .num value text
  | str s => exact .str s

theorem samePublic_fillItems (text : String) (items : List Json) :
    SamePublicItems items (fillSecrets.fillItems text items) := by
  cases items with
  | nil => exact .nil
  | cons item items =>
      exact .cons (samePublic_fillSecrets text item) (samePublic_fillItems text items)

theorem samePublic_fillFields (text : String) (fields : Fields) :
    SamePublicFields fields (fillSecrets.fillFields text fields) := by
  cases fields with
  | nil => exact .nil
  | cons entry fields =>
      obtain ⟨key, value⟩ := entry
      rw [fillSecrets.fillFields]
      by_cases hkey : sensitiveTeamField key = true
      · exact .secret _ _ hkey (samePublic_fillFields text fields)
      · rw [if_neg hkey]
        exact .shown (samePublic_fillSecrets text value) (samePublic_fillFields text fields)

end

mutual

theorem piecesOf_fillSecrets (text : String) (v : Json) :
    piecesOf (fillSecrets text v) = (piecesOf v).map (Piece.fill text.toList) := by
  cases v with
  | arr items =>
      simp only [fillSecrets, piecesOf, itemPieces_fillItems text items, List.map_append,
        List.map_cons, map_intercalate, List.map_nil, Piece.fill]
  | obj fields =>
      simp only [fillSecrets, piecesOf, fieldPieces_fillFields text fields, List.map_append,
        List.map_cons, map_intercalate, List.map_map, List.map_nil, Piece.fill, ← map_byKey,
        Function.comp_def]
  | _ => rfl

theorem itemPieces_fillItems (text : String) (items : List Json) :
    piecesOf.itemPieces (fillSecrets.fillItems text items) =
      (piecesOf.itemPieces items).map (List.map (Piece.fill text.toList)) := by
  cases items with
  | nil => rfl
  | cons item items =>
      simp only [fillSecrets.fillItems, piecesOf.itemPieces, List.map_cons,
        piecesOf_fillSecrets text item, itemPieces_fillItems text items]

theorem fieldPieces_fillFields (text : String) (fields : Fields) :
    piecesOf.fieldPieces (fillSecrets.fillFields text fields) =
      (piecesOf.fieldPieces fields).map fun e => (e.1, e.2.map (Piece.fill text.toList)) := by
  cases fields with
  | nil => rfl
  | cons entry fields =>
      obtain ⟨key, value⟩ := entry
      simp only [fillSecrets.fillFields, piecesOf.fieldPieces, List.map_cons,
        fieldPieces_fillFields text fields]
      by_cases hkey : sensitiveTeamField key = true
      · simp only [hkey, if_true, List.map_cons, List.map_nil, Piece.fill, sprint]
      · simp only [hkey, Bool.false_eq_true, if_false, piecesOf_fillSecrets text value]

end

/-! ## What comes before the first secret -/

/-- The text before the first secret. -/
def publicText (pieces : List Piece) : List Char := textOf (pieces.takeWhile Piece.isShown)

/-- A list with a secret whose text starts within the 64000 bytes that are stored. -/
def leaks : Json → Bool
  | .arr items =>
      (piecesOf (.arr items)).any (fun piece => !piece.isShown) &&
        String.utf8Len (publicText (piecesOf (.arr items))) < 64000
  | _ => false

@[simp] theorem isShown_fill (text : List Char) (piece : Piece) :
    (piece.fill text).isShown = piece.isShown := by
  cases piece <;> rfl

theorem fill_of_isShown {text : List Char} {piece : Piece} (h : piece.isShown = true) :
    piece.fill text = piece := by
  cases piece with
  | shown => rfl
  | secret => cases h

theorem map_fill_of_shown {text : List Char} {pieces : List Piece}
    (h : ∀ piece ∈ pieces, piece.isShown = true) : pieces.map (Piece.fill text) = pieces := by
  rw [List.map_congr_left fun piece hpiece => fill_of_isShown (h piece hpiece), List.map_id']

theorem publicText_map_fill (text : List Char) (pieces : List Piece) :
    publicText (pieces.map (Piece.fill text)) = publicText pieces := by
  have hshown : Piece.isShown ∘ Piece.fill text = Piece.isShown :=
    funext fun piece => isShown_fill text piece
  rw [publicText, publicText, List.takeWhile_map, hshown,
    map_fill_of_shown fun piece hpiece => List.mem_takeWhile_imp hpiece]

theorem textOf_eq_public (pieces : List Piece) :
    textOf pieces = publicText pieces ++ textOf (pieces.dropWhile Piece.isShown) := by
  rw [publicText, ← textOf_append, List.takeWhile_append_dropWhile]

/-! ## Cutting a text -/

@[simp] theorem takeBytes_zero (text : List Char) : takeBytes text 0 = [] := by
  cases text with
  | nil => rfl
  | cons c text =>
      have hpos := Char.utf8Size_pos c
      rw [takeBytes, if_neg (by omega), List.replicate_zero]

theorem takeBytes_append_left (first rest : List Char) {n : Nat}
    (h : String.utf8Len first ≤ n) :
    takeBytes (first ++ rest) n = first ++ takeBytes rest (n - String.utf8Len first) := by
  induction first generalizing n with
  | nil => rfl
  | cons c first ih =>
      rw [String.utf8Len_cons] at h
      rw [List.cons_append, takeBytes, if_pos (by omega), ih (by omega), String.utf8Len_cons,
        List.cons_append]
      congr 3
      omega

theorem takeBytes_append_right {first : List Char} (rest : List Char) {n : Nat}
    (h : n ≤ String.utf8Len first) : takeBytes (first ++ rest) n = takeBytes first n := by
  induction first generalizing n with
  | nil =>
      obtain rfl : n = 0 := Nat.le_zero.mp h
      rw [takeBytes_zero, takeBytes_zero]
  | cons c first ih =>
      rw [String.utf8Len_cons] at h
      rw [List.cons_append, takeBytes, takeBytes]
      split
      · rw [ih (by omega)]
      · rfl

theorem boundedText_toList (value : String) (max : Nat) :
    (boundedText value max).toList = takeBytes (trimSpace value).toList max := by
  simp only [boundedText]
  split
  · rw [String.toList_ofList]
  · rename_i hshort
    have hsize : String.utf8Len (trimSpace value).toList = (trimSpace value).utf8ByteSize := by
      rw [← String.utf8ByteSize_ofList, String.ofList_toList]
    have hfits : String.utf8Len (trimSpace value).toList ≤ max := by omega
    have hkept := takeBytes_append_left (trimSpace value).toList [] hfits
    rw [List.append_nil, takeBytes, List.append_nil] at hkept
    exact hkept.symm

theorem trimSpace_of_ends {value : String} {first last : Char} {middle : List Char}
    (h : value.toList = first :: (middle ++ [last])) (hfirst : isSpace first = false)
    (hlast : isSpace last = false) : trimSpace value = value := by
  have hback : (first :: (middle ++ [last])).reverse = last :: (middle.reverse ++ [first]) := by
    simp
  rw [trimSpace, h, List.dropWhile_cons_of_neg (by simp [hfirst]), hback,
    List.dropWhile_cons_of_neg (by simp [hlast]), ← hback, List.reverse_reverse, ← h,
    String.ofList_toList]

/-- The text of a list is stored from its bracket on. -/
theorem boundedText_sprint_arr (items : List Json) (max : Nat) :
    (boundedText (sprint (.arr items)) max).toList =
      takeBytes (textOf (piecesOf (.arr items))) max := by
  have htext : (sprint (.arr items)).toList =
      '[' :: ((" ".intercalate (sprint.sprintItems items)).toList ++ [']']) := by
    rw [sprint, String.toList_append, String.toList_append]
    rfl
  rw [boundedText_toList, trimSpace_of_ends htext (by decide) (by decide), textOf_piecesOf]

/-- Without a leak the stored text tells nothing of the secrets. -/
theorem boundedText_of_not_leaks {xs ys : List Json} (h : SamePublic (.arr xs) (.arr ys))
    (hsafe : leaks (.arr xs) = false) :
    boundedText (sprint (.arr xs)) 64000 = boundedText (sprint (.arr ys)) 64000 := by
  have hpieces := h.pieces []
  simp only [leaks] at hsafe
  rw [← String.toList_inj, boundedText_sprint_arr, boundedText_sprint_arr]
  generalize piecesOf (.arr xs) = ps at hpieces hsafe
  generalize piecesOf (.arr ys) = qs at hpieces
  have hpublic : publicText ps = publicText qs := by
    rw [← publicText_map_fill [] ps, hpieces, publicText_map_fill]
  rw [Bool.and_eq_false_iff, decide_eq_false_iff_not, Nat.not_lt] at hsafe
  rcases hsafe with hnone | hlong
  · -- no secret at all
    have hshown : ∀ pieces : List Piece, (pieces.any fun piece => !piece.isShown) = false →
        ∀ piece ∈ pieces, piece.isShown = true := by
      intro pieces hany piece hpiece
      simpa using List.any_eq_false.mp hany piece hpiece
    have hany : (qs.any fun piece => !piece.isShown) = false := by
      have hfilled : ∀ pieces : List Piece, ((pieces.map (Piece.fill [])).any fun piece =>
          !piece.isShown) = pieces.any fun piece => !piece.isShown := by
        intro pieces
        rw [List.any_map]
        simp only [Function.comp_def, isShown_fill]
      rw [← hfilled, ← hpieces, hfilled, hnone]
    rw [map_fill_of_shown (hshown ps hnone), map_fill_of_shown (hshown qs hany)] at hpieces
    rw [hpieces]
  · rw [textOf_eq_public ps, textOf_eq_public qs, takeBytes_append_right _ hlong, hpublic,
      takeBytes_append_right _ (hpublic ▸ hlong)]

/-! ## Two texts that tell their secrets apart -/

/-- The same text, or one with `<` for some of the `a`s of the other. -/
def Told (xs ys : List Char) : Prop :=
  List.Forall₂ (fun x y => x = y ∨ x = 'a' ∧ y = '<') xs ys

theorem told_refl (xs : List Char) : Told xs xs :=
  List.forall₂_same.mpr fun _ _ => .inl rfl

theorem Told.append {xs ys xs' ys' : List Char} (h : Told xs ys) (h' : Told xs' ys') :
    Told (xs ++ xs') (ys ++ ys') := List.rel_append h h'

theorem told_fill (pieces : List Piece) :
    Told (textOf (pieces.map (Piece.fill ['a']))) (textOf (pieces.map (Piece.fill ['<']))) := by
  induction pieces with
  | nil => exact .nil
  | cons piece pieces ih =>
      rw [List.map_cons, List.map_cons, textOf_cons, textOf_cons]
      refine Told.append ?_ ih
      cases piece with
      | shown text => exact told_refl text
      | secret text => exact .cons (.inr ⟨rfl, rfl⟩) .nil

theorem Told.take {xs ys : List Char} (h : Told xs ys) (n : Nat) :
    Told (takeBytes xs n) (takeBytes ys n) := by
  induction h generalizing n with
  | nil => exact .nil
  | @cons x y xs ys hxy _ ih =>
      have hsize : x.utf8Size = y.utf8Size := by
        rcases hxy with rfl | ⟨rfl, rfl⟩
        · rfl
        · decide
      rw [takeBytes, takeBytes, hsize]
      split
      · exact .cons hxy (ih _)
      · exact told_refl _

/-- `<` is longer in JSON than the letter it stands for. -/
theorem Told.size {xs ys : List Char} (h : Told xs ys) :
    (xs.map jsonCharSize).sum ≤ (ys.map jsonCharSize).sum := by
  induction h with
  | nil => exact Nat.le_refl _
  | cons hxy _ ih =>
      rw [List.map_cons, List.map_cons, List.sum_cons, List.sum_cons]
      refine Nat.add_le_add ?_ ih
      rcases hxy with rfl | ⟨rfl, rfl⟩
      · exact Nat.le_refl _
      · decide

/-- The first secret of a list of pieces. -/
theorem exists_first_secret {pieces : List Piece}
    (h : (pieces.any fun piece => !piece.isShown) = true) :
    ∃ secret rest, pieces.dropWhile Piece.isShown = .secret secret :: rest := by
  cases hrest : pieces.dropWhile Piece.isShown with
  | nil =>
      obtain ⟨piece, hpiece, hsecret⟩ := List.any_eq_true.mp h
      rw [List.dropWhile_eq_nil_iff.mp hrest piece hpiece] at hsecret
      cases hsecret
  | cons piece rest =>
      have hpiece := List.head_dropWhile_not Piece.isShown (l := pieces)
        (by rw [hrest]; exact List.cons_ne_nil _ _)
      simp only [hrest, List.head_cons] at hpiece
      cases piece with
      | shown text => cases hpiece
      | secret text => exact ⟨text, rest, rfl⟩

/-- The stored text of a filling: the public text, the first secret, and more. -/
theorem takeBytes_filling {pieces rest : List Piece} {secret : List Char}
    (hrest : pieces.dropWhile Piece.isShown = .secret secret :: rest)
    (hshort : String.utf8Len (publicText pieces) < 64000) {c : Char} (hc : c.utf8Size = 1) :
    takeBytes (textOf (pieces.map (Piece.fill [c]))) 64000 = publicText pieces ++
      c :: takeBytes (textOf (rest.map (Piece.fill [c])))
        (64000 - String.utf8Len (publicText pieces) - 1) := by
  have hshown : Piece.isShown ∘ Piece.fill [c] = Piece.isShown :=
    funext fun piece => isShown_fill [c] piece
  rw [textOf_eq_public, publicText_map_fill, List.dropWhile_map, hshown, hrest, List.map_cons,
    textOf_cons, takeBytes_append_left _ _ (Nat.le_of_lt hshort)]
  have hfirst : (Piece.secret secret).fill [c] = .secret [c] := rfl
  rw [hfirst, Piece.text, List.singleton_append, takeBytes, if_pos (by omega), hc]

/-- Two fillings of a leaking value are stored as texts that differ in length as JSON. -/
theorem jsonStringSize_of_leaks {items : List Json} (h : leaks (.arr items) = true) :
    jsonStringSize (boundedText (sprint (fillSecrets "a" (.arr items))) 64000) <
      jsonStringSize (boundedText (sprint (fillSecrets "<" (.arr items))) 64000) := by
  rw [leaks, Bool.and_eq_true, decide_eq_true_eq] at h
  obtain ⟨secret, rest, hrest⟩ := exists_first_secret h.1
  have hpieces : ∀ text, piecesOf (.arr (fillSecrets.fillItems text items)) =
      (piecesOf (.arr items)).map (Piece.fill text.toList) :=
    fun text => piecesOf_fillSecrets text (.arr items)
  have htold := (told_fill rest).take
    (64000 - String.utf8Len (publicText (piecesOf (.arr items))) - 1)
  have ha := takeBytes_filling hrest h.2 (c := 'a') (by decide)
  have hless := takeBytes_filling hrest h.2 (c := '<') (by decide)
  simp only [fillSecrets, jsonStringSize, boundedText_sprint_arr, hpieces]
  rw [show "a".toList = ['a'] from rfl, show "<".toList = ['<'] from rfl, ha, hless]
  simp only [List.map_append, List.map_cons, List.sum_append, List.sum_cons]
  have hsize := htold.size
  have hletters : jsonCharSize 'a' < jsonCharSize '<' := by decide
  omega

end WorkMesh.AgentTeam
