import WorkMesh.Encoding.RootedPath
import Mathlib.Data.List.DropRight

/-!
# Paths inside others

A cleaned path is a run of steps upwards and the plain elements behind it. A path
inside another has more plain elements than this.
-/

namespace Encoding

/-- The elements of a cleaned path: steps upwards and then plain elements. -/
structure Cleaned (rooted : Bool) (es : List Bytes) : Prop where
  form : ∃ n fs, es = List.replicate n (bytes "..") ++ fs ∧ (∀ e ∈ fs, PlainElement e) ∧
    (rooted = true → n = 0)

/-- The path of a list of elements. -/
def pathOf (rooted : Bool) (es : List Bytes) : Bytes :=
  if rooted then 47 :: [47].intercalate es
  else if es = [] then bytes "."
  else [47].intercalate es

section Forms
variable {rooted : Bool} {es fs : List Bytes} {path e : Bytes}

theorem foldl_cleanElement_up (n : ℕ) :
    (List.replicate n (bytes "..")).foldl (cleanElement false) [] =
      List.replicate n (bytes "..") := by
  have hdots : bytes ".." ≠ bytes "." := by decide
  induction n with
  | zero => rfl
  | succ n ih =>
      rw [List.replicate_succ', List.foldl_append, ih, List.foldl_cons, List.foldl_nil]
      unfold cleanElement
      rw [if_neg hdots, if_pos rfl]
      cases n with
      | zero => rfl
      | succ n =>
          rw [List.replicate_succ]
          dsimp only
          rw [if_pos rfl, ← List.replicate_succ, ← List.replicate_succ, List.replicate_succ']

/-- Cleaning leaves the elements of a cleaned path. -/
theorem Cleaned.foldl (h : Cleaned rooted es) :
    es.foldl (cleanElement rooted) [] = es.reverse := by
  obtain ⟨n, fs, rfl, hplain, hroot⟩ := h.form
  rw [List.foldl_append, List.reverse_append, List.reverse_replicate]
  cases rooted with
  | true =>
      rw [hroot rfl]
      exact foldl_cleanElement_plain true [] hplain
  | false =>
      rw [foldl_cleanElement_up]
      exact foldl_cleanElement_plain false _ hplain

theorem Cleaned.append (h : Cleaned rooted es) (hfs : ∀ e ∈ fs, PlainElement e) :
    Cleaned rooted (es ++ fs) := by
  obtain ⟨n, gs, rfl, hplain, hroot⟩ := h.form
  refine ⟨n, gs ++ fs, List.append_assoc _ _ _, fun e he => ?_, hroot⟩
  obtain he | he := List.mem_append.mp he
  · exact hplain e he
  · exact hfs e he

/-- One more element leaves a cleaned path, given with its last element first. -/
theorem Cleaned.cleanElement {kept : List Bytes} (h : Cleaned rooted kept.reverse)
    (he : e ≠ [] ∧ 47 ∉ e) : Cleaned rooted (cleanElement rooted kept e).reverse := by
  obtain ⟨n, fs, hkept, hplain, hroot⟩ := h.form
  unfold Encoding.cleanElement
  by_cases hdot : e = bytes "."
  · rw [if_pos hdot]
    exact h
  rw [if_neg hdot]
  by_cases hdots : e = bytes ".."
  · rw [if_pos hdots]
    cases kept with
    | nil =>
        cases rooted with
        | true => exact h
        | false =>
            refine ⟨1, [], ?_, by simp, fun h => by cases h⟩
            rw [hdots]
            rfl
    | cons last rest =>
        dsimp only
        rw [List.reverse_cons] at hkept
        split_ifs with hlast
        · have hnil : fs = [] := by
            by_contra hne
            have hend : fs.getLast hne = last := by
              have hat := congrArg List.getLast? hkept
              rw [List.getLast?_concat, List.getLast?_append_of_ne_nil _ hne,
                List.getLast?_eq_some_getLast hne] at hat
              exact (Option.some.inj hat).symm
            exact (hplain _ (List.getLast_mem hne)).ne_dots (hend.trans hlast)
          subst hnil
          refine ⟨n + 1, [], ?_, hplain, fun hr => ?_⟩
          · rw [List.reverse_cons, List.reverse_cons, hkept, List.append_nil, List.append_nil,
              hdots, List.replicate_succ']
          · rw [hroot hr] at hkept
            simp at hkept
        · by_cases hnil : fs = []
          · subst hnil
            rw [List.append_nil] at hkept
            have hmem : last ∈ List.replicate n (bytes "..") := by
              rw [← hkept]
              exact List.mem_append_right _ List.mem_cons_self
            exact absurd (List.eq_of_mem_replicate hmem) hlast
          · refine ⟨n, fs.dropLast, ?_, fun e he => hplain e (List.mem_of_mem_dropLast he), hroot⟩
            have hdrop := congrArg List.dropLast hkept
            rwa [List.dropLast_concat, List.dropLast_append_of_ne_nil hnil] at hdrop
  · rw [if_neg hdots, List.reverse_cons]
    refine h.append fun f hf => ?_
    rw [List.mem_singleton.mp hf]
    exact ⟨he.1, he.2, hdot, hdots⟩

/-- What is kept of a path is cleaned. -/
theorem cleaned_foldl (hes : ∀ e ∈ es, e ≠ [] ∧ 47 ∉ e) {kept : List Bytes}
    (hkept : Cleaned rooted kept.reverse) :
    Cleaned rooted (es.foldl (cleanElement rooted) kept).reverse := by
  induction es generalizing kept with
  | nil => exact hkept
  | cons e es ih =>
      exact ih (fun f hf => hes f (List.mem_cons_of_mem _ hf))
        (hkept.cleanElement (hes e List.mem_cons_self))

/-- A cleaned path is the path of its cleaned elements. -/
theorem exists_cleaned (path : Bytes) :
    ∃ es, Cleaned (isRooted path) es ∧ cleanPath path = pathOf (isRooted path) es :=
  ⟨_, cleaned_foldl (fun _ => mem_elements) ⟨0, [], rfl, by simp, fun _ => rfl⟩, rfl⟩

theorem Cleaned.mem (h : Cleaned rooted es) (he : e ∈ es) : e ≠ [] ∧ 47 ∉ e ∧ e ≠ bytes "." := by
  obtain ⟨n, fs, rfl, hplain, -⟩ := h.form
  obtain he | he := List.mem_append.mp he
  · rw [List.eq_of_mem_replicate he]
    decide
  · exact ⟨(hplain e he).ne_nil, (hplain e he).slash, (hplain e he).ne_dot⟩

theorem isRooted_pathOf (h : Cleaned rooted es) : isRooted (pathOf rooted es) = rooted := by
  cases rooted with
  | true => exact isRooted_rootedPath
  | false =>
      unfold pathOf
      rw [if_neg Bool.false_ne_true]
      split
      · rfl
      · rename_i hes
        cases es with
        | nil => exact absurd rfl hes
        | cons e es =>
            obtain ⟨hne, hslash, -⟩ := h.mem List.mem_cons_self
            cases e with
            | nil => exact absurd rfl hne
            | cons c e =>
                have hc : c ≠ 47 := fun heq => hslash (heq ▸ List.mem_cons_self)
                cases es with
                | nil => simpa [isRooted, List.intercalate] using hc
                | cons f es => simpa [isRooted, List.intercalate_cons_cons] using hc

theorem elements_pathOf (h : Cleaned rooted es) (hes : rooted = true ∨ es ≠ []) :
    elements (pathOf rooted es) = es := by
  have hall : ∀ e ∈ es, e ≠ [] ∧ 47 ∉ e := fun e he => ⟨(h.mem he).1, (h.mem he).2.1⟩
  unfold pathOf
  cases rooted with
  | true =>
      rw [if_pos rfl, elements_slash]
      exact elements_intercalate hall
  | false =>
      have hne : es ≠ [] := hes.resolve_left Bool.false_ne_true
      rw [if_neg Bool.false_ne_true, if_neg hne]
      exact elements_intercalate hall

theorem cleanPath_pathOf (h : Cleaned rooted es) (hes : rooted = true ∨ es ≠ []) :
    cleanPath (pathOf rooted es) = pathOf rooted es := by
  unfold cleanPath
  dsimp only
  rw [isRooted_pathOf h, elements_pathOf h hes, h.foldl, List.reverse_reverse]
  rfl

theorem intercalate_append (hes : es ≠ []) (hfs : fs ≠ []) :
    [47].intercalate (es ++ fs) = [47].intercalate es ++ (47 : UInt8) :: [47].intercalate fs := by
  induction es with
  | nil => exact absurd rfl hes
  | cons e es ih =>
      cases es with
      | nil =>
          cases fs with
          | nil => exact absurd rfl hfs
          | cons f fs =>
              rw [List.singleton_append, List.intercalate_cons_cons, List.intercalate_singleton,
                List.append_assoc]
              rfl
      | cons e' es =>
          rw [List.cons_append, List.cons_append, List.intercalate_cons_cons,
            List.intercalate_cons_cons, ← List.cons_append, ih (List.cons_ne_nil e' es),
            List.append_assoc, List.append_assoc]
          simp

theorem pathOf_append (hes : es ≠ []) (hfs : fs ≠ []) :
    pathOf rooted (es ++ fs) = pathOf rooted es ++ 47 :: [47].intercalate fs := by
  unfold pathOf
  rw [intercalate_append hes hfs, if_neg hes, if_neg (List.append_ne_nil_of_left_ne_nil hes fs)]
  split
  · rfl
  · rfl

/-- A cleaned path that is neither the root nor the working directory has elements. -/
theorem exists_elements {root : Bytes} (hroot : root = cleanPath path) (hslash : root ≠ [47])
    (hdot : root ≠ bytes ".") :
    ∃ es, Cleaned (isRooted path) es ∧ root = pathOf (isRooted path) es ∧ es ≠ [] := by
  obtain ⟨es, hes, hpath⟩ := exists_cleaned path
  refine ⟨es, hes, hroot.trans hpath, ?_⟩
  rintro rfl
  rw [hroot, hpath] at hslash hdot
  unfold pathOf at hslash hdot
  cases hrooted : isRooted path with
  | true =>
      rw [hrooted, if_pos rfl] at hslash
      exact hslash rfl
  | false =>
      rw [hrooted, if_neg Bool.false_ne_true, if_pos rfl] at hdot
      exact hdot rfl

end Forms

/-- A path strictly inside another: plain elements follow. -/
def Inside (root path : Bytes) : Prop :=
  ∃ fs, fs ≠ [] ∧ (∀ e ∈ fs, PlainElement e) ∧ path = root ++ 47 :: [47].intercalate fs

/-- A cleaned path but the root does not end in a slash. -/
theorem rdropWhile_cleanPath {path : Bytes} (hslash : cleanPath path ≠ [47]) :
    (cleanPath path).rdropWhile (· = 47) = cleanPath path := by
  by_cases hdot : cleanPath path = bytes "."
  · rw [hdot]
    decide
  obtain ⟨es, hes, hpath, hnil⟩ := exists_elements rfl hslash hdot
  obtain ⟨front, last, rfl⟩ := (List.eq_nil_or_concat' es).resolve_left hnil
  obtain ⟨hne, hlast, -⟩ := hes.mem (List.mem_append_right front List.mem_cons_self)
  obtain ⟨shorter, c, rfl⟩ := (List.eq_nil_or_concat' last).resolve_left hne
  have hc : ¬ decide (c = 47) = true := by
    intro hslash
    exact hlast (List.mem_append_right _ (by simp [of_decide_eq_true hslash]))
  have hend : ∃ back, pathOf (isRooted path) (front ++ [shorter ++ [c]]) = back ++ [c] := by
    cases front with
    | nil =>
        refine ⟨if isRooted path then 47 :: shorter else shorter, ?_⟩
        unfold pathOf
        rw [List.nil_append, List.intercalate_singleton, if_neg (List.cons_ne_nil _ _)]
        split
        · rfl
        · rfl
    | cons e front =>
        refine ⟨pathOf (isRooted path) (e :: front) ++ 47 :: shorter, ?_⟩
        rw [pathOf_append (List.cons_ne_nil e front) (List.cons_ne_nil _ _),
          List.intercalate_singleton, List.append_assoc, List.cons_append]
  obtain ⟨back, hback⟩ := hend
  rw [hpath, hback]
  exact List.rdropWhile_concat_neg _ _ _ hc

section Inside
variable {root path back : Bytes} {fs : List Bytes}

/-- Plain elements behind a cleaned path make a cleaned path. -/
theorem cleanPath_inside (hroot : root = cleanPath path) (hslash : root ≠ [47])
    (hdot : root ≠ bytes ".") (hfs : ∀ e ∈ fs, PlainElement e) (hne : fs ≠ []) :
    cleanPath (root ++ 47 :: [47].intercalate fs) = root ++ 47 :: [47].intercalate fs := by
  obtain ⟨es, hes, rfl, hnil⟩ := exists_elements hroot hslash hdot
  rw [← pathOf_append hnil hne]
  exact cleanPath_pathOf (hes.append hfs) (.inr (List.append_ne_nil_of_left_ne_nil hnil fs))

theorem dropCommon_eq (as bs : List Bytes) :
    ∃ common, as = common ++ (dropCommon as bs).1 ∧ bs = common ++ (dropCommon as bs).2 := by
  induction as generalizing bs with
  | nil => exact ⟨[], rfl, by cases bs <;> rfl⟩
  | cons a as ih =>
      cases bs with
      | nil => exact ⟨[], rfl, rfl⟩
      | cons b bs =>
          unfold dropCommon
          split
          · rename_i heq
            obtain ⟨common, has, hbs⟩ := ih bs
            refine ⟨a :: common, ?_, ?_⟩
            · rw [List.cons_append, ← has]
            · rw [List.cons_append, ← hbs, heq]
          · exact ⟨[], rfl, rfl⟩

/-- Of the elements behind those of a cleaned path, the first is a step upwards or none is. -/
theorem plain_behind {rooted : Bool} {es down : List Bytes} (h : Cleaned rooted (es ++ down))
    (hfirst : down.head? ≠ some (bytes "..")) : ∀ e ∈ down, PlainElement e := by
  obtain ⟨n, gs, heq, hplain, -⟩ := h.form
  obtain ⟨rest, hups, rfl⟩ | ⟨rest, -, rfl⟩ := List.append_eq_append_iff.mp heq
  · cases rest with
    | nil => exact hplain
    | cons first rest =>
        have hmem : first ∈ List.replicate n (bytes "..") := by
          rw [hups]
          exact List.mem_append_right _ List.mem_cons_self
        rw [List.eq_of_mem_replicate hmem] at hfirst
        exact absurd rfl hfirst
  · exact fun e he => hplain e (List.mem_append_right _ he)

/-- The elements by which relative paths are found. -/
theorem named_pathOf {rooted : Bool} {es : List Bytes} (h : Cleaned rooted es) :
    (elements (pathOf rooted es)).filter (fun e => decide (e ≠ bytes ".")) = es := by
  by_cases hes : rooted = true ∨ es ≠ []
  · rw [elements_pathOf h hes, List.filter_eq_self]
    exact fun e he => decide_eq_true (h.mem he).2.2
  · obtain ⟨hrooted, hnil⟩ := not_or.mp hes
    rw [not_not.mp hnil, eq_false_of_ne_true hrooted]
    decide

theorem cleanPath_cleanPath (path : Bytes) : cleanPath (cleanPath path) = cleanPath path := by
  obtain ⟨es, hes, hpath⟩ := exists_cleaned path
  rw [hpath]
  by_cases hnil : isRooted path = true ∨ es ≠ []
  · exact cleanPath_pathOf hes hnil
  · obtain ⟨hrooted, hempty⟩ := not_or.mp hnil
    rw [not_not.mp hempty, eq_false_of_ne_true hrooted]
    decide

/-- A cleaned path does not begin with a step to where it begins. -/
theorem cleanPath_ne_dot_slash (path rest : Bytes) : cleanPath path ≠ 46 :: 47 :: rest := by
  intro h
  obtain ⟨es, hes, hpath⟩ := exists_cleaned path
  rw [hpath] at h
  cases hrooted : isRooted path with
  | true =>
      rw [hrooted, pathOf, if_pos rfl] at h
      cases h
  | false =>
      rw [hrooted] at h hes
      unfold pathOf at h
      rw [if_neg Bool.false_ne_true] at h
      split at h
      · cases h
      have helements := elements_intercalate fun e he => ⟨(hes.mem he).1, (hes.mem he).2.1⟩
      have hsplit : (46 : UInt8) :: 47 :: rest = bytes "." ++ 47 :: rest := rfl
      rw [h, hsplit, elements_append] at helements
      have hmem : bytes "." ∈ es := by
        rw [← helements]
        exact List.mem_append_left _ (by decide)
      exact (hes.mem hmem).2.2 rfl

/-- The way to a path leads neither upwards nor nowhere, so the path is inside. -/
theorem inside_of_relativePath {target rel : Bytes} (hroot : root = cleanPath path)
    (hslash : root ≠ [47]) (hdot : root ≠ bytes ".") (htarget : target = cleanPath back)
    (hrel : relativePath root target = some rel) (hstays : rel ≠ bytes ".")
    (hup : ¬ (bytes "../").isPrefixOf rel = true ∧ rel ≠ bytes "..") : Inside root target := by
  have hclean : cleanPath root = root := by rw [hroot, cleanPath_cleanPath]
  have hclean' : cleanPath target = target := by rw [htarget, cleanPath_cleanPath]
  obtain ⟨es, hes, hrooted, hnil⟩ := exists_elements hroot hslash hdot
  obtain ⟨gs, hgs, htarget'⟩ := exists_cleaned back
  rw [← htarget] at htarget'
  unfold relativePath at hrel
  dsimp only at hrel
  rw [hclean, hclean'] at hrel
  split at hrel
  · exact absurd (Option.some.inj hrel).symm hstays
  rename_i hne
  split at hrel
  · cases hrel
  rename_i hkind
  have hsame : isRooted path = isRooted back := by
    rw [hrooted, htarget', isRooted_pathOf hes, isRooted_pathOf hgs] at hkind
    exact not_not.mp hkind
  simp only [hrooted, htarget', named_pathOf hes, named_pathOf hgs] at hrel
  obtain ⟨common, hcommon, hcommon'⟩ := dropCommon_eq es gs
  generalize dropCommon es gs = parts at hrel hcommon hcommon'
  obtain ⟨up, down⟩ := parts
  dsimp only at hrel hcommon hcommon'
  split at hrel
  · cases hrel
  have hword := Option.some.inj hrel
  -- a step upwards would be the first of the way
  have hfirst : ∀ rest, up.map (fun _ => bytes "..") ++ down ≠ bytes ".." :: rest := by
    intro rest heq
    rw [heq] at hword
    cases rest with
    | nil => exact hup.2 (by rw [← hword, List.intercalate_singleton])
    | cons e rest =>
        apply hup.1
        rw [← hword, List.intercalate_cons_cons, List.isPrefixOf_iff_prefix]
        exact List.prefix_append _ _
  cases up with
  | cons e up => exact absurd rfl (hfirst _)
  | nil =>
      rw [List.append_nil] at hcommon
      subst hcommon
      have hplain : ∀ e ∈ down, PlainElement e := by
        refine plain_behind (hcommon' ▸ hgs) fun hhead => ?_
        obtain ⟨rest, rfl⟩ := List.head?_eq_some_iff.mp hhead
        exact hfirst rest rfl
      have hdown : down ≠ [] := by
        rintro rfl
        rw [List.append_nil] at hcommon'
        exact hne (by rw [hrooted, htarget', hcommon', hsame])
      refine ⟨down, hdown, hplain, ?_⟩
      rw [htarget', hcommon', pathOf_append hnil hdown, hrooted, hsame]

end Inside

end Encoding
