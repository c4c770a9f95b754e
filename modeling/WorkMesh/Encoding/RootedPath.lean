import WorkMesh.Encoding.Path

/-!
# Rooted paths and their elements

A cleaned path that begins with a slash is its list of plain elements. Joining an element
to it appends to the list, and the relative path to one below is what is appended.
-/

namespace Encoding

/-- An element that stays when a path is cleaned. -/
structure PlainElement (e : Bytes) : Prop where
  ne_nil : e ≠ []
  slash : 47 ∉ e
  ne_dot : e ≠ bytes "."
  ne_dots : e ≠ bytes ".."

/-- The path of a list of elements. -/
def rootedPath (es : List Bytes) : Bytes := 47 :: [47].intercalate es

section Elements
variable {es fs : List Bytes} {e path : Bytes}

theorem elements_append (front back : Bytes) :
    elements (front ++ 47 :: back) = elements front ++ elements back := by
  simp only [elements, List.splitOn_append_cons_self, List.filter_append]

@[simp] theorem elements_nil : elements [] = [] := by
  decide

theorem elements_slash (back : Bytes) : elements (47 :: back) = elements back := by
  have happend := elements_append [] back
  rwa [List.nil_append, elements_nil, List.nil_append] at happend

theorem elements_single (hne : e ≠ []) (hslash : 47 ∉ e) : elements e = [e] := by
  rw [elements, List.splitOn_eq_singleton hslash]
  simp [hne]

/-- A joined path has the elements of its parts. -/
theorem elements_joined (es : List Bytes) :
    elements ([47].intercalate es) = es.flatMap elements := by
  induction es with
  | nil => exact elements_nil
  | cons e es ih =>
      cases es with
      | nil => rw [List.intercalate_singleton, List.flatMap_singleton]
      | cons f es =>
          rw [List.intercalate_cons_cons, List.append_assoc, List.singleton_append,
            elements_append, ih]
          simp only [List.flatMap_cons]

theorem elements_intercalate (h : ∀ e ∈ es, e ≠ [] ∧ 47 ∉ e) :
    elements ([47].intercalate es) = es := by
  by_cases hes : es = []
  · subst hes
    exact elements_nil
  · rw [elements, List.splitOn_intercalate 47 (fun e he => (h e he).2) hes, List.filter_eq_self]
    intro e he
    simpa using (h e he).1

theorem elements_rootedPath (h : ∀ e ∈ es, PlainElement e) : elements (rootedPath es) = es := by
  rw [rootedPath, elements_slash]
  exact elements_intercalate fun e he => ⟨(h e he).ne_nil, (h e he).slash⟩

theorem mem_elements (h : e ∈ elements path) : e ≠ [] ∧ 47 ∉ e := by
  obtain ⟨hsplit, hne⟩ := List.mem_filter.mp h
  refine ⟨by simpa using hne, ?_⟩
  intro hslash
  have hjoined : [47].intercalate (path.splitOn 47) = path := List.intercalate_splitOn 47
  have hpieces : ∀ (text : Bytes), ∀ piece ∈ text.splitOn 47, (47 : UInt8) ∉ piece := by
    intro text
    induction text with
    | nil => simp
    | cons c text ih =>
        intro piece hpiece
        rw [List.splitOn_cons_eq_if_modifyHead] at hpiece
        split_ifs at hpiece with hc
        · obtain rfl | hpiece := List.mem_cons.mp hpiece
          · exact List.not_mem_nil
          · exact ih piece hpiece
        · cases htail : text.splitOn 47 with
          | nil => exact absurd htail (List.splitOn_ne_nil 47 text)
          | cons first rest =>
              rw [htail, List.modifyHead_cons] at hpiece
              have hfirst := ih first (htail ▸ List.mem_cons_self)
              obtain rfl | hpiece := List.mem_cons.mp hpiece
              · intro hmem
                obtain rfl | hmem := List.mem_cons.mp hmem
                · exact hc rfl
                · exact hfirst hmem
              · exact ih piece (htail ▸ List.mem_cons_of_mem _ hpiece)
  exact hpieces path e hsplit hslash

/-- The last element ends the path. -/
theorem rootedPath_append_singleton (es : List Bytes) (e : Bytes) :
    ∃ front, rootedPath (es ++ [e]) = 47 :: front ++ e := by
  induction es with
  | nil => exact ⟨[], by simp [rootedPath, List.intercalate]⟩
  | cons f es ih =>
      obtain ⟨front, hfront⟩ := ih
      have htail : [47].intercalate (es ++ [e]) = front ++ e := by
        simpa [rootedPath] using hfront
      cases hes : es ++ [e] with
      | nil => simp at hes
      | cons g gs =>
          refine ⟨f ++ 47 :: front, ?_⟩
          rw [hes] at htail
          rw [rootedPath, List.cons_append, hes, List.intercalate_cons_cons, htail]
          simp

theorem getLast?_rootedPath {es : List Bytes} {e : Bytes} (he : e ≠ []) :
    (rootedPath (es ++ [e])).getLast? = e.getLast? := by
  obtain ⟨front, hfront⟩ := rootedPath_append_singleton es e
  rw [hfront, List.getLast?_append_of_ne_nil _ he]

theorem isRooted_rootedPath : isRooted (rootedPath es) = true := by
  simp [isRooted, rootedPath]

theorem isRooted_append (h : isRooted path = true) (back : Bytes) :
    isRooted (path ++ back) = true := by
  cases path with
  | nil => simp [isRooted] at h
  | cons c rest => exact h

end Elements

section Clean
variable {es fs : List Bytes} {e path : Bytes}

theorem cleanElement_plain (rooted : Bool) (kept : List Bytes) (h : PlainElement e) :
    cleanElement rooted kept e = e :: kept := by
  simp only [cleanElement, if_neg h.ne_dot, if_neg h.ne_dots]

theorem foldl_cleanElement_plain (rooted : Bool) (kept : List Bytes)
    (h : ∀ e ∈ es, PlainElement e) :
    es.foldl (cleanElement rooted) kept = es.reverse ++ kept := by
  induction es generalizing kept with
  | nil => rfl
  | cons e es ih =>
      rw [List.foldl_cons, cleanElement_plain rooted kept (h e List.mem_cons_self),
        ih _ fun e he => h e (List.mem_cons_of_mem _ he), List.reverse_cons, List.append_assoc]
      rfl

/-- What a rooted path keeps when it is cleaned is plain. -/
theorem plain_foldl_cleanElement {kept : List Bytes} (hes : ∀ e ∈ es, e ≠ [] ∧ 47 ∉ e)
    (hkept : ∀ e ∈ kept, PlainElement e) :
    ∀ e ∈ es.foldl (cleanElement true) kept, PlainElement e := by
  induction es generalizing kept with
  | nil => exact hkept
  | cons e es ih =>
      rw [List.foldl_cons]
      apply ih fun e he => hes e (List.mem_cons_of_mem _ he)
      intro held hheld
      simp only [cleanElement] at hheld
      split_ifs at hheld with hdot hdots
      · exact hkept held hheld
      · cases kept with
        | nil => simp at hheld
        | cons last rest =>
            have hlast := (hkept last List.mem_cons_self).ne_dots
            simp only [if_neg hlast] at hheld
            exact hkept held (List.mem_cons_of_mem _ hheld)
      · obtain rfl | hheld := List.mem_cons.mp hheld
        · obtain ⟨hne, hslash⟩ := hes held List.mem_cons_self
          exact ⟨hne, hslash, hdot, hdots⟩
        · exact hkept held hheld

theorem cleanPath_eq_rootedPath (h : isRooted path = true) :
    cleanPath path = rootedPath ((elements path).foldl (cleanElement true) []).reverse := by
  simp only [cleanPath, h, if_true, rootedPath]

/-- A path from the root is cleaned to one of plain elements. -/
theorem exists_rootedPath (h : isRooted path = true) :
    ∃ es, (∀ e ∈ es, PlainElement e) ∧ cleanPath path = rootedPath es := by
  refine ⟨_, ?_, cleanPath_eq_rootedPath h⟩
  intro e he
  exact plain_foldl_cleanElement (fun e he => mem_elements he) (fun e he => by cases he) e
    (List.mem_reverse.mp he)

theorem cleanPath_rootedPath (h : ∀ e ∈ es, PlainElement e) :
    cleanPath (rootedPath es) = rootedPath es := by
  rw [cleanPath_eq_rootedPath isRooted_rootedPath, elements_rootedPath h,
    foldl_cleanElement_plain true [] h, List.append_nil, List.reverse_reverse]

theorem cleanPath_rootedPath_append (h : ∀ e ∈ es, PlainElement e) (hfs : ∀ e ∈ fs, PlainElement e)
    {back : Bytes} (hback : elements back = fs) :
    cleanPath (rootedPath es ++ 47 :: back) = rootedPath (es ++ fs) := by
  have hall : ∀ e ∈ es ++ fs, PlainElement e := by
    intro e he
    obtain he | he := List.mem_append.mp he
    · exact h e he
    · exact hfs e he
  rw [cleanPath_eq_rootedPath (isRooted_append isRooted_rootedPath _), elements_append,
    elements_rootedPath h, hback, foldl_cleanElement_plain true [] hall, List.append_nil,
    List.reverse_reverse]

theorem joinPath_rootedPath (h : ∀ e ∈ es, PlainElement e) (he : PlainElement e) :
    joinPath (rootedPath es) e = rootedPath (es ++ [e]) := by
  apply cleanPath_rootedPath_append h
  · intro f hf
    rw [List.mem_singleton.mp hf]
    exact he
  · exact elements_single he.ne_nil he.slash

end Clean

section Relative
variable {es fs : List Bytes}

theorem dropCommon_append (es fs : List Bytes) : dropCommon es (es ++ fs) = ([], fs) := by
  induction es with
  | nil => cases fs <;> rfl
  | cons e es ih => rw [List.cons_append, dropCommon, if_pos rfl, ih]

theorem rootedPath_injective (hes : ∀ e ∈ es, PlainElement e) (hfs : ∀ e ∈ fs, PlainElement e)
    (h : rootedPath es = rootedPath fs) : es = fs := by
  rw [← elements_rootedPath hes, h, elements_rootedPath hfs]

/-- The way from a path to one below it. -/
theorem relativePath_below (h : ∀ e ∈ es ++ fs, PlainElement e) (hfs : fs ≠ []) :
    relativePath (rootedPath es) (rootedPath (es ++ fs)) = some ([47].intercalate fs) := by
  have hes : ∀ e ∈ es, PlainElement e := fun e he => h e (List.mem_append_left _ he)
  have hne : rootedPath es ≠ rootedPath (es ++ fs) := by
    intro heq
    have hlist := rootedPath_injective hes h heq
    exact hfs (List.self_eq_append_right.mp hlist)
  have hnamed : ∀ {gs : List Bytes}, (∀ e ∈ gs, PlainElement e) →
      gs.filter (fun e => decide (e ≠ bytes ".")) = gs := by
    intro gs hgs
    rw [List.filter_eq_self]
    intro e he
    exact decide_eq_true (hgs e he).ne_dot
  simp only [relativePath, cleanPath_rootedPath hes, cleanPath_rootedPath h, if_neg hne,
    isRooted_rootedPath, ne_eq, not_true, if_false, elements_rootedPath hes, elements_rootedPath h]
  rw [hnamed hes, hnamed h, dropCommon_append]
  simp

end Relative

end Encoding
