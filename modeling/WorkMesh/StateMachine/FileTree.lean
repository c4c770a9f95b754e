import Mathlib.Data.List.Infix

/-!
# Trees of directories and files

A tree gives each path the directory or the file that stands there, if any. The
paths above a node are directories, which the structure carries as a field. The
operations are those of a file system: they answer `none` where it refuses.
-/

namespace StateMachine

/-- What stands at a path. -/
inductive Node (δ : Type) where
  | dir
  | file (content : δ)

/-- The nodes by their paths. The first entry of a path counts. -/
structure FileTree (κ δ : Type) [DecidableEq κ] where
  nodes : List (List κ × Node δ)
  closed : ∀ p, (nodes.lookup p).isSome → ∀ q, q <+: p → q ≠ p → q ≠ [] →
    nodes.lookup q = some .dir

namespace FileTree

variable {κ δ : Type} [DecidableEq κ]

/-- The tree of nothing but the root. -/
def empty : FileTree κ δ := ⟨[], by simp⟩

/-! ## Lists of entries -/

section Entries
variable {p : List κ} {l : List (List κ × Node δ)}

theorem lookup_cons_ite (q : List κ) (n : Node δ) :
    ((q, n) :: l).lookup p = if p = q then some n else l.lookup p := by
  by_cases h : p = q
  · simp [h]
  · rw [if_neg h, List.lookup_cons, beq_false_of_ne h]

theorem lookup_filter (gone : List κ → Bool) :
    (l.filter fun e => !gone e.1).lookup p = if gone p then none else l.lookup p := by
  induction l with
  | nil => simp
  | cons e l ih =>
      obtain ⟨q, n⟩ := e
      by_cases hgone : gone q = true
      · have hcons : ((q, n) :: l).filter (fun e => !gone e.1) =
            l.filter fun e => !gone e.1 := by simp [hgone]
        rw [hcons, ih, lookup_cons_ite]
        by_cases hpq : p = q
        · rw [hpq, if_pos hgone, if_pos hgone]
        · rw [if_neg hpq]
      · have hcons : ((q, n) :: l).filter (fun e => !gone e.1) =
            (q, n) :: l.filter fun e => !gone e.1 := by simp [hgone]
        rw [hcons, lookup_cons_ite, lookup_cons_ite, ih]
        by_cases hpq : p = q
        · rw [if_pos hpq, if_pos hpq, hpq, if_neg hgone]
        · rw [if_neg hpq, if_neg hpq]

theorem lookup_append (front : List (List κ × Node δ)) :
    (front ++ l).lookup p = (front.lookup p).or (l.lookup p) := by
  induction front with
  | nil => simp
  | cons e front ih =>
      obtain ⟨q, n⟩ := e
      rw [List.cons_append, lookup_cons_ite, lookup_cons_ite, ih]
      split <;> rfl

theorem lookup_map_dir (dirs : List (List κ)) :
    (dirs.map fun q => (q, (Node.dir : Node δ))).lookup p =
      if p ∈ dirs then some .dir else none := by
  induction dirs with
  | nil => simp
  | cons q dirs ih =>
      rw [List.map_cons, lookup_cons_ite, ih]
      by_cases hpq : p = q <;> simp [hpq]

end Entries

/-! ## Reading -/

section Reading
variable (t : FileTree κ δ) (p : List κ)

/-- The node at a path. The root is a directory. -/
def node : Option (Node δ) := if p = [] then some .dir else t.nodes.lookup p

/-- The content of the file at a path. -/
def content : Option δ :=
  match t.node p with
  | some (.file d) => some d
  | _ => none

def isDir : Bool :=
  match t.node p with
  | some .dir => true
  | _ => false

/-- No file stands above the path, so that it can be looked up. -/
def passable : Bool := p.inits.all fun q => q = p || (t.content q).isNone

/-- Something stands below the path. -/
def occupied : Bool := t.nodes.any fun e => p.isPrefixOf e.1 && e.1 ≠ p

end Reading

variable {t : FileTree κ δ} {p q : List κ}

@[simp] theorem node_nil : t.node [] = some .dir := by simp [node]

theorem node_of_ne (h : p ≠ []) : t.node p = t.nodes.lookup p := if_neg h

theorem node_above (h : (t.node p).isSome) (hq : q <+: p) (hne : q ≠ p) :
    t.node q = some .dir := by
  by_cases hnil : q = []
  · rw [hnil, node_nil]
  · have hp : p ≠ [] := by
      rintro rfl
      exact hne (List.prefix_nil.mp hq)
    rw [node_of_ne hp] at h
    rw [node_of_ne hnil]
    exact t.closed p h q hq hne hnil

theorem isDir_iff : t.isDir p = true ↔ t.node p = some .dir := by
  unfold isDir
  split <;> simp_all

theorem content_eq_some {d : δ} : t.content p = some d ↔ t.node p = some (.file d) := by
  unfold content
  split <;> simp_all

theorem content_of_dir (h : t.node p = some .dir) : t.content p = none := by simp [content, h]

theorem content_congr {u : FileTree κ δ} (h : t.node p = u.node p) :
    t.content p = u.content p := by
  simp [content, h]

theorem passable_iff : t.passable p = true ↔ ∀ q, q <+: p → q ≠ p → t.content q = none := by
  simp only [passable, List.all_eq_true, List.mem_inits, Bool.or_eq_true, decide_eq_true_eq,
    Option.isNone_iff_eq_none]
  exact ⟨fun h q hq hne => (h q hq).resolve_left hne, fun h q hq => by
    by_cases hne : q = p
    · exact .inl hne
    · exact .inr (h q hq hne)⟩

theorem passable_of_isSome (h : (t.node p).isSome) : t.passable p = true :=
  passable_iff.mpr fun _ hq hne => content_of_dir (node_above h hq hne)

/-! ## Directories -/

/-- `MkdirAll`. -/
def mkdirAll (t : FileTree κ δ) (p : List κ) : Option (FileTree κ δ) :=
  if p.inits.all fun q => (t.content q).isNone then
    some
      { nodes := (p.inits.map fun q => (q, Node.dir)) ++ t.nodes
        closed := by
          intro r hr q hq hne hnil
          rw [lookup_append, lookup_map_dir] at hr ⊢
          by_cases hmem : q ∈ p.inits
          · rw [if_pos hmem]
            rfl
          · have hr' : r ∉ p.inits := fun h =>
              hmem ((List.mem_inits ..).mpr (hq.trans ((List.mem_inits ..).mp h)))
            rw [if_neg hr'] at hr
            rw [if_neg hmem]
            exact t.closed r hr q hq hne hnil }
  else none

theorem mkdirAll_isSome : (t.mkdirAll p).isSome ↔ ∀ q, q <+: p → t.content q = none := by
  unfold mkdirAll
  split <;> simp_all [List.mem_inits]

theorem node_mkdirAll {u : FileTree κ δ} (h : t.mkdirAll p = some u) (q : List κ) :
    u.node q = if q <+: p then some .dir else t.node q := by
  unfold mkdirAll at h
  split at h
  · obtain rfl := Option.some.inj h
    by_cases hnil : q = []
    · subst hnil
      simp
    · rw [node_of_ne hnil, node_of_ne hnil]
      change List.lookup q (_ ++ t.nodes) = _
      rw [lookup_append, lookup_map_dir]
      simp only [List.mem_inits]
      split <;> rfl
  · cases h

theorem content_mkdirAll {u : FileTree κ δ} (h : t.mkdirAll p = some u) (q : List κ) :
    u.content q = t.content q := by
  have hnode := node_mkdirAll h q
  have hnone := mkdirAll_isSome.mp (h ▸ rfl : (t.mkdirAll p).isSome)
  split at hnode
  · rename_i hq
    rw [content_of_dir hnode, hnone q hq]
  · exact content_congr hnode

/-! ## Files -/

omit [DecidableEq κ] in
theorem prefix_dropLast {q r : List κ} (hq : q <+: r) (hne : q ≠ r) : q <+: r.dropLast := by
  obtain ⟨s, rfl⟩ := hq
  cases s using List.reverseRecOn with
  | nil => exact absurd (List.append_nil q).symm hne
  | append_singleton s a =>
      rw [← List.append_assoc, List.dropLast_concat]
      exact List.prefix_append q s

/-- A file takes its place at a path, as a rename of a new file does. -/
def put (t : FileTree κ δ) (p : List κ) (d : δ) : Option (FileTree κ δ) :=
  if h : t.isDir p = false ∧ t.isDir p.dropLast = true then
    some
      { nodes := (p, .file d) :: t.nodes
        closed := by
          have hparent := isDir_iff.mp h.2
          intro r hr q hq hne hnil
          rw [lookup_cons_ite] at hr ⊢
          by_cases hrp : r = p
          · subst hrp
            rw [if_neg hne, ← node_of_ne hnil]
            obtain rfl | habove := eq_or_ne q r.dropLast
            · exact hparent
            · exact node_above (by rw [hparent]; rfl) (prefix_dropLast hq hne) habove
          · rw [if_neg hrp] at hr
            have hdir := t.closed r hr q hq hne hnil
            have hqp : q ≠ p := by
              rintro rfl
              have htrue : t.isDir q = true := isDir_iff.mpr (by rw [node_of_ne hnil, hdir])
              simp [htrue] at h
            rw [if_neg hqp, hdir] }
  else none

theorem put_isSome {d : δ} :
    (t.put p d).isSome ↔ t.node p ≠ some .dir ∧ t.node p.dropLast = some .dir := by
  simp only [ne_eq, ← isDir_iff, Bool.not_eq_true]
  unfold put
  split <;> simp_all

theorem node_put {u : FileTree κ δ} {d : δ} (h : t.put p d = some u) (q : List κ) :
    u.node q = if q = p then some (.file d) else t.node q := by
  have hok := put_isSome.mp (h ▸ rfl : (t.put p d).isSome)
  unfold put at h
  split at h
  · obtain rfl := Option.some.inj h
    by_cases hnil : q = []
    · subst hnil
      have hp : ([] : List κ) ≠ p := by
        rintro rfl
        exact hok.1 node_nil
      rw [if_neg hp, node_nil, node_nil]
    · rw [node_of_ne hnil, node_of_ne hnil]
      exact lookup_cons_ite p _
  · cases h

theorem content_put {u : FileTree κ δ} {d : δ} (h : t.put p d = some u) (q : List κ) :
    u.content q = if q = p then some d else t.content q := by
  have hnode := node_put h q
  split at hnode
  · rename_i hqp
    rw [if_pos hqp]
    exact content_eq_some.mpr hnode
  · rename_i hqp
    rw [if_neg hqp]
    exact content_congr hnode

/-! ## Removing and moving -/

/-- The tree without some nodes, and without all that is below them. -/
def prune (t : FileTree κ δ) (gone : List κ → Bool)
    (hgone : ∀ q r, gone q = true → q <+: r → (t.node r).isSome → gone r = true) :
    FileTree κ δ where
  nodes := t.nodes.filter fun e => !gone e.1
  closed := by
    intro r hr q hq hne hnil
    rw [lookup_filter] at hr ⊢
    split at hr
    · simp at hr
    · rename_i hkept
      have hrnil : r ≠ [] := by
        rintro rfl
        exact hnil (List.prefix_nil.mp hq)
      have hqkept : gone q = false := by
        by_contra hcon
        exact hkept (hgone q r (by simpa using hcon) hq (by rwa [node_of_ne hrnil]))
      rw [hqkept]
      exact t.closed r hr q hq hne hnil

theorem node_prune {gone : List κ → Bool} {hgone} (q : List κ) (hnil : gone [] = false) :
    (t.prune gone hgone).node q = if gone q then none else t.node q := by
  by_cases hq : q = []
  · subst hq
    simp [hnil]
  · rw [node_of_ne hq, node_of_ne hq]
    exact lookup_filter gone

theorem occupied_eq_false : t.occupied p = false ↔ ∀ q, p <+: q → q ≠ p → t.node q = none := by
  have hsome : ∀ q, q ≠ [] → ((t.node q).isSome ↔ ∃ n, (q, n) ∈ t.nodes) := by
    intro q hq
    rw [node_of_ne hq, List.lookup_isSome_iff]
    constructor
    · rintro ⟨⟨r, n⟩, hmem, hr⟩
      obtain rfl := eq_of_beq hr
      exact ⟨n, hmem⟩
    · rintro ⟨n, hmem⟩
      exact ⟨(q, n), hmem, beq_self_eq_true q⟩
  constructor
  · intro h q hq hne
    by_contra hcon
    have hnil : q ≠ [] := by
      rintro rfl
      exact hne (List.prefix_nil.mp hq).symm
    obtain ⟨n, hn⟩ := (hsome q hnil).mp (Option.isSome_iff_ne_none.mpr hcon)
    have := List.any_eq_false.mp h (q, n) hn
    simp [hq, hne] at this
  · intro h
    refine List.any_eq_false.mpr fun ⟨q, n⟩ hmem hbad => ?_
    simp only [List.isPrefixOf_iff_prefix, Bool.and_eq_true, decide_eq_true_eq] at hbad
    have hnil : q ≠ [] := by
      rintro rfl
      exact hbad.2 (List.prefix_nil.mp hbad.1).symm
    have := (hsome q hnil).mpr ⟨n, hmem⟩
    rw [h q hbad.1 hbad.2] at this
    cases this

/-- `Remove`: a file or an empty directory. -/
def remove (t : FileTree κ δ) (p : List κ) : Option (FileTree κ δ) :=
  if h : t.occupied p = false then
    some (t.prune (fun q => q = p) (by
      intro q r hq hqr hr
      obtain rfl := of_decide_eq_true hq
      by_contra hne
      rw [occupied_eq_false.mp h r hqr (by simpa using hne)] at hr
      cases hr))
  else none

/-- `RemoveAll`. -/
def removeAll (t : FileTree κ δ) (p : List κ) : FileTree κ δ :=
  t.prune (fun q => p.isPrefixOf q) (by
    intro q r hq hqr _
    rw [List.isPrefixOf_iff_prefix] at hq ⊢
    exact hq.trans hqr)

/-- The tree that a failed `RemoveAll` leaves, which has taken some paths below and all that is
below them. -/
def removeSome (t : FileTree κ δ) (p : List κ) (taken : List (List κ)) : FileTree κ δ :=
  t.prune (fun q => taken.any fun r => p.isPrefixOf r && r ≠ p && r.isPrefixOf q) (by
    intro q r hq hqr _
    simp only [List.any_eq_true, Bool.and_eq_true, List.isPrefixOf_iff_prefix] at hq ⊢
    obtain ⟨s, hs, hps, hsq⟩ := hq
    exact ⟨s, hs, hps, hsq.trans hqr⟩)

theorem node_remove {u : FileTree κ δ} (h : t.remove p = some u) (hp : p ≠ []) (q : List κ) :
    u.node q = if q = p then none else t.node q := by
  unfold remove at h
  split at h
  · obtain rfl := Option.some.inj h
    rw [node_prune _ (decide_eq_false hp.symm)]
    simp
  · cases h

theorem node_removeAll (hp : p ≠ []) (q : List κ) :
    (t.removeAll p).node q = if p <+: q then none else t.node q := by
  unfold removeAll
  rw [node_prune _ (by cases p <;> simp_all)]
  simp

theorem content_remove {u : FileTree κ δ} (h : t.remove p = some u) (hp : p ≠ []) (q : List κ) :
    u.content q = if q = p then none else t.content q := by
  have hnode := node_remove h hp q
  split at hnode
  · rename_i hq
    rw [if_pos hq, content, hnode]
  · rename_i hq
    rw [if_neg hq]
    exact content_congr hnode

/-- A pruned tree holds what it held, or nothing. -/
theorem content_prune {gone : List κ → Bool} {hgone} (q : List κ) :
    (t.prune gone hgone).content q = if gone q then none else t.content q := by
  by_cases hq : q = []
  · subst hq
    rw [content_of_dir node_nil, content_of_dir node_nil, ite_self]
  · have hnode : (t.prune gone hgone).node q = if gone q then none else t.node q := by
      rw [node_of_ne hq, node_of_ne hq]
      exact lookup_filter gone
    split at hnode
    · rename_i hgone
      rw [if_pos hgone, content, hnode]
    · rename_i hkept
      rw [if_neg hkept]
      exact content_congr hnode

theorem content_removeAll (q : List κ) :
    (t.removeAll p).content q = if p <+: q then none else t.content q := by
  rw [removeAll, content_prune]
  simp only [List.isPrefixOf_iff_prefix]

theorem content_removeSome {taken : List (List κ)} (q : List κ) :
    (t.removeSome p taken).content q =
      if ∃ r ∈ taken, p <+: r ∧ r ≠ p ∧ r <+: q then none else t.content q := by
  rw [removeSome, content_prune]
  simp only [List.any_eq_true, Bool.and_eq_true, List.isPrefixOf_iff_prefix, decide_eq_true_eq,
    and_assoc]

/-- The entries with those below one path moved to another. -/
def relocate (a b : List κ) (l : List (List κ × Node δ)) : List (List κ × Node δ) :=
  l.filterMap fun e =>
    if a <+: e.1 then some (b ++ e.1.drop a.length, e.2)
    else if b <+: e.1 then none
    else some e

theorem lookup_relocate {a b : List κ} (l : List (List κ × Node δ)) (q : List κ) :
    (relocate a b l).lookup q =
      if b <+: q then l.lookup (a ++ q.drop b.length)
      else if a <+: q then none
      else l.lookup q := by
  induction l with
  | nil => simp [relocate]
  | cons e l ih =>
      obtain ⟨r, n⟩ := e
      by_cases har : a <+: r
      · obtain ⟨s, rfl⟩ := har
        have hcons : relocate a b ((a ++ s, n) :: l) = (b ++ s, n) :: relocate a b l := by
          simp [relocate]
        rw [hcons, lookup_cons_ite, ih, lookup_cons_ite, lookup_cons_ite]
        by_cases hbq : b <+: q
        · obtain ⟨s', rfl⟩ := hbq
          simp
        · have hne : q ≠ b ++ s := fun h => hbq (h ▸ List.prefix_append b s)
          rw [if_neg hne, if_neg hbq, if_neg hbq]
          by_cases haq : a <+: q
          · rw [if_pos haq, if_pos haq]
          · have hne' : q ≠ a ++ s := fun h => haq (h ▸ List.prefix_append a s)
            rw [if_neg haq, if_neg haq, if_neg hne']
      · have hne : a ++ q.drop b.length ≠ r := fun h => har (h ▸ List.prefix_append a _)
        by_cases hbr : b <+: r
        · have hcons : relocate a b ((r, n) :: l) = relocate a b l := by
            simp [relocate, har, hbr]
          rw [hcons, ih, lookup_cons_ite, lookup_cons_ite, if_neg hne]
          by_cases hbq : b <+: q
          · rw [if_pos hbq, if_pos hbq]
          · have hne' : q ≠ r := fun h => hbq (h ▸ hbr)
            rw [if_neg hne']
        · have hcons : relocate a b ((r, n) :: l) = (r, n) :: relocate a b l := by
            simp [relocate, har, hbr]
          rw [hcons, lookup_cons_ite, ih, lookup_cons_ite, lookup_cons_ite, if_neg hne]
          by_cases hbq : b <+: q
          · have hne' : q ≠ r := fun h => hbr (h ▸ hbq)
            rw [if_neg hne', if_pos hbq, if_pos hbq]
          · by_cases haq : a <+: q
            · have hne' : q ≠ r := fun h => har (h ▸ haq)
              rw [if_neg hne', if_neg hbq, if_neg hbq, if_pos haq, if_pos haq]
            · rw [if_neg hbq, if_neg hbq, if_neg haq, if_neg haq]

/-- The kinds of the two nodes let a rename put the first in the place of the second. No directory
is replaced. -/
def replaceable (t : FileTree κ δ) (a b : List κ) : Bool :=
  match t.node a, t.node b with
  | some _, none => true
  | some (.file _), some (.file _) => true
  | _, _ => false

/-- The checks of a rename to another path. -/
structure Movable (t : FileTree κ δ) (a b : List κ) : Prop where
  source : a ≠ []
  outside : ¬ a <+: b
  target : ¬ b <+: a
  parent : t.isDir b.dropLast = true
  kinds : t.replaceable a b = true

instance (t : FileTree κ δ) (a b : List κ) : Decidable (t.Movable a b) :=
  decidable_of_iff (a ≠ [] ∧ ¬ a <+: b ∧ ¬ b <+: a ∧ t.isDir b.dropLast = true ∧
      t.replaceable a b = true)
    ⟨fun h => ⟨h.1, h.2.1, h.2.2.1, h.2.2.2.1, h.2.2.2.2⟩,
      fun h => ⟨h.1, h.2, h.3, h.4, h.5⟩⟩

/-- `Rename`. -/
def move (t : FileTree κ δ) (a b : List κ) : Option (FileTree κ δ) :=
  if h : t.Movable a b then
    some
      { nodes := relocate a b t.nodes
        closed := by
          have hb : b ≠ [] := fun hb => h.target (hb ▸ List.nil_prefix)
          intro r hr q hq hne hnil
          rw [lookup_relocate] at hr ⊢
          by_cases hbq : b <+: q
          · have hbr := hbq.trans hq
            rw [if_pos hbr] at hr
            rw [if_pos hbq]
            obtain ⟨s, rfl⟩ := hbq
            obtain ⟨s', rfl⟩ := hq
            simp only [List.append_assoc, List.drop_left] at hr ⊢
            refine t.closed _ hr _ ⟨s', by rw [List.append_assoc]⟩ ?_ ?_
            · simpa using fun h : s' = [] => hne (by simp [h])
            · simp [h.source]
          · rw [if_neg hbq]
            by_cases hbr : b <+: r
            · have hqb : q <+: b := (List.prefix_or_prefix_of_prefix hq hbr).resolve_right hbq
              have hqne : q ≠ b := fun h => hbq (h ▸ List.prefix_refl b)
              have haq : ¬ a <+: q := fun haq => h.outside (haq.trans hqb)
              rw [if_neg haq, ← node_of_ne hnil]
              have hparent := isDir_iff.mp h.parent
              obtain rfl | habove := eq_or_ne q b.dropLast
              · exact hparent
              · exact node_above (by rw [hparent]; rfl) (prefix_dropLast hqb hqne) habove
            · rw [if_neg hbr] at hr
              by_cases har : a <+: r
              · simp [har] at hr
              · rw [if_neg har] at hr
                rw [if_neg fun haq : a <+: q => har (haq.trans hq)]
                exact t.closed r hr q hq hne hnil }
  else if a = b ∧ (t.content a).isSome then some t
  else none

theorem move_of_movable {a b : List κ} (h : t.Movable a b) : ∃ u, t.move a b = some u ∧
    ∀ q, u.node q = if b <+: q then t.node (a ++ q.drop b.length)
      else if a <+: q then none else t.node q := by
  refine ⟨_, dif_pos h, fun q => ?_⟩
  have hb : b ≠ [] := fun hb => h.target (hb ▸ List.nil_prefix)
  by_cases hq : q = []
  · subst hq
    rw [node_nil, if_neg fun hb' => hb (List.prefix_nil.mp hb'),
      if_neg fun ha => h.source (List.prefix_nil.mp ha), node_nil]
  · rw [node_of_ne hq, node_of_ne hq, node_of_ne (by simp [h.source])]
    exact lookup_relocate t.nodes q

/-- A file that is moved takes the place of what stood there. -/
theorem content_move {a b : List κ} {d : δ} {u : FileTree κ δ} (h : t.move a b = some u)
    (ha : t.content a = some d) (q : List κ) :
    u.content q = if q = b then some d else if q = a then none else t.content q := by
  have hfile : ∀ p r, t.node p ≠ some .dir → p <+: r → r ≠ p → t.node r = none := by
    intro p r hp hpr hne
    by_contra hcon
    exact hp (node_above (Option.isSome_iff_ne_none.mpr hcon) hpr hne.symm)
  have hanode := content_eq_some.mp ha
  have hadir : t.node a ≠ some .dir := by simp [hanode]
  by_cases hm : t.Movable a b
  · have hbdir : t.node b ≠ some .dir := by
      intro hcon
      have hkinds := hm.kinds
      simp [replaceable, hanode, hcon] at hkinds
    obtain ⟨v, hv, hnode⟩ := move_of_movable hm
    obtain rfl := Option.some.inj (hv.symm.trans h)
    have hq := hnode q
    by_cases hqb : b <+: q
    · rw [if_pos hqb] at hq
      obtain ⟨s, rfl⟩ := hqb
      rw [List.drop_left] at hq
      by_cases hs : s = []
      · subst hs
        rw [List.append_nil] at hq ⊢
        rw [if_pos rfl]
        exact content_eq_some.mpr (by rw [hq, List.append_nil, hanode])
      · have hnone : t.node (a ++ s) = none := hfile a _ hadir (List.prefix_append ..) (by simp [hs])
        have hbs : t.node (b ++ s) = none := hfile b _ hbdir (List.prefix_append ..) (by simp [hs])
        have hne : b ++ s ≠ a := fun hcon => hm.target (hcon ▸ List.prefix_append ..)
        rw [if_neg (by simp [hs]), if_neg hne]
        exact content_congr (by rw [hq, hnone, hbs])
    · rw [if_neg hqb] at hq
      rw [if_neg fun hcon : q = b => hqb (hcon ▸ List.prefix_refl b)]
      by_cases hqa : a <+: q
      · rw [if_pos hqa] at hq
        split
        · rw [content, hq]
        · rename_i hne
          exact content_congr (by rw [hq, hfile a q hadir hqa hne])
      · rw [if_neg hqa] at hq
        rw [if_neg fun hcon : q = a => hqa (hcon ▸ List.prefix_refl a)]
        exact content_congr hq
  · rw [move, dif_neg hm] at h
    split at h
    · rename_i hab
      obtain rfl := Option.some.inj h
      split
      · rename_i hqb
        rw [hqb, ← hab.1, ha]
      · rename_i hqb
        rw [if_neg fun hqa : q = a => hqb (hqa.trans hab.1)]
    · cases h

end FileTree

end StateMachine
