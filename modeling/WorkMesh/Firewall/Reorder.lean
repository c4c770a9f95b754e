import WorkMesh.Firewall.Order
import WorkMesh.StateMachine.Places

/-!
# When the order is kept

Both handlers take a rule out and put one in, and append the rule that was taken
out where the second command fails. The rules of a chain keep their order if the
end of the chain is where these rules belong.
-/

namespace WorkMesh.Firewall

open Encoding StateMachine

attribute [local irreducible] bytes

/-! ## Three commands -/

/-- What a command comes to, and whether it succeeded. -/
def Tables.attempt (t : Tables) (effect : Effect) (outcome : Outcome) : Tables × Bool :=
  match t.after effect with
  | none => (t, false)
  | some next =>
      match outcome with
      | .done => (next, true)
      | .failed _ applied => (if applied then next else t, false)

theorem attempt_run (tools : Tools) (t : Tables) (command : Bytes) (args : List Bytes)
    (outcome : Outcome) :
    ((t.run tools command args outcome).1, (t.run tools command args outcome).2.isNone) =
      t.attempt (tools.effect command args) outcome := by
  unfold Tables.run Tables.attempt
  cases t.after (tools.effect command args) with
  | none => rfl
  | some next => cases outcome <;> rfl

/-- An old rule is deleted and a rule is put in; where that fails the old rule is appended. -/
def Tables.replace (t : Tables) (old : Place) (second : Effect) (outcomes : StepOutcomes) :
    Tables × Bool :=
  let (deleted, succeeded) := t.attempt (old.edited .delete) outcomes.delete
  if succeeded then
    let (added, succeeded) := deleted.attempt second outcomes.add
    if succeeded then (added, true)
    else ((added.attempt (old.edited .append) outcomes.restore).1, false)
  else (deleted, false)

/-- The rule is there. -/
def Place.Held (t : Tables) : Place → Prop
  | elsewhere => True
  | refused => False
  | inChain family chain line => line ∈ t.rules family chain

/-- The tables without the rule. -/
def Place.removed (t : Tables) : Place → Tables
  | inChain family chain line => t.put family chain ((t.rules family chain).erase line)
  | _ => t

/-- The tables with the rule at the end of its chain. -/
def Place.appended (t : Tables) : Place → Tables
  | inChain family chain line => t.put family chain (t.rules family chain ++ [line])
  | _ => t

namespace Tables

variable {t : Tables} {family family' : Family} {chain chain' : Bytes} {rules rules' : List Bytes}

@[simp] theorem rules_put_self : (t.put family chain rules).rules family chain = rules :=
  if_pos ⟨rfl, rfl⟩

theorem rules_put_of_ne (h : ¬ (family' = family ∧ chain' = chain)) :
    (t.put family chain rules).rules family' chain' = t.rules family' chain' := if_neg h

@[simp] theorem put_put :
    (t.put family chain rules).put family chain rules' = t.put family chain rules' := by
  unfold put
  congr 1
  funext f c
  dsimp only
  split
  · rfl
  · rfl

theorem put_eq_iff : t.put family chain rules = t.put family chain rules' ↔ rules = rules' := by
  constructor
  · intro h
    have hat : (t.put family chain rules).rules family chain =
        (t.put family chain rules').rules family chain := by rw [h]
    rwa [rules_put_self, rules_put_self] at hat
  · exact fun h => h ▸ rfl

theorem put_rules : t.put family chain (t.rules family chain) = t := by
  unfold put
  have hrules : (fun f c => if f = family ∧ c = chain then t.rules family chain else t.rules f c) =
      t.rules := by
    funext f c
    split
    · rename_i h
      rw [h.1, h.2]
    · rfl
  rw [hrules]

theorem put_eq_self_iff : t.put family chain rules = t ↔ rules = t.rules family chain := by
  have hself : t.put family chain rules = t.put family chain (t.rules family chain) ↔
      rules = t.rules family chain := put_eq_iff
  rwa [put_rules] at hself

end Tables

section Replace
variable {t : Tables} {old new : Place} {second : Effect} {o : StepOutcomes}

theorem after_delete_held (h : old.Held t) :
    t.after (old.edited .delete) = some (old.removed t) := by
  cases old with
  | elsewhere => rfl
  | refused => cases h
  | inChain family chain line =>
      have hmem : line ∈ t.rules family chain := h
      change ((if line ∈ t.rules family chain then _ else _ : Option (List Bytes))).map _ = _
      rw [if_pos hmem]
      rfl

theorem after_delete_unheld (h : ¬ old.Held t) : t.after (old.edited .delete) = none := by
  cases old with
  | elsewhere => exact absurd trivial h
  | refused => rfl
  | inChain family chain line =>
      have hmem : line ∉ t.rules family chain := h
      change ((if line ∈ t.rules family chain then _ else _ : Option (List Bytes))).map _ = _
      rw [if_neg hmem]
      rfl

theorem after_append (h : new ≠ .refused) :
    t.after (new.edited .append) = some (new.appended t) := by
  cases new with
  | elsewhere => rfl
  | refused => exact absurd rfl h
  | inChain family chain line => rfl

theorem Place.Held.ne_refused (h : old.Held t) : old ≠ .refused := by
  rintro rfl
  exact h

theorem replace_unheld (h : ¬ old.Held t) : t.replace old second o = (t, false) := by
  rw [Tables.replace, Tables.attempt, after_delete_unheld h]
  rfl

theorem replace_delete_failed (h : old.Held t) {text : Bytes} {applied : Bool}
    (hdelete : o.delete = .failed text applied) :
    t.replace old second o = (if applied then old.removed t else t, false) := by
  rw [Tables.replace, Tables.attempt, after_delete_held h, hdelete]
  rfl

theorem attempt_delete (h : old.Held t) (hdelete : o.delete = .done) :
    t.attempt (old.edited .delete) o.delete = (old.removed t, true) := by
  rw [Tables.attempt, after_delete_held h, hdelete]

/-- The old rule is gone, and the second command decides. -/
theorem replace_deleted (h : old.Held t) (hdelete : o.delete = .done) {added : Tables × Bool}
    (hadded : (old.removed t).attempt second o.add = added) :
    t.replace old second o =
      if added.2 then (added.1, true)
      else ((added.1.attempt (old.edited .append) o.restore).1, false) := by
  rw [Tables.replace, attempt_delete h hdelete, ← hadded]
  rfl

theorem attempt_restore (h : old.Held t) (s : Tables) :
    (s.attempt (old.edited .append) .done).1 = old.appended s := by
  rw [Tables.attempt, after_append h.ne_refused]

/-- The second command is refused, and the old rule is put back. -/
theorem replace_refused (h : old.Held t) (hdelete : o.delete = .done)
    (hrestore : o.restore = .done) (hnone : (old.removed t).after second = none) :
    t.replace old second o = (old.appended (old.removed t), false) := by
  rw [replace_deleted h hdelete (by rw [Tables.attempt, hnone]), hrestore]
  exact congrArg (·, false) (attempt_restore h _)

/-- The second command fails, and the old rule is put back. -/
theorem replace_failed (h : old.Held t) (hdelete : o.delete = .done)
    (hrestore : o.restore = .done) {next : Tables} (hnext : (old.removed t).after second = some next)
    {text : Bytes} {applied : Bool} (hadd : o.add = .failed text applied) :
    t.replace old second o =
      (old.appended (if applied then next else old.removed t), false) := by
  rw [replace_deleted h hdelete (by rw [Tables.attempt, hnext, hadd]), hrestore]
  exact congrArg (·, false) (attempt_restore h _)

theorem replace_done (h : old.Held t) (hdelete : o.delete = .done) {next : Tables}
    (hnext : (old.removed t).after second = some next) (hadd : o.add = .done) :
    t.replace old second o = (next, true) := by
  rw [replace_deleted h hdelete (by rw [Tables.attempt, hnext, hadd])]
  rfl

theorem replace_succeeded (h : (t.replace old second o).2 = true) :
    old.Held t ∧ o.delete = .done ∧ o.add = .done ∧
      ∃ next, (old.removed t).after second = some next ∧ (t.replace old second o).1 = next := by
  by_cases hheld : old.Held t
  case neg =>
    rw [replace_unheld hheld] at h
    cases h
  cases hdelete : o.delete with
  | failed text applied =>
      rw [replace_delete_failed hheld hdelete] at h
      cases h
  | done =>
      cases hnext : (old.removed t).after second with
      | none =>
          rw [replace_deleted hheld hdelete (by rw [Tables.attempt, hnext])] at h
          cases h
      | some next =>
          cases hadd : o.add with
          | failed text applied =>
              rw [replace_deleted hheld hdelete (by rw [Tables.attempt, hnext, hadd])] at h
              cases h
          | done =>
              refine ⟨hheld, rfl, rfl, next, rfl, ?_⟩
              rw [replace_done hheld hdelete hnext hadd]

end Replace

/-! ## Failed requests -/

/-- No rule but copies stands behind the rule. -/
def Place.Last (t : Tables) : Place → Prop
  | inChain family chain line =>
      ∀ rule ∈ (t.rules family chain).drop ((t.rules family chain).idxOf line), rule = line
  | _ => True

/-- The rule is one of the tables. -/
def Place.InTables : Place → Prop
  | inChain _ _ _ => True
  | _ => False

/-- The chain of the rule is long enough for a position. -/
def Place.Reaches (t : Tables) (position : ℕ) : Place → Prop
  | inChain family chain _ => position ≤ (t.rules family chain).length
  | _ => True

section Restored
variable {t : Tables} {old new : Place}

theorem appended_removed_iff (h : old.Held t) : old.appended (old.removed t) = t ↔ old.Last t := by
  cases old with
  | elsewhere => exact iff_of_true rfl trivial
  | refused => cases h
  | inChain family chain line =>
      unfold Place.appended Place.removed
      dsimp only
      rw [Tables.put_put, Tables.rules_put_self, Tables.put_eq_self_iff]
      exact erase_append_eq_iff h

/-- A chain that has got a second rule is not what it was. -/
theorem appended_ne (h : old.Held t) {family : Family} {chain : Bytes} {s : Tables}
    (hlonger : (s.rules family chain).length =
      ((old.removed t).rules family chain).length + 1) : old.appended s ≠ t := by
  intro heq
  have hlength : ((old.appended s).rules family chain).length =
      (t.rules family chain).length := by rw [heq]
  cases old with
  | elsewhere =>
      change (s.rules family chain).length = (t.rules family chain).length at hlength
      change (s.rules family chain).length = (t.rules family chain).length + 1 at hlonger
      omega
  | refused => exact h
  | inChain family' chain' line =>
      unfold Place.appended at hlength
      unfold Place.removed at hlonger
      dsimp only at hlength hlonger
      by_cases hsame : family = family' ∧ chain = chain'
      · obtain ⟨rfl, rfl⟩ := hsame
        have hmem : line ∈ t.rules family chain := h
        have hpos := List.length_pos_of_mem hmem
        rw [Tables.rules_put_self, List.length_append, hlonger, Tables.rules_put_self,
          List.length_erase_of_mem hmem, List.length_singleton] at hlength
        omega
      · rw [Tables.rules_put_of_ne hsame] at hlength hlonger
        omega

theorem rules_appended (t : Tables) (family : Family) (chain line : Bytes) :
    ((Place.inChain family chain line).appended t).rules family chain =
      t.rules family chain ++ [line] := Tables.rules_put_self

/-- What a failed request must not have done for the tables to be what they were. -/
structure Undone (t : Tables) (old : Place) (refused inTables : Prop) (o : StepOutcomes) : Prop where
  delete_failed : ∀ text, o.delete = .failed text true → old.Held t → ¬ old.InTables
  add_failed : o.delete = .done → old.Held t → refused ∨ o.add ≠ .done →
    (∀ text, o.add = .failed text true → refused ∨ ¬ inTables) ∧ old.Last t

theorem removed_ne (h : old.Held t) (htables : old.InTables) : old.removed t ≠ t := by
  cases old with
  | elsewhere => exact htables.elim
  | refused => exact htables.elim
  | inChain family chain line =>
      have hmem : line ∈ t.rules family chain := h
      intro heq
      have hlength := congrArg List.length (Tables.put_eq_self_iff.mp heq)
      have hpos := List.length_pos_of_mem hmem
      rw [List.length_erase_of_mem hmem] at hlength
      omega

theorem removed_of_elsewhere (htables : ¬ old.InTables) : old.removed t = t := by
  cases old with
  | inChain family chain line => exact absurd trivial htables
  | _ => rfl

theorem replace_delete_failed_iff {second : Effect} {refused inTables : Prop} {text : Bytes}
    {applied : Bool} {o : StepOutcomes} (hheld : old.Held t)
    (hdelete : o.delete = .failed text applied) :
    ((t.replace old second o).2 = false → (t.replace old second o).1 = t) ↔
      Undone t old refused inTables o := by
  have hnotDone : o.delete ≠ .done := by
    rw [hdelete]
    exact Outcome.noConfusion
  rw [replace_delete_failed hheld hdelete]
  constructor
  · intro h
    refine ⟨fun text' ht _ htables => ?_, fun hd => absurd hd hnotDone⟩
    obtain ⟨-, rfl⟩ := Outcome.failed.inj (hdelete.symm.trans ht)
    exact removed_ne hheld htables (h rfl)
  · rintro h -
    cases applied with
    | false => rfl
    | true => exact removed_of_elsewhere (h.delete_failed text hdelete hheld)

/-- The old rule is put back behind a new one that may have come into a chain. -/
theorem replace_add_failed_iff {second : Effect} {inTables : Prop} {next : Tables}
    {text : Bytes} {applied : Bool} {o : StepOutcomes} (hheld : old.Held t)
    (hdelete : o.delete = .done) (hrestore : o.restore = .done)
    (hnext : (old.removed t).after second = some next) (hadd : o.add = .failed text applied)
    (hsecond : ¬ inTables ∧ next = old.removed t ∨ inTables ∧ ∃ family chain,
      (next.rules family chain).length = ((old.removed t).rules family chain).length + 1) :
    ((t.replace old second o).2 = false → (t.replace old second o).1 = t) ↔
      Undone t old False inTables o := by
  have hnotDone : o.add ≠ .done := by
    rw [hadd]
    exact Outcome.noConfusion
  have hlast := appended_removed_iff hheld
  have hgrown : inTables → old.appended next ≠ t := by
    intro htables
    rcases hsecond with ⟨hout, -⟩ | ⟨-, family, chain, hlonger⟩
    · exact absurd htables hout
    · exact appended_ne hheld hlonger
  have hleft : (applied = true → ¬ inTables) →
      (if applied then next else old.removed t) = old.removed t := by
    intro hout
    split
    · rename_i happlied
      rcases hsecond with ⟨-, heq⟩ | ⟨htables, -⟩
      · exact heq
      · exact absurd htables (hout happlied)
    · rfl
  rw [replace_failed hheld hdelete hrestore hnext hadd]
  constructor
  · intro h
    have hout : applied = true → ¬ inTables := by
      rintro rfl htables
      exact hgrown htables (h rfl)
    refine ⟨fun text ht => ?_, fun _ _ _ => ⟨fun text' ht => .inr (hout ?_), hlast.mp ?_⟩⟩
    · rw [hdelete] at ht
      cases ht
    · exact (Outcome.failed.inj (hadd.symm.trans ht)).2
    · rw [← hleft hout]
      exact h rfl
  · rintro h -
    obtain ⟨hout, hcopies⟩ := h.add_failed hdelete hheld (.inr hnotDone)
    rw [hleft fun happlied => (hout text (happlied ▸ hadd)).resolve_left id]
    exact hlast.mpr hcopies

/-- A failed request whose old rule could be put back leaves the tables exactly if nothing was
done that the restored rule does not make up for. -/
theorem replace_failed_iff (old : Place) (second : Effect) (inTables : Prop) {o : StepOutcomes}
    (hrestore : o.restore = .done)
    (hsecond : ∀ next, (old.removed t).after second = some next →
      ¬ inTables ∧ next = old.removed t ∨ inTables ∧ ∃ family chain,
        (next.rules family chain).length = ((old.removed t).rules family chain).length + 1) :
    ((t.replace old second o).2 = false → (t.replace old second o).1 = t) ↔
      Undone t old ((old.removed t).after second = none) inTables o := by
  by_cases hheld : old.Held t
  case neg =>
    rw [replace_unheld hheld]
    exact iff_of_true (fun _ => rfl) ⟨fun _ _ h => absurd h hheld, fun _ h => absurd h hheld⟩
  cases hdelete : o.delete with
  | failed text applied => exact replace_delete_failed_iff hheld hdelete
  | done =>
      have hnotFailed : ∀ text, o.delete ≠ .failed text true := by
        intro text
        rw [hdelete]
        exact Outcome.noConfusion
      cases hnext : (old.removed t).after second with
      | none =>
          have hlast := appended_removed_iff hheld
          rw [replace_refused hheld hdelete hrestore hnext]
          constructor
          · exact fun h => ⟨fun text ht => absurd ht (hnotFailed text),
              fun _ _ _ => ⟨fun _ _ => .inl rfl, hlast.mp (h rfl)⟩⟩
          · exact fun h _ => hlast.mpr (h.add_failed hdelete hheld (.inl rfl)).2
      | some next =>
          simp only [reduceCtorEq]
          cases hadd : o.add with
          | done =>
              rw [replace_done hheld hdelete hnext hadd]
              refine iff_of_true (fun h => by cases h)
                ⟨fun text ht => absurd ht (hnotFailed text), fun _ _ hfails => ?_⟩
              exact absurd hadd (hfails.resolve_left id)
          | failed text applied =>
              exact replace_add_failed_iff hheld hdelete hrestore hnext hadd (hsecond next hnext)

end Restored

/-! ## Updates -/

section Updates
variable {t : Tables} {family : Family} {chain line : Bytes} {i : ℕ} {old new : Place}
  {o : StepOutcomes}

/-- The old rule is replaced in its place if it is the one that was found and only copies of the
new rule stand behind it. -/
theorem appended_eq_set_iff (hline : (t.rules family chain)[i]? = some line) (h : old.Held t)
    {newLine : Bytes} :
    (Place.inChain family chain newLine).appended (old.removed t) =
        t.put family chain ((t.rules family chain).set i newLine) ↔
      old = .inChain family chain line ∧ Adjoins (t.rules family chain) i line ∧
        ∀ rule ∈ (t.rules family chain).drop (i + 1), rule = newLine := by
  have hat : (Place.inChain family chain newLine).appended (old.removed t) =
      t.put family chain ((t.rules family chain).set i newLine) →
      (old.removed t).rules family chain ++ [newLine] = (t.rules family chain).set i newLine := by
    intro heq
    rw [← rules_appended, heq, Tables.rules_put_self]
  cases old with
  | elsewhere =>
      refine iff_of_false (fun heq => ?_) fun heq => by cases heq.1
      have hlength := congrArg List.length (hat heq)
      rw [List.length_append, List.length_set] at hlength
      change (t.rules family chain).length + 1 = (t.rules family chain).length at hlength
      omega
  | refused => cases h
  | inChain family' chain' d =>
      have hmem : d ∈ t.rules family' chain' := h
      unfold Place.removed at hat
      dsimp only at hat
      by_cases hsame : family = family' ∧ chain = chain'
      · obtain ⟨rfl, rfl⟩ := hsame
        unfold Place.removed Place.appended
        dsimp only
        rw [Tables.put_put, Tables.rules_put_self, Tables.put_eq_iff,
          erase_append_eq_set_iff hmem hline]
        simp
      · refine iff_of_false (fun heq => ?_) fun heq => ?_
        · have hlength := congrArg List.length (hat heq)
          rw [Tables.rules_put_of_ne hsame, List.length_append, List.length_set,
            List.length_singleton] at hlength
          omega
        · cases heq.1
          exact hsame ⟨rfl, rfl⟩

/-- Which updates keep the order: where one succeeds, the rule that it found is the one in
question, the new rule goes into the same chain, and only copies of it stand behind. -/
structure UpdateKeeps (t : Tables) (family : Family) (chain : Bytes) (i : ℕ) (line : Bytes)
    (old new : Place) (o : StepOutcomes) : Prop where
  undone : Undone t old (new = .refused) new.InTables o
  updated : old.Held t → o.delete = .done → new ≠ .refused → o.add = .done →
    old = .inChain family chain line ∧ Adjoins (t.rules family chain) i line ∧
      ∃ newLine, new = .inChain family chain newLine ∧
        ∀ rule ∈ (t.rules family chain).drop (i + 1), rule = newLine

/-- A failed update leaves the tables, and one that succeeds puts the new rule in the place of
the old one. -/
structure InPlace (t : Tables) (family : Family) (chain : Bytes) (i : ℕ) (new : Place)
    (out : Tables × Bool) : Prop where
  failed : out.2 = false → out.1 = t
  updated : out.2 = true → ∃ newLine, new = .inChain family chain newLine ∧
    out.1 = t.put family chain ((t.rules family chain).set i newLine)

theorem after_append_none_iff (s : Tables) :
    s.after (new.edited .append) = none ↔ new = .refused := by
  constructor
  · intro hnone
    by_contra hrefused
    rw [after_append hrefused] at hnone
    cases hnone
  · rintro rfl
    rfl

/-- The commands of an update keep the order exactly if the update is one that does. -/
theorem replace_inPlace_iff (hline : (t.rules family chain)[i]? = some line)
    (hrestore : o.restore = .done) :
    InPlace t family chain i new (t.replace old (new.edited .append) o) ↔
      UpdateKeeps t family chain i line old new o := by
  have hfailed := replace_failed_iff (t := t) old (new.edited .append) new.InTables hrestore (by
      intro next hnext
      have hrefused : new ≠ .refused := by
        rintro rfl
        cases hnext
      rw [after_append hrefused] at hnext
      obtain rfl := Option.some.inj hnext
      cases new with
      | elsewhere => exact .inl ⟨id, rfl⟩
      | refused => exact absurd rfl hrefused
      | inChain family chain line =>
          refine .inr ⟨trivial, family, chain, ?_⟩
          rw [rules_appended, List.length_append, List.length_singleton])
  rw [after_append_none_iff] at hfailed
  constructor
  · intro h
    refine ⟨hfailed.mp h.failed, fun hheld hdelete hrefused hadd => ?_⟩
    have hdone := replace_done hheld hdelete (after_append hrefused) hadd
    rw [hdone] at h
    obtain ⟨newLine, rfl, heq⟩ := h.updated rfl
    obtain ⟨hold, hadjoins, hback⟩ := (appended_eq_set_iff hline hheld).mp heq
    exact ⟨hold, hadjoins, newLine, rfl, hback⟩
  · intro h
    refine ⟨hfailed.mpr h.undone, fun hdone => ?_⟩
    obtain ⟨hheld, hdelete, hadd, next, hnext, hout⟩ := replace_succeeded hdone
    have hrefused : new ≠ .refused := by
      rintro rfl
      cases hnext
    rw [after_append hrefused] at hnext
    obtain ⟨hold, hadjoins, newLine, rfl, hback⟩ := h.updated hheld hdelete hrefused hadd
    refine ⟨newLine, rfl, ?_⟩
    rw [hout, ← Option.some.inj hnext]
    exact (appended_eq_set_iff hline hheld).mpr ⟨hold, hadjoins, hback⟩

end Updates

/-! ## Reorders -/

/-- The rules of a chain with one of them moved. -/
def moved (rules : List Bytes) (i position : ℕ) (line : Bytes) : List Bytes :=
  (rules.eraseIdx i).insertIdx (position - 1) line

section Reorders
variable {t : Tables} {family : Family} {chain line : Bytes} {i position : ℕ} {found : Place}
  {o : StepOutcomes}

/-- The rule is found elsewhere, and neither it nor the one in question would change its place. -/
def Place.BothStay (t : Tables) (family : Family) (chain : Bytes) (i : ℕ) (line : Bytes)
    (position : ℕ) : Place → Prop
  | inChain family' chain' found =>
      ¬ (family' = family ∧ chain' = chain) ∧
      moved (t.rules family' chain') ((t.rules family' chain').idxOf found) position found =
        t.rules family' chain' ∧
      moved (t.rules family chain) i position line = t.rules family chain
  | _ => False

/-- Which reorders keep the order: where one succeeds, the rule that it found is the one in
question. -/
structure ReorderKeeps (t : Tables) (family : Family) (chain : Bytes) (i : ℕ) (line : Bytes)
    (position : ℕ) (found : Place) (o : StepOutcomes) : Prop where
  undone : Undone t found (¬ found.Reaches t position) found.InTables o
  reordered : found.Held t → o.delete = .done → found.Reaches t position → o.add = .done →
    found = .inChain family chain line ∧ Adjoins (t.rules family chain) i line ∨
      found.BothStay t family chain i line position

/-- A failed reorder leaves the tables, and one that succeeds moves the rule. -/
structure Moved (t : Tables) (family : Family) (chain : Bytes) (i : ℕ) (line : Bytes)
    (position : ℕ) (out : Tables × Bool) : Prop where
  failed : out.2 = false → out.1 = t
  reordered : out.2 = true →
    out.1 = t.put family chain (moved (t.rules family chain) i position line)

theorem after_insert {d : Bytes} (h : (Place.inChain family chain d).Held t)
    (hposition : 1 ≤ position) :
    ((Place.inChain family chain d).removed t).after
        ((Place.inChain family chain d).edited (.insert position)) =
      if position ≤ (t.rules family chain).length then
        some (t.put family chain
          (moved (t.rules family chain) ((t.rules family chain).idxOf d) position d))
      else none := by
  have hmem : d ∈ t.rules family chain := h
  have hpos := List.length_pos_of_mem hmem
  unfold Place.removed Place.edited Tables.after Edit.apply
  dsimp only
  rw [Tables.rules_put_self, List.length_erase_of_mem hmem]
  by_cases hreach : position ≤ (t.rules family chain).length
  · have hin : 1 ≤ position ∧ position ≤ (t.rules family chain).length - 1 + 1 := by omega
    rw [if_pos hreach, if_pos hin, Option.map_some, Tables.put_put, moved,
      List.eraseIdx_idxOf_eq_erase]
  · have hout : ¬ (1 ≤ position ∧ position ≤ (t.rules family chain).length - 1 + 1) := by omega
    rw [if_neg hreach, if_neg hout]
    rfl

theorem length_moved {rules : List Bytes} {i : ℕ} (hi : i < rules.length) (hposition : 1 ≤ position)
    (hreach : position ≤ rules.length) : (moved rules i position line).length = rules.length := by
  have hlength := List.length_eraseIdx_of_lt hi
  rw [moved, List.length_insertIdx, if_pos (by omega), hlength]
  omega

/-- What a reorder that succeeds has done. -/
theorem moved_eq_iff (hline : (t.rules family chain)[i]? = some line) {family' : Family}
    {chain' d : Bytes} (h : (Place.inChain family' chain' d).Held t)
    (hposition : 1 ≤ position) (hreach : position ≤ (t.rules family' chain').length) :
    t.put family' chain'
        (moved (t.rules family' chain') ((t.rules family' chain').idxOf d) position d) =
      t.put family chain (moved (t.rules family chain) i position line) ↔
      Place.inChain family' chain' d = .inChain family chain line ∧
          Adjoins (t.rules family chain) i line ∨
        (Place.inChain family' chain' d).BothStay t family chain i line position := by
  have hmem : d ∈ t.rules family' chain' := h
  by_cases hsame : family' = family ∧ chain' = chain
  · obtain ⟨rfl, rfl⟩ := hsame
    have hlt : position - 1 < (t.rules family' chain').length := by omega
    rw [Tables.put_eq_iff, moved, List.eraseIdx_idxOf_eq_erase, moved,
      erase_insertIdx_eq_iff hmem hline hlt]
    constructor
    · rintro ⟨rfl, hadjoins⟩
      exact .inl ⟨rfl, hadjoins⟩
    · rintro (⟨hplace, hadjoins⟩ | ⟨hother, -⟩)
      · cases hplace
        exact ⟨rfl, hadjoins⟩
      · exact absurd ⟨rfl, rfl⟩ hother
  · constructor
    · intro heq
      have hthere : moved (t.rules family' chain') ((t.rules family' chain').idxOf d) position d =
          t.rules family' chain' := by
        have hat := congrArg (Tables.rules · family' chain') heq
        rwa [Tables.rules_put_self, Tables.rules_put_of_ne hsame] at hat
      rw [hthere, Tables.put_rules] at heq
      exact .inr ⟨hsame, hthere, Tables.put_eq_self_iff.mp heq.symm⟩
    · rintro (⟨hplace, -⟩ | ⟨-, hthere, hhere⟩)
      · cases hplace
        exact absurd ⟨rfl, rfl⟩ hsame
      · rw [hthere, hhere, Tables.put_rules, Tables.put_rules]

/-- The commands of a reorder keep the order exactly if the reorder is one that does. -/
theorem replace_moved_iff (hline : (t.rules family chain)[i]? = some line)
    (hrestore : o.restore = .done) (hposition : 1 ≤ position) (hfound : found ≠ .elsewhere) :
    Moved t family chain i line position (t.replace found (found.edited (.insert position)) o) ↔
      ReorderKeeps t family chain i line position found o := by
  by_cases hheld : found.Held t
  case neg =>
    rw [replace_unheld hheld]
    exact iff_of_true ⟨fun _ => rfl, fun h => by cases h⟩
      ⟨⟨fun _ _ h => absurd h hheld, fun _ h => absurd h hheld⟩, fun h => absurd h hheld⟩
  cases found with
  | elsewhere => exact absurd rfl hfound
  | refused => cases hheld
  | inChain family' chain' d =>
      have hmem : d ∈ t.rules family' chain' := hheld
      have hinsert := after_insert hheld hposition
      have hnone : ((Place.inChain family' chain' d).removed t).after
          ((Place.inChain family' chain' d).edited (.insert position)) = none ↔
          ¬ (Place.inChain family' chain' d).Reaches t position := by
        rw [hinsert]
        change _ ↔ ¬ position ≤ (t.rules family' chain').length
        split
        · rename_i hreach
          exact iff_of_false (Option.some_ne_none _) (not_not_intro hreach)
        · rename_i hreach
          exact iff_of_true rfl hreach
      have hfailed := replace_failed_iff (t := t) (.inChain family' chain' d)
        ((Place.inChain family' chain' d).edited (.insert position)) True hrestore (by
          intro next hnext
          rw [hinsert] at hnext
          split at hnext
          case isFalse => cases hnext
          rename_i hreach
          obtain rfl := Option.some.inj hnext
          have hpos := List.length_pos_of_mem hmem
          refine .inr ⟨trivial, family', chain', ?_⟩
          rw [Tables.rules_put_self, length_moved (List.idxOf_lt_length_of_mem hmem) hposition
            hreach, Place.removed, Tables.rules_put_self, List.length_erase_of_mem hmem]
          omega)
      rw [hnone] at hfailed
      constructor
      · intro h
        refine ⟨hfailed.mp h.failed, fun _ hdelete hreach hadd => ?_⟩
        rw [if_pos (show position ≤ (t.rules family' chain').length from hreach)] at hinsert
        rw [replace_done hheld hdelete hinsert hadd] at h
        exact (moved_eq_iff hline hheld hposition hreach).mp (h.reordered rfl)
      · intro h
        refine ⟨hfailed.mpr h.undone, fun hdone => ?_⟩
        obtain ⟨-, hdelete, hadd, next, hnext, hout⟩ := replace_succeeded hdone
        have hreach : position ≤ (t.rules family' chain').length := by
          by_contra hshort
          rw [hnone.mpr hshort] at hnext
          cases hnext
        rw [hinsert, if_pos hreach] at hnext
        rw [hout, ← Option.some.inj hnext]
        exact (moved_eq_iff hline hheld hposition hreach).mpr
          (h.reordered hheld hdelete hreach hadd)

end Reorders

/-! ## The handlers -/

/-- What a request comes to, and whether it succeeded. -/
def result (out : Tables × Except (ℕ × Bytes) Unit) : Tables × Bool := (out.1, out.2.isOk)

section Handlers
variable {tools : Tools} {reads : Family → Bool} {others : Listings} {t : Tables}
  {o : StepOutcomes}

/-- An update whose commands can be rendered runs them. -/
theorem handleFirewallRuleUpdate_replace {request : UpdateRequest} {old : Rule}
    {oldCommand newCommand : Bytes × List Bytes} (huuid : trimSpace request.uuid ≠ [])
    (hold : oldRule reads others t request.uuid = some old)
    (hdelete : firewallCommand old .delete = .ok oldCommand)
    (hadd : firewallCommand request.rule .add = .ok newCommand) :
    result (handleFirewallRuleUpdate tools reads others t request o) =
      t.replace (tools.place old) ((tools.place request.rule).edited .append) o := by
  obtain ⟨oldCommand, oldArgs⟩ := oldCommand
  obtain ⟨newCommand, newArgs⟩ := newCommand
  obtain ⟨hcommand, chain, hargs⟩ := parts_of_command hadd
  have hfirst := attempt_run tools t oldCommand oldArgs o.delete
  rw [effect_delete hdelete] at hfirst
  rw [handleFirewallRuleUpdate, if_neg huuid, hold]
  dsimp only
  rw [hdelete, hadd, Tables.replace, ← hfirst]
  dsimp only
  generalize t.run tools oldCommand oldArgs o.delete = first
  obtain ⟨deleted, error⟩ := first
  cases error with
  | some text => rfl
  | none =>
      have hsecond := attempt_run tools deleted newCommand newArgs o.add
      rw [effect_add hcommand hargs] at hsecond
      dsimp only
      rw [Option.isNone_none, if_pos rfl, ← hsecond]
      generalize deleted.run tools newCommand newArgs o.add = second
      obtain ⟨added, error⟩ := second
      cases error with
      | none => rfl
      | some text =>
          have hthird := attempt_run tools added oldCommand (restoreArgs old) o.restore
          rw [effect_restore hdelete] at hthird
          dsimp only
          rw [Option.isNone_some, if_neg Bool.false_ne_true, ← hthird]
          rfl

/-- Which updates run their commands, and which rule they replace. -/
structure Replaces (reads : Family → Bool) (others : Listings) (t : Tables)
    (request : UpdateRequest) (old : Rule) : Prop where
  uuid : trimSpace request.uuid ≠ []
  listed : oldRule reads others t request.uuid = some old
  rendered : ∃ command, firewallCommand old .delete = .ok command
  renderedNew : ∃ command, firewallCommand request.rule .add = .ok command

/-- Any other update is refused before its first command. -/
theorem handleFirewallRuleUpdate_refused {request : UpdateRequest}
    (h : ∀ old, ¬ Replaces reads others t request old) :
    result (handleFirewallRuleUpdate tools reads others t request o) = (t, false) := by
  unfold handleFirewallRuleUpdate
  split
  · rfl
  rename_i huuid
  cases hold : oldRule reads others t request.uuid with
  | none => rfl
  | some old =>
      dsimp only
      cases hdelete : firewallCommand old .delete with
      | error text => rfl
      | ok oldCommand =>
          cases hadd : firewallCommand request.rule .add with
          | error text => rfl
          | ok newCommand =>
              exact absurd ⟨huuid, hold, ⟨_, hdelete⟩, ⟨_, hadd⟩⟩ (h old)

/-- A rule that is moved is one of iptables. -/
theorem provider_of_found {uuid : Bytes} {found : Rule} (h : foundRule reads t uuid = some found) :
    found.provider = bytes "iptables" := by
  have hitem : ∀ family line rule, iptablesItem family [] line = some rule →
      rule.provider = bytes "iptables" := by
    intro family line rule hrule
    unfold iptablesItem at hrule
    dsimp only at hrule
    split_ifs at hrule
    split at hrule
    · split_ifs at hrule
      cases hrule
      exact (place_iptablesWords _ _).1
    · cases hrule
  have hlisted : ∀ family, ((t.items reads family).bind fun listed =>
      listed.find? fun rule => trimSpace rule.uuid = uuid) = some found →
      found.provider = bytes "iptables" := by
    intro family hfind
    obtain ⟨listed, hlisted, hfind⟩ := Option.bind_eq_some_iff.mp hfind
    unfold Tables.items at hlisted
    split at hlisted
    case isFalse => cases hlisted
    obtain rfl := Option.some.inj hlisted
    obtain ⟨line, -, hline⟩ := List.mem_filterMap.mp (List.mem_of_find?_eq_some hfind)
    exact hitem family line found hline
  rcases Option.or_eq_some_iff.mp h with h | ⟨-, h⟩
  · exact hlisted .ipv4 h
  · exact hlisted .ipv6 h

theorem place_of_found {uuid : Bytes} {found : Rule} (h : foundRule reads t uuid = some found) :
    tools.place found ≠ .elsewhere := by
  rw [Tools.place, if_pos (provider_of_found h), Tools.stated]
  split
  · exact Place.noConfusion
  · exact Place.noConfusion

/-- A reorder whose commands can be rendered runs them. -/
theorem reorderRule_replace {found : Rule} {command : Bytes} {args : List Bytes} {position : ℕ}
    (hprovider : found.provider = bytes "iptables")
    (hdelete : firewallCommand found .delete = .ok (command, args)) :
    result (reorderRule tools t found command position o) =
      t.replace (tools.place found) ((tools.place found).edited (.insert position)) o := by
  obtain ⟨hcommand, chain, hargs⟩ := parts_of_command hdelete
  obtain ⟨-, rfl, hadd⟩ := firewallRuleArgs_iptables hprovider hargs .add
  have hfirst := attempt_run tools t command args o.delete
  rw [effect_delete hdelete] at hfirst
  rw [reorderRule, hargs]
  dsimp only
  rw [Tables.replace, ← hfirst]
  dsimp only
  generalize t.run tools command args o.delete = first
  obtain ⟨deleted, error⟩ := first
  cases error with
  | some text => rfl
  | none =>
      rw [hadd]
      dsimp only
      have hsecond := attempt_run tools deleted command (insertArgs found.chain position
        (Operation.add.flag :: found.chain :: iptablesMatches found)) o.add
      rw [effect_insert hprovider hcommand hadd] at hsecond
      rw [Option.isNone_none, if_pos rfl, ← hsecond]
      generalize deleted.run tools command (insertArgs found.chain position
        (Operation.add.flag :: found.chain :: iptablesMatches found)) o.add = second
      obtain ⟨inserted, error⟩ := second
      cases error with
      | none => rfl
      | some text =>
          have hthird := attempt_run tools inserted command
            (Operation.add.flag :: found.chain :: iptablesMatches found) o.restore
          rw [effect_add hcommand hadd] at hthird
          dsimp only
          rw [Option.isNone_some, if_neg Bool.false_ne_true, ← hthird]
          rfl

/-- Which reorders run their commands, and for which rule and position. -/
structure Runs (reads : Family → Bool) (t : Tables) (request : ReorderRequest) (found : Rule)
    (position : ℤ) : Prop where
  uuid : trimSpace request.uuid ≠ []
  priority : request.priority = none
  targetPosition : request.targetPosition = some position
  positive : 1 ≤ position
  bounded : position ≤ 10000
  listed : foundRule reads t request.uuid = some found
  rendered : ∃ command, firewallCommand found .delete = .ok command

theorem handleFirewallRuleReorder_replace {request : ReorderRequest} {found : Rule} {position : ℤ}
    (h : Runs reads t request found position) :
    result (handleFirewallRuleReorder tools reads t request o) =
      t.replace (tools.place found) ((tools.place found).edited (.insert position.toNat)) o := by
  obtain ⟨⟨command, args⟩, hdelete⟩ := h.rendered
  have hprovider := provider_of_found h.listed
  have hcommand := (parts_of_command hdelete).1
  have hrange : ¬ (position < 1 ∨ 10000 < position) := by
    have hlow := h.positive
    have hhigh := h.bounded
    omega
  have hname : ¬ (command ≠ bytes "iptables" ∧ command ≠ bytes "ip6tables") := by
    rw [firewallProviderCommand_iptables hprovider] at hcommand
    rw [← Except.ok.inj hcommand]
    split
    · exact fun hnot => hnot.2 rfl
    · exact fun hnot => hnot.1 rfl
  rw [handleFirewallRuleReorder, if_neg h.uuid, h.targetPosition, h.priority]
  dsimp only
  rw [if_neg hrange, h.listed]
  dsimp only
  rw [hcommand]
  change result (if command ≠ bytes "iptables" ∧ command ≠ bytes "ip6tables" then _ else _) = _
  rw [if_neg hname]
  exact reorderRule_replace hprovider hdelete

/-- Any other reorder is refused before its first command. -/
theorem handleFirewallRuleReorder_refused {request : ReorderRequest}
    (h : ∀ found position, ¬ Runs reads t request found position) :
    result (handleFirewallRuleReorder tools reads t request o) = (t, false) := by
  unfold handleFirewallRuleReorder
  split
  · rfl
  rename_i huuid
  split
  · rfl
  · rfl
  rename_i position htarget hpriority
  split
  · rfl
  rename_i hrange
  cases hfound : foundRule reads t request.uuid with
  | none => rfl
  | some found =>
      dsimp only
      split
      · rfl
      have hprovider := provider_of_found hfound
      unfold reorderRule
      cases hargs : firewallRuleArgs found .delete with
      | error text => rfl
      | ok parts =>
          have hrendered : ∃ command, firewallCommand found .delete = .ok command :=
            ⟨(if found.family = bytes "ipv6" then bytes "ip6tables" else bytes "iptables",
              parts.1), by rw [firewallCommand, hargs, firewallProviderCommand_iptables hprovider]⟩
          exact absurd ⟨huuid, hpriority, htarget, by omega, by omega, hfound, hrendered⟩
            (h found position)

end Handlers

/-- Whichever rule of a chain is meant, a request keeps the order exactly if, of the commands
that it runs, none that fails has left anything that putting the old rule at the end of its chain
does not make up for, and a request that succeeds has found this rule, an update one with nothing
but copies of the new rule behind it. -/
theorem firewallRule_order_iff (tools : Tools) (reads : Family → Bool) (others : Listings)
    (t : Tables) {family : Family} {chain line : Bytes} {i : ℕ}
    (hline : (t.rules family chain)[i]? = some line) (o : StepOutcomes)
    (hrestore : o.restore = .done) :
    (∀ request : UpdateRequest,
      InPlace t family chain i (tools.place request.rule)
          (result (handleFirewallRuleUpdate tools reads others t request o)) ↔
        ∀ old, Replaces reads others t request old →
          UpdateKeeps t family chain i line (tools.place old) (tools.place request.rule) o) ∧
    ∀ request : ReorderRequest,
      Moved t family chain i line (request.targetPosition.getD 0).toNat
          (result (handleFirewallRuleReorder tools reads t request o)) ↔
        ∀ found position, Runs reads t request found position →
          ReorderKeeps t family chain i line position.toNat (tools.place found) o := by
  refine ⟨fun request => ?_, fun request => ?_⟩
  · by_cases hruns : ∃ old, Replaces reads others t request old
    · obtain ⟨old, hold⟩ := hruns
      obtain ⟨oldCommand, hdelete⟩ := hold.rendered
      obtain ⟨newCommand, hadd⟩ := hold.renderedNew
      rw [handleFirewallRuleUpdate_replace hold.uuid hold.listed hdelete hadd,
        replace_inPlace_iff hline hrestore]
      constructor
      · intro h old' hold'
        rw [← Option.some.inj (hold.listed.symm.trans hold'.listed)]
        exact h
      · exact fun h => h old hold
    · have hnone : ∀ old, ¬ Replaces reads others t request old := not_exists.mp hruns
      rw [handleFirewallRuleUpdate_refused hnone]
      exact iff_of_true ⟨fun _ => rfl, fun h => by cases h⟩ fun old hold => absurd hold (hnone old)
  · by_cases hruns : ∃ found position, Runs reads t request found position
    · obtain ⟨found, position, hfound⟩ := hruns
      have hpositive : 1 ≤ position.toNat := by
        have hlow := hfound.positive
        omega
      rw [handleFirewallRuleReorder_replace hfound, hfound.targetPosition, Option.getD_some,
        replace_moved_iff hline hrestore hpositive (place_of_found hfound.listed)]
      constructor
      · intro h found' position' hfound'
        rw [← Option.some.inj (hfound.listed.symm.trans hfound'.listed),
          ← Option.some.inj (hfound.targetPosition.symm.trans hfound'.targetPosition)]
        exact h
      · exact fun h => h found position hfound
    · have hnone : ∀ found position, ¬ Runs reads t request found position := fun found position h =>
        hruns ⟨found, position, h⟩
      rw [handleFirewallRuleReorder_refused hnone]
      exact iff_of_true ⟨fun _ => rfl, fun h => by cases h⟩
        fun found position hfound => absurd hfound (hnone found position)

/-! ### Two rules in a chain -/

/-- A host that prints the words of a rule as they were given, and whose IPv4 table takes no IPv6
address. -/
def wordTools : Tools where
  listed family chain stated :=
    if family = .ipv4 ∧ stated.any (·.contains 58) then none
    else some ([32].intercalate (bytes "-A" :: chain :: stated))
  refusal command _ := command

def dropsTcp : Bytes := bytes "-A WORKMESH_BASIC -p tcp -j DROP"

def acceptsIcmp : Bytes := bytes "-A WORKMESH_BASIC -p icmp -j ACCEPT"

def twoLines : Tables where
  chains family := if family = .ipv4 then [bytes "WORKMESH_BASIC"] else []
  rules family chain :=
    if family = .ipv4 ∧ chain = bytes "WORKMESH_BASIC" then [dropsTcp, acceptsIcmp] else []

def noListings : Listings := ⟨none, none, none⟩

/-- A rule of the chain for UDP from an address. -/
def rejectsFrom (address : Bytes) : Rule :=
  { provider := bytes "iptables", family := bytes "ipv4", table := bytes "filter"
    chain := bytes "WORKMESH_BASIC", protocol := bytes "udp", action := bytes "reject"
    sourceAddress := address }

def allSucceed : StepOutcomes := ⟨.done, .done, .done⟩

def updateTo (line address : Bytes) : UpdateRequest :=
  ⟨firewallRuleUUID line, rejectsFrom address⟩

def reorderTo (line : Bytes) (position : ℤ) : ReorderRequest :=
  ⟨firewallRuleUUID line, some position, none⟩

/-- The last rule is replaced in its place, and moved to the front. -/
theorem firewallRule_order_iff_last :
    InPlace twoLines .ipv4 (bytes "WORKMESH_BASIC") 1
      (wordTools.place (rejectsFrom (bytes "10.0.0.1")))
      (result (handleFirewallRuleUpdate wordTools (fun _ => true) noListings twoLines
        (updateTo acceptsIcmp (bytes "10.0.0.1")) allSucceed)) ∧
    Moved twoLines .ipv4 (bytes "WORKMESH_BASIC") 1 acceptsIcmp 1
      (result (handleFirewallRuleReorder wordTools (fun _ => true) twoLines
        (reorderTo acceptsIcmp 1) allSucceed)) := by
  have hfound : (oldRule (fun _ => true) noListings twoLines
      (firewallRuleUUID acceptsIcmp)).map wordTools.place =
        some (.inChain .ipv4 (bytes "WORKMESH_BASIC") acceptsIcmp) ∧
      (foundRule (fun _ => true) twoLines (firewallRuleUUID acceptsIcmp)).map wordTools.place =
        some (.inChain .ipv4 (bytes "WORKMESH_BASIC") acceptsIcmp) ∧
      wordTools.place (rejectsFrom (bytes "10.0.0.1")) =
        .inChain .ipv4 (bytes "WORKMESH_BASIC")
          (bytes "-A WORKMESH_BASIC -p udp -s 10.0.0.1 -j REJECT") := by
    decide +kernel
  obtain ⟨hold, hfound, hnew⟩ := hfound
  have hline : (twoLines.rules .ipv4 (bytes "WORKMESH_BASIC"))[1]? = some acceptsIcmp ∧
      (twoLines.rules .ipv4 (bytes "WORKMESH_BASIC")).idxOf acceptsIcmp = 1 ∧
      (twoLines.rules .ipv4 (bytes "WORKMESH_BASIC")).drop 2 = [] := by
    decide +kernel
  have hadjoins : Adjoins (twoLines.rules .ipv4 (bytes "WORKMESH_BASIC")) 1 acceptsIcmp := by
    intro j hfirst hlast
    rw [hline.2.1] at hfirst
    obtain rfl := Nat.le_antisymm hlast hfirst
    exact hline.1
  have hundone : ∀ old refused inTables, ¬ refused →
      Undone twoLines old refused inTables allSucceed := by
    intro old refused inTables hrefused
    refine ⟨fun text h => (by cases h), fun _ _ h => ?_⟩
    rcases h with h | h
    · exact absurd h hrefused
    · exact absurd rfl h
  obtain ⟨hupdate, hreorder⟩ := firewallRule_order_iff wordTools (fun _ => true) noListings
    twoLines hline.1 allSucceed rfl
  constructor
  · refine (hupdate (updateTo acceptsIcmp (bytes "10.0.0.1"))).mpr fun old hruns => ?_
    have hplace : wordTools.place old = .inChain .ipv4 (bytes "WORKMESH_BASIC") acceptsIcmp := by
      have hlisted := hruns.listed
      rw [updateTo] at hlisted
      rw [hlisted] at hold
      exact Option.some.inj hold
    rw [hplace]
    refine ⟨hundone _ _ _ ?_, fun _ _ _ _ => ⟨rfl, hadjoins, _, hnew, ?_⟩⟩
    · change wordTools.place (rejectsFrom (bytes "10.0.0.1")) ≠ .refused
      rw [hnew]
      exact Place.noConfusion
    · rw [hline.2.2]
      exact fun rule h => absurd h List.not_mem_nil
  · refine (hreorder (reorderTo acceptsIcmp 1)).mpr fun found position hruns => ?_
    have hplace : wordTools.place found = .inChain .ipv4 (bytes "WORKMESH_BASIC") acceptsIcmp := by
      have hlisted := hruns.listed
      rw [reorderTo] at hlisted
      rw [hlisted] at hfound
      exact Option.some.inj hfound
    obtain rfl : 1 = position := Option.some.inj hruns.targetPosition
    rw [hplace]
    refine ⟨hundone _ _ _ (not_not_intro ?_), fun _ _ _ _ => .inl ⟨rfl, hadjoins⟩⟩
    change 1 ≤ (twoLines.rules .ipv4 (bytes "WORKMESH_BASIC")).length
    decide +kernel

/-- The first rule goes to the end of its chain: updated, restored after an update that iptables
refuses, and restored after a reorder to a position that the chain does not have. -/
theorem first_rule_goes_last :
    ¬ InPlace twoLines .ipv4 (bytes "WORKMESH_BASIC") 0
      (wordTools.place (rejectsFrom (bytes "10.0.0.1")))
      (result (handleFirewallRuleUpdate wordTools (fun _ => true) noListings twoLines
        (updateTo dropsTcp (bytes "10.0.0.1")) allSucceed)) ∧
    ¬ InPlace twoLines .ipv4 (bytes "WORKMESH_BASIC") 0
      (wordTools.place (rejectsFrom (bytes "::1")))
      (result (handleFirewallRuleUpdate wordTools (fun _ => true) noListings twoLines
        (updateTo dropsTcp (bytes "::1")) allSucceed)) ∧
    ¬ Moved twoLines .ipv4 (bytes "WORKMESH_BASIC") 0 dropsTcp 3
      (result (handleFirewallRuleReorder wordTools (fun _ => true) twoLines
        (reorderTo dropsTcp 3) allSucceed)) := by
  have hruns :
      (let out := result (handleFirewallRuleUpdate wordTools (fun _ => true) noListings twoLines
        (updateTo dropsTcp (bytes "10.0.0.1")) allSucceed)
      (out.2, out.1.rules .ipv4 (bytes "WORKMESH_BASIC"))) =
        (true, [acceptsIcmp, bytes "-A WORKMESH_BASIC -p udp -s 10.0.0.1 -j REJECT"]) ∧
      (let out := result (handleFirewallRuleUpdate wordTools (fun _ => true) noListings twoLines
        (updateTo dropsTcp (bytes "::1")) allSucceed)
      (out.2, out.1.rules .ipv4 (bytes "WORKMESH_BASIC"))) = (false, [acceptsIcmp, dropsTcp]) ∧
      (let out := result (handleFirewallRuleReorder wordTools (fun _ => true) twoLines
        (reorderTo dropsTcp 3) allSucceed)
      (out.2, out.1.rules .ipv4 (bytes "WORKMESH_BASIC"))) = (false, [acceptsIcmp, dropsTcp]) := by
    decide +kernel
  have hbefore : twoLines.rules .ipv4 (bytes "WORKMESH_BASIC") = [dropsTcp, acceptsIcmp] ∧
      dropsTcp ≠ acceptsIcmp := by
    decide +kernel
  obtain ⟨hupdated, hrestored, hmoved⟩ := hruns
  refine ⟨fun h => ?_, fun h => ?_, fun h => ?_⟩
  · obtain ⟨newLine, -, hout⟩ := h.updated (Prod.mk.inj hupdated).1
    have hrules := (Prod.mk.inj hupdated).2
    rw [hout, Tables.rules_put_self, hbefore.1] at hrules
    have hlast : some acceptsIcmp =
        some (bytes "-A WORKMESH_BASIC -p udp -s 10.0.0.1 -j REJECT") := congrArg (·[1]?) hrules
    exact absurd (Option.some.inj hlast) (by decide +kernel)
  · have hrules := (Prod.mk.inj hrestored).2
    rw [h.failed (Prod.mk.inj hrestored).1, hbefore.1] at hrules
    exact hbefore.2 (List.cons.inj hrules).1
  · have hrules := (Prod.mk.inj hmoved).2
    rw [h.failed (Prod.mk.inj hmoved).1, hbefore.1] at hrules
    exact hbefore.2 (List.cons.inj hrules).1

end WorkMesh.Firewall
