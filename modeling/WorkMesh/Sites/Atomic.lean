import WorkMesh.Sites.Rollback

/-!
# Failed updates of the firewall

An update that ends in an error has put the files back, whatever step failed. It
has put the memory back as well, except for what the kept copy of a website's
settings lacks and for what the application of the default rules does on its way.
-/

namespace WorkMesh.Sites

open Encoding StateMachine Fallible FileTree
open Waf (WAFRule)

/-! ## Rolling back to the state before -/

section Rollback
variable {h : Host} {W : List Path} {base : Files} {backups : List WafFileBackup}

/-- Backups of all files of the firewall, taken of these files. -/
structure Complete (W : List Path) (base : Files) (backups : List WafFileBackup) : Prop where
  backs : Backs W base backups
  of : ∀ b ∈ backups, b.Of base
  paths : ∀ p ∈ W, p ∈ backups.map WafFileBackup.path

theorem complete_snapshot {s t : Strained World}
    (hout : outcome (snapshotWAFRuntime h) s = (.ok backups, t)) :
    Complete (h.runtimePaths s.state.memory.websites) s.state.files backups := by
  obtain ⟨hpaths, hof, -⟩ := snapshot_ok hout
  exact ⟨yields_snapshot h s backups t ⟨rfl, Grown.refl _ _⟩ hout, hof, fun p hp => by
    rwa [hpaths]⟩

theorem Complete.readable (hb : Complete W base backups) {p : Path} (hp : p ∈ W) :
    Readable base p := by
  obtain ⟨b, hmem, rfl⟩ := List.mem_map.mp (hb.paths p hp)
  exact ⟨(hb.of b hmem).passable, (hb.of b hmem).notDir⟩

theorem rollback_calm {w : World} (hb : Complete W base backups) (hw : Grown W base w.files) :
    ∃ failures t, outcome (rollbackWAFRuntime h backups) ⟨w, none⟩ = (.ok failures, t) ∧
      t.state.memory = w.memory ∧ ∀ q, t.state.files.content q = base.content q := by
  obtain ⟨failures, t, hout, hgrown, hall, -⟩ := restoreWAFRuntime_calm hb.backs hb.of hw
  have hcontent := restored_content hb.paths hgrown hall
  rw [rollbackWAFRuntime, outcome_bind_ok hout]
  split
  · have hkeep := (keeps_reload (P := fun v => v.memory = w.memory ∧ v.files = t) h
      fun _ hv => hv).attempt ⟨{ w with files := t }, none⟩ ⟨rfl, rfl⟩
    rw [outcome_bind]
    match hask : outcome (attempt (reloadWAFRuntime h)) ⟨{ w with files := t }, none⟩ with
    | (.ok (.ok ()), u) | (.ok (.error e), u) =>
        rw [hask] at hkeep
        exact ⟨_, u, rfl, hkeep.1, fun q => by rw [hkeep.2, hcontent]⟩
    | (.error e, u) =>
        rw [outcome_attempt] at hask
        split at hask <;> cases hask
  · exact ⟨failures, _, rfl, rfl, hcontent⟩

theorem orRollback_error {undo : Memory → Memory} {body : Op Unit} {s t : Strained World}
    {m : Memory} {e : Failure} (hb : Complete W base backups)
    (hbody : Keeps (GrownFrom W base m) body) (hs : GrownFrom W base m s.state)
    (hout : outcome (orRollback h backups undo body) s = (.error e, t)) :
    t.state.memory = undo m ∧ ∀ q, t.state.files.content q = base.content q := by
  have hkeep := hbody s hs
  rw [orRollback, outcome_bind, outcome_attempt] at hout
  match hrun : outcome body s with
  | (.ok (), u) =>
      rw [hrun] at hout
      cases hout
  | (.error e', u) =>
      rw [hrun] at hout hkeep
      dsimp only at hout hkeep
      rw [outcome_change_bind] at hout
      obtain ⟨failures, v, hroll, hmemory, hcontent⟩ :=
        rollback_calm (h := h) (w := u.state.onMemory undo) hb hkeep.2
      rw [outcome_bind_ok hroll] at hout
      cases hout
      exact ⟨hmemory.trans (congrArg undo hkeep.1), hcontent⟩

theorem orRollback_fails {undo : Memory → Memory} {body : Op Unit} {s t : Strained World}
    {e : Failure} (hout : outcome body s = (.error e, t)) :
    ∃ e' u, outcome (orRollback h backups undo body) s = (.error e', u) := by
  rw [orRollback, outcome_bind_ok (outcome_attempt_error hout), outcome_change_bind, outcome_bind]
  split
  · exact ⟨_, _, rfl⟩
  · exact ⟨_, _, rfl⟩

theorem orRollback_ok {undo : Memory → Memory} {body : Op Unit} {s t : Strained World}
    (hout : outcome (orRollback h backups undo body) s = (.ok (), t)) :
    outcome body s = (.ok (), t) := by
  rw [orRollback, outcome_bind, outcome_attempt] at hout
  match hrun : outcome body s with
  | (.ok (), u) =>
      rw [hrun] at hout
      exact hout
  | (.error e', u) =>
      rw [hrun] at hout
      dsimp only at hout
      rw [outcome_change_bind, outcome_bind] at hout
      split at hout <;> cases hout

end Rollback

/-! ## Atomic updates -/

/-- The memory and the files of the firewall are what they were. -/
def Unchanged (w v : World) : Prop :=
  v.memory = w.memory ∧ ∀ p, v.files.content p = w.files.content p

/-- However OpenResty answers, in whatever order the maps are walked, and whatever step fails, an
error leaves the memory and the files as they were. -/
def Atomic (w : World) (update : Op Unit) : Prop :=
  ∀ answers orders fault e t,
    outcome update ⟨{ w with answers, orders }, fault⟩ = (.error e, t) → Unchanged w t.state

theorem atomic_accept_iff {α : Type} {w : World} {c : Check α} {f : α → Op Unit} :
    Atomic w (accept c >>= f) ↔ ∀ a, c = .ok a → Atomic w (f a) := by
  cases c with
  | error e =>
      refine ⟨fun _ a ha => (by cases ha), fun _ answers orders fault e' t hout => ?_⟩
      rw [outcome_refuse_bind] at hout
      cases hout
      exact ⟨rfl, fun _ => rfl⟩
  | ok a =>
      constructor
      · intro hatomic b hb
        cases hb
        exact hatomic
      · exact fun hatomic => hatomic a rfl

/-! ## The settings of one website -/

section Site
variable {h : Host} {w : World} {websiteID : ℕ} {edit : Website → Option WAFSite → WAFSite}

theorem restoreSite_setSite {m : Memory} {site : WAFSite}
    (hlimits : ∀ old, m.wafSites.lookup websiteID = some old → old.rateLimits = ∅) :
    restoreSite websiteID (m.wafSites.lookup websiteID) (setSite websiteID site m) = m := by
  have hsites : (restoreSite websiteID (m.wafSites.lookup websiteID)
      (setSite websiteID site m)).wafSites = m.wafSites := by
    refine Finmap.ext_lookup fun id => ?_
    cases hold : m.wafSites.lookup websiteID with
    | none =>
        by_cases hid : id = websiteID
        · subst hid
          simp [restoreSite, hold]
        · simp [restoreSite, setSite, Finmap.lookup_erase_ne hid,
            Finmap.lookup_insert_of_ne _ hid]
    | some old =>
        have hclone : cloneWAFSite old = old := by
          rw [cloneWAFSite_eq, ← hlimits old hold]
        by_cases hid : id = websiteID
        · subst hid
          simp [restoreSite, hclone, hold]
        · simp [restoreSite, setSite, Finmap.lookup_insert_of_ne _ hid]
  calc restoreSite websiteID (m.wafSites.lookup websiteID) (setSite websiteID site m)
      = { m with wafSites := (restoreSite websiteID (m.wafSites.lookup websiteID)
            (setSite websiteID site m)).wafSites } := rfl
    _ = m := by rw [hsites]

/-- The memory with the new settings. -/
def edited (websiteID : ℕ) (edit : Website → Option WAFSite → WAFSite) (website : Website)
    (m : Memory) : Memory :=
  setSite websiteID (edit website (m.wafSites.lookup websiteID)) m

theorem updateSite_run {s t : Strained World} {backups : List WafFileBackup} {website : Website}
    (hsnap : outcome (snapshotWAFRuntime h) s = (.ok backups, t))
    (hget : getWebsite s.state.memory.websites websiteID = some website) :
    outcome (updateSite h websiteID edit) s =
      outcome (orRollback h backups
        (restoreSite websiteID (s.state.memory.wafSites.lookup websiteID)) (persistWAFSites h))
        ⟨s.state.onMemory (edited websiteID edit website), t.fault⟩ := by
  obtain ⟨-, -, hstate⟩ := snapshot_ok hsnap
  rw [updateSite, outcome_bind_ok hsnap, outcome_look_bind, hstate, hget, outcome_some_bind,
    outcome_change_bind, hstate]
  rfl

theorem updateSite_error {s t : Strained World} {e : Failure}
    (hout : outcome (updateSite h websiteID edit) s = (.error e, t)) :
    t.state = s.state ∨ ∃ backups u website,
      outcome (snapshotWAFRuntime h) s = (.ok backups, u) ∧
      getWebsite s.state.memory.websites websiteID = some website := by
  have hkeep := keeps_snapshot (P := fun u => u = s.state) h s rfl
  match hsnap : outcome (snapshotWAFRuntime h) s with
  | (.error e', u) =>
      rw [updateSite, outcome_bind_error hsnap] at hout
      rw [hsnap] at hkeep
      cases hout
      exact .inl hkeep
  | (.ok backups, u) =>
      rw [hsnap] at hkeep
      match hget : getWebsite s.state.memory.websites websiteID with
      | none =>
          dsimp only at hkeep
          rw [updateSite, outcome_bind_ok hsnap, outcome_look_bind, hkeep, hget,
            outcome_none_bind] at hout
          cases hout
          exact .inl hkeep
      | some website => exact .inr ⟨backups, u, website, rfl, rfl⟩

theorem updateSite_rolledBack {s t u : Strained World} {backups : List WafFileBackup}
    {website : Website} {e : Failure}
    (hsnap : outcome (snapshotWAFRuntime h) s = (.ok backups, u))
    (hget : getWebsite s.state.memory.websites websiteID = some website)
    (hout : outcome (updateSite h websiteID edit) s = (.error e, t)) :
    t.state.memory = restoreSite websiteID (s.state.memory.wafSites.lookup websiteID)
        (edited websiteID edit website s.state.memory) ∧
      ∀ q, t.state.files.content q = s.state.files.content q := by
  rw [updateSite_run hsnap hget] at hout
  have hstart : GrownFrom (h.runtimePaths s.state.memory.websites) s.state.files
      (edited websiteID edit website s.state.memory)
      (s.state.onMemory (edited websiteID edit website)) := ⟨rfl, Grown.refl _ _⟩
  exact orRollback_error (complete_snapshot hsnap) (keeps_persistSites h) hstart hout

/-- The update is refused at its beginning, or the website has no limits of its own. -/
def SiteKept (h : Host) (w : World) (websiteID : ℕ) : Prop :=
  (∃ p ∈ h.runtimePaths w.memory.websites, ¬ Readable w.files p) ∨
    getWebsite w.memory.websites websiteID = none ∨
    ∀ site, w.memory.wafSites.lookup websiteID = some site → site.rateLimits = ∅

theorem updateSite_atomic_iff :
    Atomic w (updateSite h websiteID edit) ↔ SiteKept h w websiteID := by
  constructor
  · intro hatomic
    by_contra hkept
    simp only [SiteKept, not_or, not_exists, not_and, not_not, not_forall] at hkept
    obtain ⟨hread, hget, old, hold, hlimits⟩ := hkept
    obtain ⟨website, hget⟩ := Option.ne_none_iff_exists'.mp hget
    -- The first file that is read while the new settings are written out fails.
    obtain ⟨backups, hsnap⟩ := snapshot_counted hread (some 0)
    have hrun := @updateSite_run _ _ edit _ _ _ _ hsnap hget
    have hpersist : outcome (persistWAFSites h)
        ⟨w.onMemory (edited websiteID edit website), some 0⟩ = (.error .broken, _) :=
      outcome_bind_error (snapshot_broken h _)
    obtain ⟨e, t, hfail⟩ := @orRollback_fails h backups
      (restoreSite websiteID (w.memory.wafSites.lookup websiteID)) _ _ _ _ hpersist
    have hmemory := (updateSite_rolledBack hsnap hget (hrun.trans hfail)).1
    have hsame := (hatomic w.answers w.orders _ e t (hrun.trans hfail)).1
    rw [hsame, hold] at hmemory
    have hlook := congrArg (fun m => m.wafSites.lookup websiteID) hmemory
    simp only [restoreSite, Finmap.lookup_insert, hold, cloneWAFSite_eq] at hlook
    exact hlimits (congrArg WAFSite.rateLimits (Option.some.inj hlook))
  · intro hkept answers orders fault e t hout
    rcases updateSite_error hout with hstate | ⟨backups, u, website, hsnap, hget⟩
    · rw [hstate]
      exact ⟨rfl, fun _ => rfl⟩
    · obtain ⟨hmemory, hcontent⟩ := updateSite_rolledBack hsnap hget hout
      have hlimits : ∀ old, w.memory.wafSites.lookup websiteID = some old →
          old.rateLimits = ∅ := by
        rcases hkept with ⟨p, hp, hunread⟩ | hnone | hlimits
        · exact absurd ((complete_snapshot hsnap).readable hp) hunread
        · exact absurd (hget.symm.trans hnone) (by simp)
        · exact hlimits
      exact ⟨hmemory.trans (restoreSite_setSite hlimits), hcontent⟩

end Site

/-! ## The node -/

section Node
variable {h : Host} {w : World} {path : Path}

theorem alter_error {f : Files → Option Files} {s t : Strained World} {e : Failure}
    (hout : outcome (alter f) s = (.error e, t)) : t.state = s.state := by
  have hstep := step_state Failure.broken s
  rw [outcome_alter] at hout
  split at hout
  · rename_i e' u heq
    cases hout
    rwa [heq] at hstep
  · rename_i u heq
    rw [heq] at hstep
    cases hf : f u.state.files <;> rw [hf] at hout <;> cases hout
    exact hstep

theorem alter_ok {f : Files → Option Files} {s t : Strained World}
    (hout : outcome (alter f) s = (.ok (), t)) :
    ∃ files, f s.state.files = some files ∧ t.state = { s.state with files } := by
  have hstep := step_state Failure.broken s
  rw [outcome_alter] at hout
  split at hout
  · cases hout
  · rename_i u heq
    rw [heq] at hstep
    rw [hstep] at hout
    cases hf : f s.state.files with
    | none =>
        rw [hf] at hout
        cases hout
    | some files =>
        rw [hf] at hout
        cases hout
        exact ⟨files, rfl, rfl⟩

/-- A write that fails has at most made directories. -/
theorem atomicWriteFile_error {d : Document} {s t : Strained World} {e : Failure}
    (hout : outcome (atomicWriteFile path d) s = (.error e, t)) :
    t.state.memory = s.state.memory ∧ ∀ q, t.state.files.content q = s.state.files.content q := by
  rw [atomicWriteFile, outcome_bind] at hout
  rcases hdirs : outcome (alter (·.mkdirAll path.dropLast)) s with ⟨e' | ⟨⟩, u⟩
  · rw [hdirs] at hout
    cases hout
    rw [alter_error hdirs]
    exact ⟨rfl, fun _ => rfl⟩
  · obtain ⟨files, hfiles, hu⟩ := alter_ok hdirs
    rw [hdirs] at hout
    dsimp only at hout
    rw [alter_error hout, hu]
    exact ⟨rfl, fun q => content_mkdirAll hfiles q⟩

theorem atomicWriteFile_ok {d : Document} {s t : Strained World}
    (hout : outcome (atomicWriteFile path d) s = (.ok (), t)) :
    t.state.memory = s.state.memory ∧ ∀ q, t.state.files.content q =
      if q = path then some d else s.state.files.content q := by
  rw [atomicWriteFile, outcome_bind] at hout
  rcases hdirs : outcome (alter (·.mkdirAll path.dropLast)) s with ⟨e' | ⟨⟩, u⟩
  · rw [hdirs] at hout
    cases hout
  · obtain ⟨files, hfiles, hu⟩ := alter_ok hdirs
    rw [hdirs] at hout
    obtain ⟨files', hfiles', ht⟩ := alter_ok hout
    rw [hu] at hfiles' ht
    refine ⟨by rw [ht], fun q => ?_⟩
    rw [ht, content_put hfiles', content_mkdirAll hfiles]

/-- What follows a snapshot: an error from there on must leave all as it was. -/
theorem atomic_of_snapshot {rest : List WafFileBackup → Op Unit}
    (hrest : ∀ backups answers orders fault e t,
      Complete (h.runtimePaths w.memory.websites) w.files backups →
      outcome (rest backups) ⟨{ w with answers, orders }, fault⟩ = (.error e, t) →
      Unchanged w t.state) :
    Atomic w (snapshotWAFRuntime h >>= rest) := by
  intro answers orders fault e t hout
  have hkeep := keeps_snapshot (P := fun u => u = { w with answers, orders }) h
    ⟨{ w with answers, orders }, fault⟩ rfl
  match hsnap : outcome (snapshotWAFRuntime h) ⟨{ w with answers, orders }, fault⟩ with
  | (.error e', u) =>
      rw [outcome_bind_error hsnap] at hout
      rw [hsnap] at hkeep
      cases hout
      rw [show t.state = _ from hkeep]
      exact ⟨rfl, fun _ => rfl⟩
  | (.ok backups, u) =>
      have hcomplete := complete_snapshot hsnap
      rw [hsnap] at hkeep
      rw [outcome_bind_ok hsnap] at hout
      obtain ⟨v, fault'⟩ := u
      dsimp only at hkeep
      subst hkeep
      exact hrest backups answers orders fault' e t hcomplete hout

theorem updateNode_atomic {d : Document} {set undo : Memory → Memory}
    (hpath : path ∈ h.runtimePaths w.memory.websites)
    (hset : (set w.memory).websites = w.memory.websites) (hundo : undo (set w.memory) = w.memory) :
    Atomic w (updateNode h path d set undo) := by
  refine atomic_of_snapshot fun backups answers orders fault e t hb hout => ?_
  rw [outcome_change_bind, outcome_bind, outcome_attempt] at hout
  have hstart : GrownFrom (h.runtimePaths w.memory.websites) w.files (set w.memory)
      (World.onMemory set { w with answers, orders }) := ⟨rfl, Grown.refl _ _⟩
  have hkeep := keeps_atomicWriteFile (d := d) hpath
    ⟨World.onMemory set { w with answers, orders }, fault⟩ hstart
  match hwrite : outcome (atomicWriteFile path d)
      ⟨World.onMemory set { w with answers, orders }, fault⟩ with
  | (.error e', u) =>
      obtain ⟨hmemory, hcontent⟩ := atomicWriteFile_error hwrite
      rw [hwrite] at hout
      dsimp only at hout
      rw [outcome_change_bind] at hout
      cases hout
      exact ⟨(congrArg undo hmemory).trans hundo, hcontent⟩
  | (.ok (), u) =>
      rw [hwrite] at hout hkeep
      have hpersist : Keeps (GrownFrom (h.runtimePaths w.memory.websites) w.files (set w.memory))
          (persistWAFRuntime h) := by
        have hkeeps := @keeps_persistRuntime h w.files (set w.memory)
        rwa [Writes, hset] at hkeeps
      obtain ⟨hmemory, hcontent⟩ := orRollback_error hb hpersist hkeep hout
      exact ⟨hmemory.trans hundo, hcontent⟩

theorem atomic_look {α : Type} {g : World → α} {f : α → Op Unit}
    (hg : ∀ answers orders, g { w with answers, orders } = g w) (hf : Atomic w (f (g w))) :
    Atomic w (look g >>= f) := by
  intro answers orders fault e t hout
  rw [outcome_look_bind, hg] at hout
  exact hf answers orders fault e t hout

theorem updateGlobalRules_atomic {get : Memory → List WAFRule}
    {set : List WAFRule → Memory → Memory} (rules : List WAFRule)
    (hpath : path ∈ h.runtimePaths w.memory.websites)
    (hset : ∀ rules, (set rules w.memory).websites = w.memory.websites)
    (hundo : ∀ rules, set (get w.memory) (set rules w.memory) = w.memory) :
    Atomic w (updateGlobalRules h path get set rules) := by
  refine atomic_look (fun _ _ => rfl) (atomic_accept_iff.mpr fun rules _ => ?_)
  refine atomic_of_snapshot fun backups answers orders fault e t hb hout => ?_
  rw [outcome_look_bind, outcome_bind] at hout
  have hstart : GrownFrom (h.runtimePaths w.memory.websites) w.files w.memory
      { w with answers, orders } := ⟨rfl, Grown.refl _ _⟩
  have hkeep := keeps_atomicWriteFile (d := .rules rules) hpath
    ⟨{ w with answers, orders }, fault⟩ hstart
  match hwrite : outcome (atomicWriteFile path (.rules rules))
      ⟨{ w with answers, orders }, fault⟩ with
  | (.error e', u) =>
      rw [hwrite] at hout
      cases hout
      exact atomicWriteFile_error hwrite
  | (.ok (), u) =>
      rw [hwrite] at hout hkeep
      dsimp only at hout hkeep
      rw [outcome_change_bind] at hout
      have hpersist : Keeps (GrownFrom (h.runtimePaths w.memory.websites) w.files
          (set rules w.memory)) (persistWAFRuntime h) := by
        have hkeeps := @keeps_persistRuntime h w.files (set rules w.memory)
        rwa [Writes, hset] at hkeeps
      have hchanged : GrownFrom (h.runtimePaths w.memory.websites) w.files (set rules w.memory)
          (u.state.onMemory (set rules)) := ⟨congrArg (set rules) hkeep.1, hkeep.2⟩
      obtain ⟨hmemory, hcontent⟩ := orRollback_error hb hpersist hchanged hout
      exact ⟨hmemory.trans (hundo rules), hcontent⟩

end Node

/-! ## Applying the default rules -/

section Defaults
variable {h : Host} {w : World} {rules : List WAFRule}

/-- The rules in a file; no rules in a file that does not exist. -/
def rulesIn : Option Document → Option (List WAFRule)
  | some (.rules rules) => some rules
  | some _ => none
  | none => some []

def defaultRulesOf (h : Host) (files : Files) : Option (List WAFRule) :=
  if Readable files h.defaultRulesFile then rulesIn (files.content h.defaultRulesFile) else none

theorem readFile_later {path : Path} (hread : Readable w.files path) (fault : Option ℕ) :
    outcome (readFile path) ⟨w, fault.map (· + 1)⟩ = (.ok (w.files.content path), ⟨w, fault⟩) := by
  rw [readFile, outcome_bind_ok (outcome_step_later _ _ _), outcome_look_bind]
  split
  · rfl
  · rename_i hcon
    exact absurd hread hcon

theorem listDefault_later (hrules : defaultRulesOf h w.files = some rules) (fault : Option ℕ) :
    outcome (listDefaultWAFRules h) ⟨w, fault.map (· + 1)⟩ =
      (.ok rules, ⟨w.onMemory (setDefaultRules rules), fault⟩) := by
  unfold defaultRulesOf at hrules
  split at hrules
  · rename_i hread
    rw [listDefaultWAFRules, outcome_bind_ok (readFile_later hread fault)]
    match hcontent : w.files.content h.defaultRulesFile with
    | none | some (.rules _) =>
        rw [hcontent] at hrules
        obtain rfl := Option.some.inj hrules
        rfl
    | some (.site _) | some (.global _) | some (.lists _) | some (.manifest _ _)
    | some (.text _) =>
        rw [hcontent] at hrules
        cases hrules
  · cases hrules

theorem listDefault_ends (w : World) :
    Ends (fun v => v = w) (listDefaultWAFRules h)
      (fun rules v => defaultRulesOf h w.files = some rules ∧
        v = w.onMemory (setDefaultRules rules))
      fun _ v => v = w := by
  rintro s rfl
  have hkeep := keeps_readFile (P := fun v => v = s.state) h.defaultRulesFile s rfl
  match hread : outcome (readFile h.defaultRulesFile) s with
  | (.error e, t) =>
      rw [hread] at hkeep
      rw [listDefaultWAFRules, outcome_bind_error hread]
      exact hkeep
  | (.ok data, t) =>
      rw [hread] at hkeep
      obtain ⟨hok, hdata, ht⟩ := readFile_ok hread
      have hrules : defaultRulesOf h s.state.files = rulesIn data := by
        rw [defaultRulesOf, if_pos hok, hdata]
      rw [listDefaultWAFRules, outcome_bind_ok hread, hrules]
      match data with
      | none | some (.rules _) => exact ⟨rfl, by rw [← ht]⟩
      | some (.site _) | some (.global _) | some (.lists _) | some (.manifest _ _)
      | some (.text _) => exact ht

theorem rules_of_lookup {m : Memory} {websiteID : ℕ} {site : WAFSite}
    (hlook : (spreadRules rules m).wafSites.lookup websiteID = some site) : site.rules = rules := by
  rw [spreadRules, lookup_mapValues] at hlook
  obtain ⟨site', -, rfl⟩ := Option.map_eq_some_iff.mp hlook
  rfl

theorem mem_spreadRules {m : Memory} {websiteID : ℕ} :
    websiteID ∈ (spreadRules rules m).wafSites ↔
      websiteID ∈ m.wafSites ∨ ∃ website ∈ m.websites, website.id = websiteID := by
  have hfold : ∀ (websites : List Website) (sites : Finmap fun _ : ℕ => WAFSite),
      websiteID ∈ websites.foldl (fun sites website =>
        if website.id ∈ sites then sites
        else sites.insert website.id (defaultWAFSite website.id website.aliasName)) sites ↔
        websiteID ∈ sites ∨ ∃ website ∈ websites, website.id = websiteID := by
    intro websites
    induction websites with
    | nil => simp
    | cons website websites ih =>
        intro sites
        rw [List.foldl_cons, ih]
        by_cases hmem : website.id ∈ sites
        · rw [if_pos hmem]
          simp only [List.mem_cons, exists_eq_or_imp]
          constructor
          · tauto
          · rintro (hid | rfl | hrest)
            · exact .inl hid
            · exact .inl hmem
            · exact .inr hrest
        · rw [if_neg hmem, Finmap.mem_insert]
          simp only [List.mem_cons, exists_eq_or_imp]
          tauto
  rw [← hfold, spreadRules, ← Finmap.lookup_isSome, lookup_mapValues, Option.isSome_map,
    Finmap.lookup_isSome]

/-- Each file is as it was, or it is the file of a website's rules and holds the default ones. -/
def SpreadTo (h : Host) (rules : List WAFRule) (websites : List Website) (base files : Files) :
    Prop :=
  ∀ q, files.content q = base.content q ∨
    (∃ websiteID website, getWebsite websites websiteID = some website ∧
      q = rulesFile (h.sitePath website .waf)) ∧ files.content q = some (.rules rules)

/-- How the application of the default rules to this memory may fail. -/
def SpreadFailure (h : Host) (rules : List WAFRule) (m : Memory) (base : Files) (v : World) : Prop :=
  v.memory = restoreSites m.wafSites (spreadRules rules m) ∧
    ((∀ q, v.files.content q = base.content q) ∨
      (∃ websiteID ∈ (spreadRules rules m).wafSites, getWebsite m.websites websiteID = none) ∧
        SpreadTo h rules m.websites base v.files)

section Spread
variable {m : Memory} {base : Files} {backups : List WafFileBackup}

theorem writeSpreadRules_ends (hb : Complete (h.runtimePaths m.websites) base backups)
    {websiteID : ℕ} (hmem : websiteID ∈ (spreadRules rules m).wafSites) :
    Ends (fun v => Writes h base (spreadRules rules m) v ∧ SpreadTo h rules m.websites base v.files)
      (writeSpreadRules h backups (restoreSites m.wafSites) websiteID)
      (fun _ v => Writes h base (spreadRules rules m) v ∧
        SpreadTo h rules m.websites base v.files)
      fun _ v => SpreadFailure h rules m base v := by
  rintro s ⟨hs, hspread⟩
  obtain ⟨site, hsite⟩ := Finmap.mem_iff.mp hmem
  rw [writeSpreadRules, outcome_look_bind, hs.1, hsite, outcome_some_bind]
  dsimp only
  match hget : getWebsite (spreadRules rules m).websites websiteID with
  | none =>
      rw [outcome_change_bind, outcome_throw]
      exact ⟨congrArg (restoreSites m.wafSites) hs.1, .inr ⟨⟨websiteID, hmem, hget⟩, hspread⟩⟩
  | some website =>
      obtain ⟨-, hpath⟩ := mem_runtimePaths_of_site h hget
      have hwrite := @keeps_atomicWriteFile _ base (spreadRules rules m)
        _ (.rules site.rules) hpath
      split
      · rename_i t hout
        have hok := orRollback_ok hout
        have hkeep := hwrite s hs
        rw [hok] at hkeep
        refine ⟨hkeep, fun q => ?_⟩
        rw [(atomicWriteFile_ok hok).2]
        split
        · rename_i hq
          exact .inr ⟨⟨websiteID, website, hget, hq⟩, by rw [rules_of_lookup hsite]⟩
        · exact hspread q
      · rename_i e t hout
        obtain ⟨hmemory, hcontent⟩ := orRollback_error hb hwrite hs hout
        exact ⟨hmemory, .inl hcontent⟩

theorem spreadDefaults_start (s : Strained World) :
    outcome (spreadDefaults h rules backups) s =
      outcome
        ((walk (s.state.orders.headD []) (spreadRules rules s.state.memory).wafSites.keys).forM
            (writeSpreadRules h backups (restoreSites s.state.memory.wafSites)) >>= fun _ =>
          orRollback h backups (restoreSites s.state.memory.wafSites) (persistWAFRuntime h))
        ⟨{ s.state.onMemory (spreadRules rules) with orders := s.state.orders.tail }, s.fault⟩ := by
  rw [spreadDefaults, outcome_look_bind, outcome_change_bind, outcome_look_bind, nextOrder,
    outcome_bind, outcome_look_bind, outcome_change_bind, outcome_pure]
  rfl

theorem spreadDefaults_ends (hb : Complete (h.runtimePaths m.websites) base backups) :
    Ends (fun v => v.memory = m ∧ v.files = base) (spreadDefaults h rules backups)
      (fun _ _ => True) fun _ v => SpreadFailure h rules m base v := by
  rintro s ⟨rfl, rfl⟩
  rw [spreadDefaults_start]
  have hvisit : ∀ websiteID ∈ walk (s.state.orders.headD [])
      (spreadRules rules s.state.memory).wafSites.keys,
      Ends (fun v => Writes h s.state.files (spreadRules rules s.state.memory) v ∧
          SpreadTo h rules s.state.memory.websites s.state.files v.files)
        (writeSpreadRules h backups (restoreSites s.state.memory.wafSites) websiteID)
        (fun _ v => Writes h s.state.files (spreadRules rules s.state.memory) v ∧
          SpreadTo h rules s.state.memory.websites s.state.files v.files)
        fun _ v => SpreadFailure h rules s.state.memory s.state.files v := fun websiteID hid =>
    writeSpreadRules_ends hb (Finmap.mem_keys.mp (mem_walk.mp hid))
  have hloop := ends_forM hvisit
  have hrest : Ends
      (fun v => Writes h s.state.files (spreadRules rules s.state.memory) v ∧
        SpreadTo h rules s.state.memory.websites s.state.files v.files)
      (orRollback h backups (restoreSites s.state.memory.wafSites) (persistWAFRuntime h))
      (fun _ _ => True) fun _ v => SpreadFailure h rules s.state.memory s.state.files v := by
    rintro t ⟨ht, -⟩
    split
    · trivial
    · rename_i e u hout
      obtain ⟨hmemory, hcontent⟩ := orRollback_error (m := spreadRules rules s.state.memory) hb
        (keeps_persistRuntime h) ht hout
      exact ⟨hmemory, .inl hcontent⟩
  exact (hloop.bind fun _ => hrest) _ ⟨⟨rfl, Grown.refl _ _⟩, fun _ => .inl rfl⟩

end Spread

/-- The default rules are in the memory already. Either the update is refused at its beginning, or
no website has limits of its own, and all settings belong to a website or all websites have the
default rules in their files already. -/
def DefaultsKept (h : Host) (w : World) : Prop :=
  ∀ rules, defaultRulesOf h w.files = some rules → rules = w.memory.wafDefaultRules ∧
    ((∃ p ∈ h.runtimePaths w.memory.websites, ¬ Readable w.files p) ∨
      (∀ websiteID site, w.memory.wafSites.lookup websiteID = some site → site.rateLimits = ∅) ∧
        ((∀ websiteID ∈ w.memory.wafSites, getWebsite w.memory.websites websiteID ≠ none) ∨
          ∀ websiteID website, getWebsite w.memory.websites websiteID = some website →
            w.files.content (rulesFile (h.sitePath website .waf)) = some (.rules rules)))

theorem getWebsite_ne_none {websites : List Website} {website : Website}
    (hmem : website ∈ websites) : getWebsite websites website.id ≠ none := by
  intro hnone
  have := List.find?_eq_none.mp hnone website hmem
  simp at this

theorem restoreSites_spreadRules {m : Memory}
    (hlimits : ∀ websiteID site, m.wafSites.lookup websiteID = some site → site.rateLimits = ∅) :
    restoreSites m.wafSites (spreadRules rules m) = m := by
  have hsites : mapValues cloneWAFSite m.wafSites = m.wafSites := by
    refine Finmap.ext_lookup fun websiteID => ?_
    rw [lookup_mapValues]
    cases hlook : m.wafSites.lookup websiteID with
    | none => rfl
    | some site => rw [Option.map_some, cloneWAFSite_eq, ← hlimits websiteID site hlook]
  calc restoreSites m.wafSites (spreadRules rules m)
      = { m with wafSites := mapValues cloneWAFSite m.wafSites } := rfl
    _ = m := by rw [hsites]

theorem unchanged_of_spreadFailure {v : World}
    (hkept : (∀ websiteID site, w.memory.wafSites.lookup websiteID = some site →
        site.rateLimits = ∅) ∧
      ((∀ websiteID ∈ w.memory.wafSites, getWebsite w.memory.websites websiteID ≠ none) ∨
        ∀ websiteID website, getWebsite w.memory.websites websiteID = some website →
          w.files.content (rulesFile (h.sitePath website .waf)) = some (.rules rules)))
    (hv : SpreadFailure h rules w.memory w.files v) : Unchanged w v := by
  refine ⟨hv.1.trans (restoreSites_spreadRules hkept.1), ?_⟩
  rcases hv.2 with hcontent | ⟨⟨websiteID, hmem, hnone⟩, hspread⟩
  · exact hcontent
  · rcases hkept.2 with hsome | hsame
    · rcases mem_spreadRules.mp hmem with hold | ⟨website, hwebsite, rfl⟩
      · exact absurd hnone (hsome websiteID hold)
      · exact absurd hnone (getWebsite_ne_none hwebsite)
    · intro q
      rcases hspread q with hq | ⟨⟨id, website, hget, rfl⟩, hq⟩
      · exact hq
      · rw [hq, hsame id website hget]

theorem applyDefaults_atomic (hkept : DefaultsKept h w) :
    Atomic w (applyDefaultWAFToWebsites h) := by
  intro answers orders fault e t hout
  have hlist := listDefault_ends (h := h) { w with answers, orders }
    ⟨{ w with answers, orders }, fault⟩ rfl
  match hload : outcome (listDefaultWAFRules h) ⟨{ w with answers, orders }, fault⟩ with
  | (.error e', u) =>
      rw [applyDefaultWAFToWebsites, outcome_bind_error hload] at hout
      rw [hload] at hlist
      cases hout
      rw [show t.state = _ from hlist]
      exact ⟨rfl, fun _ => rfl⟩
  | (.ok rules, ⟨v, fault'⟩) =>
      rw [hload] at hlist
      obtain ⟨hrules, hv⟩ := hlist
      obtain ⟨hsame, hrest⟩ := hkept rules hrules
      have hv' : v = { w with answers, orders } := by
        rw [show v = _ from hv, hsame]
        rfl
      subst hv'
      rw [applyDefaultWAFToWebsites, outcome_bind_ok hload] at hout
      refine atomic_of_snapshot (w := w) (h := h) (fun backups answers orders fault e t hb hrun => ?_)
        answers orders fault' e t hout
      have hfail := (spreadDefaults_ends hb).error
        (s := ⟨{ w with answers, orders }, fault⟩) ⟨rfl, rfl⟩ hrun
      rcases hrest with ⟨p, hp, hunread⟩ | hlimits
      · exact absurd (hb.readable hp) hunread
      · exact unchanged_of_spreadFailure hlimits hfail

/-- The state in which the snapshot is taken when no step before fails. -/
theorem applyDefaults_loaded (hrules : defaultRulesOf h w.files = some rules)
    (fault : Option ℕ) :
    outcome (applyDefaultWAFToWebsites h) ⟨w, fault.map (· + 1)⟩ =
      outcome (snapshotWAFRuntime h >>= spreadDefaults h rules)
        ⟨w.onMemory (setDefaultRules rules), fault⟩ :=
  outcome_bind_ok (listDefault_later hrules fault)

theorem rules_of_atomic (hatomic : Atomic w (applyDefaultWAFToWebsites h))
    (hrules : defaultRulesOf h w.files = some rules) : rules = w.memory.wafDefaultRules := by
  have hrun := applyDefaults_loaded hrules (some 0)
  rw [outcome_bind_error (snapshot_broken h _)] at hrun
  exact congrArg Memory.wafDefaultRules (hatomic w.answers w.orders _ _ _ hrun).1

theorem spreadDefaults_broken {v : World} {backups : List WafFileBackup} {websiteID : ℕ}
    (hmem : websiteID ∈ v.memory.wafSites) :
    ∃ e t, outcome (spreadDefaults h rules backups) ⟨v, some 0⟩ = (.error e, t) := by
  have hids : websiteID ∈ walk (v.orders.headD []) (spreadRules rules v.memory).wafSites.keys :=
    mem_walk.mpr (Finmap.mem_keys.mpr (mem_spreadRules.mpr (.inl hmem)))
  rw [spreadDefaults_start]
  obtain ⟨first, ids, hwalk⟩ := List.exists_cons_of_ne_nil (List.ne_nil_of_mem hids)
  have hfirst : first ∈ (spreadRules rules v.memory).wafSites := by
    rw [← Finmap.mem_keys, ← @mem_walk _ _ _ _ _ _ _ (v.orders.headD []), hwalk]
    exact List.mem_cons_self
  obtain ⟨site, hsite⟩ := Finmap.mem_iff.mp hfirst
  have hvisit : ∃ e t, outcome (writeSpreadRules h backups (restoreSites v.memory.wafSites) first)
      ⟨{ v.onMemory (spreadRules rules) with orders := v.orders.tail }, some 0⟩ =
        (.error e, t) := by
    rw [writeSpreadRules, outcome_look_bind]
    dsimp only [World.onMemory]
    rw [hsite, outcome_some_bind]
    match getWebsite (spreadRules rules v.memory).websites first with
    | none => exact ⟨_, _, rfl⟩
    | some website => exact orRollback_fails (e := .broken) rfl
  obtain ⟨e, t, hvisit⟩ := hvisit
  have hloop : outcome ((first :: ids).forM
      (writeSpreadRules h backups (restoreSites v.memory.wafSites)))
      ⟨{ v.onMemory (spreadRules rules) with orders := v.orders.tail }, some 0⟩ = (.error e, t) :=
    outcome_bind_error hvisit
  exact ⟨e, t, outcome_bind_error (hwalk ▸ hloop)⟩

section Loaded
variable (hsame : rules = w.memory.wafDefaultRules) (hrules : defaultRulesOf h w.files = some rules)
  (hread : ∀ p ∈ h.runtimePaths w.memory.websites, Readable w.files p)

include hsame hrules hread

theorem spread_of_atomic (orders : List (List ℕ)) (fault : Option ℕ) :
    ∃ first backups, Complete (h.runtimePaths w.memory.websites) w.files backups ∧
      outcome (applyDefaultWAFToWebsites h) ⟨{ w with orders }, first⟩ =
        outcome (spreadDefaults h rules backups) ⟨{ w with orders }, fault⟩ := by
  have hset : setDefaultRules rules w.memory = w.memory := by rw [hsame]; rfl
  obtain ⟨backups, hsnap⟩ := @snapshot_counted h { w with orders } hread fault
  have hcomplete := complete_snapshot hsnap
  refine ⟨(fault.map (· + (h.runtimePaths w.memory.websites).length)).map (· + 1), backups,
    hcomplete, ?_⟩
  rw [applyDefaults_loaded (w := { w with orders }) hrules, World.onMemory, hset,
    outcome_bind_ok hsnap]

theorem limits_of_atomic (hatomic : Atomic w (applyDefaultWAFToWebsites h)) {websiteID : ℕ}
    {site : WAFSite} (hsite : w.memory.wafSites.lookup websiteID = some site) :
    site.rateLimits = ∅ := by
  obtain ⟨first, backups, hb, hrun⟩ := spread_of_atomic hsame hrules hread w.orders (some 0)
  obtain ⟨e, t, hfail⟩ := @spreadDefaults_broken h rules
    { w with orders := w.orders } backups _ (Finmap.mem_of_lookup_eq_some hsite)
  have hmemory := ((spreadDefaults_ends hb).error (s := ⟨{ w with orders := w.orders }, some 0⟩)
    ⟨rfl, rfl⟩ hfail).1
  rw [(hatomic w.answers w.orders first e t (hrun.trans hfail)).1] at hmemory
  have hlook := congrArg (fun m => m.wafSites.lookup websiteID) hmemory
  simp only [restoreSites, lookup_mapValues, hsite, Option.map_some, cloneWAFSite_eq] at hlook
  exact congrArg WAFSite.rateLimits (Option.some.inj hlook)

omit hsame hrules in
/-- A website's rules are written, then the settings of no website are met. -/
theorem spreadDefaults_orphan {backups : List WafFileBackup} {orphan websiteID : ℕ}
    {website : Website} (horphan : orphan ∈ w.memory.wafSites)
    (hnone : getWebsite w.memory.websites orphan = none)
    (hget : getWebsite w.memory.websites websiteID = some website) :
    ∃ e t, outcome (spreadDefaults h rules backups)
        ⟨{ w with orders := [[websiteID, orphan]] }, none⟩ = (.error e, t) ∧
      t.state.files.content (rulesFile (h.sitePath website .waf)) = some (.rules rules) := by
  have hne : websiteID ≠ orphan := by
    rintro rfl
    rw [hnone] at hget
    cases hget
  obtain ⟨hwebsite, hid⟩ := getWebsite_some hget
  have hfirst : websiteID ∈ (spreadRules rules w.memory).wafSites :=
    mem_spreadRules.mpr (.inr ⟨website, hwebsite, hid⟩)
  have hsecond : orphan ∈ (spreadRules rules w.memory).wafSites :=
    mem_spreadRules.mpr (.inl horphan)
  obtain ⟨rest, hwalk⟩ := @walk_of_nodup _ _ _ _ _ _ _ [websiteID, orphan]
    (spreadRules rules w.memory).wafSites.keys (by simpa using hne) (by
      intro k hk
      rw [Finmap.mem_keys]
      rcases List.mem_pair.mp hk with rfl | rfl
      · exact hfirst
      · exact hsecond)
  obtain ⟨site, hsite⟩ := Finmap.mem_iff.mp hfirst
  obtain ⟨site', hsite'⟩ := Finmap.mem_iff.mp hsecond
  have hpath := (mem_runtimePaths_of_site h hget).2
  obtain ⟨t, hwrite, ht⟩ := atomicWriteFile_calm
    (w := { w.onMemory (spreadRules rules) with orders := [] }) (d := .rules site.rules)
    (ne_nil_of_mem_runtimePaths h hpath) (hread _ hpath)
  have hvisit : outcome (writeSpreadRules h backups (restoreSites w.memory.wafSites) websiteID)
      ⟨{ w.onMemory (spreadRules rules) with orders := [] }, none⟩ =
        (.ok (), ⟨{ w.onMemory (spreadRules rules) with orders := [], files := t }, none⟩) := by
    rw [writeSpreadRules, outcome_look_bind]
    dsimp only [World.onMemory] at hwrite ⊢
    rw [hsite, outcome_some_bind, show getWebsite (spreadRules rules w.memory).websites websiteID =
      some website from hget]
    dsimp only
    rw [orRollback, outcome_bind_ok (outcome_attempt_ok hwrite)]
    rfl
  have hstop : outcome (writeSpreadRules h backups (restoreSites w.memory.wafSites) orphan)
      ⟨{ w.onMemory (spreadRules rules) with orders := [], files := t }, none⟩ =
        (.error .notExist, ⟨{ (w.onMemory (spreadRules rules)).onMemory
          (restoreSites w.memory.wafSites) with orders := [], files := t }, none⟩) := by
    rw [writeSpreadRules, outcome_look_bind]
    dsimp only [World.onMemory]
    rw [hsite', outcome_some_bind, show getWebsite (spreadRules rules w.memory).websites orphan =
      none from hnone]
    rfl
  refine ⟨.notExist, ⟨{ (w.onMemory (spreadRules rules)).onMemory
    (restoreSites w.memory.wafSites) with orders := [], files := t }, none⟩, ?_, ?_⟩
  · rw [spreadDefaults_start]
    refine outcome_bind_error ?_
    dsimp only [List.headD_cons]
    rw [show (World.mk w.memory w.files w.database w.answers [[websiteID, orphan]] w.names
      w.taken w.now).memory = w.memory from rfl, hwalk]
    change outcome (writeSpreadRules h backups (restoreSites w.memory.wafSites) websiteID >>=
      fun _ => (orphan :: rest).forM
        (writeSpreadRules h backups (restoreSites w.memory.wafSites))) _ = _
    exact (outcome_bind_ok hvisit).trans (outcome_bind_error hstop)
  · exact (ht _).trans (by rw [if_pos rfl, rules_of_lookup hsite])

theorem files_of_atomic (hatomic : Atomic w (applyDefaultWAFToWebsites h)) {orphan websiteID : ℕ}
    {website : Website} (horphan : orphan ∈ w.memory.wafSites)
    (hnone : getWebsite w.memory.websites orphan = none)
    (hget : getWebsite w.memory.websites websiteID = some website) :
    w.files.content (rulesFile (h.sitePath website .waf)) = some (.rules rules) := by
  obtain ⟨first, backups, hb, hrun⟩ :=
    spread_of_atomic hsame hrules hread [[websiteID, orphan]] none
  obtain ⟨e, t, hfail, hcontent⟩ := @spreadDefaults_orphan h _ rules hread
    backups _ _ _ horphan hnone hget
  rw [← (hatomic w.answers _ first e t (hrun.trans hfail)).2]
  exact hcontent

end Loaded

theorem applyDefaults_atomic_iff : Atomic w (applyDefaultWAFToWebsites h) ↔ DefaultsKept h w := by
  refine ⟨fun hatomic rules hrules => ?_, applyDefaults_atomic⟩
  have hsame := rules_of_atomic hatomic hrules
  refine ⟨hsame, ?_⟩
  by_cases hread : ∀ p ∈ h.runtimePaths w.memory.websites, Readable w.files p
  · refine .inr ⟨fun _ _ hsite => limits_of_atomic hsame hrules hread hatomic hsite, ?_⟩
    by_cases horphans : ∀ websiteID ∈ w.memory.wafSites,
        getWebsite w.memory.websites websiteID ≠ none
    · exact .inl horphans
    · simp only [not_forall, not_not] at horphans
      obtain ⟨orphan, horphan, hnone⟩ := horphans
      exact .inr fun _ _ hget => files_of_atomic hsame hrules hread hatomic horphan hnone hget
  · simp only [not_forall] at hread
    obtain ⟨p, hp, hunread⟩ := hread
    exact .inl ⟨p, hp, hunread⟩

end Defaults

/-! ## All updates -/

/-- When an update leaves nothing changed by an error: always for the configuration, the lists and
the rules of the node; for a website when it has no limits of its own. -/
def KeptOnError (h : Host) (w : World) : WafUpdate → Prop
  | .siteSettings websiteID _ mode _ detectionLevel =>
      checkSiteSettings websiteID mode detectionLevel = .ok () → SiteKept h w websiteID
  | .upsertRule websiteID rule =>
      ∀ checked, checkRule h w.now websiteID rule = .ok checked → SiteKept h w websiteID
  | .deleteRule websiteID ruleID => checkRuleID websiteID ruleID = .ok () → SiteKept h w websiteID
  | .applyDefaults => DefaultsKept h w
  | .global _ | .lists _ | .defaultRules _ | .customRules _ => True

theorem updateGlobal_atomic (h : Host) (w : World) (cfg : WAFGlobalConfig) :
    Atomic w (updateGlobal h cfg) := by
  refine atomic_look (fun _ _ => rfl) (atomic_accept_iff.mpr fun cfg _ => ?_)
  refine atomic_look (fun _ _ => rfl) ?_
  exact updateNode_atomic (mem_runtimePaths_of_common h (by simp)) rfl rfl

theorem updateLists_atomic (h : Host) (w : World) (lists : WAFAccessLists) :
    Atomic w (updateLists h lists) := by
  refine atomic_accept_iff.mpr fun lists _ => atomic_look (fun _ _ => rfl) ?_
  exact updateNode_atomic (mem_runtimePaths_of_common h (by simp)) rfl rfl

/-- An update of the firewall is atomic if and only if it keeps the limits of the websites. -/
theorem waf_update_atomic_iff (h : Host) (w : World) (update : WafUpdate) :
    Atomic w (update.run h) ↔ KeptOnError h w update := by
  cases update with
  | siteSettings websiteID enabled mode frequencyEnabled detectionLevel =>
      exact atomic_accept_iff.trans
        ⟨fun hall hok => updateSite_atomic_iff.mp (hall () hok),
          fun hkept _ hok => updateSite_atomic_iff.mpr (hkept hok)⟩
  | upsertRule websiteID rule =>
      have hlook : ∀ {f : ℤ → Op Unit}, Atomic w (look World.now >>= f) ↔ Atomic w (f w.now) :=
        ⟨fun hatomic => hatomic, atomic_look fun _ _ => rfl⟩
      exact hlook.trans (atomic_accept_iff.trans
        (forall_congr' fun _ => imp_congr Iff.rfl updateSite_atomic_iff))
  | deleteRule websiteID ruleID =>
      exact atomic_accept_iff.trans
        ⟨fun hall hok => updateSite_atomic_iff.mp (hall () hok),
          fun hkept _ hok => updateSite_atomic_iff.mpr (hkept hok)⟩
  | global cfg => exact iff_of_true (updateGlobal_atomic h w cfg) trivial
  | lists given => exact iff_of_true (updateLists_atomic h w given) trivial
  | defaultRules rules =>
      exact iff_of_true (updateGlobalRules_atomic rules
        (mem_runtimePaths_of_common h (by simp)) (fun _ => rfl) fun _ => rfl) trivial
  | customRules rules =>
      exact iff_of_true (updateGlobalRules_atomic rules
        (mem_runtimePaths_of_common h (by simp)) (fun _ => rfl) fun _ => rfl) trivial
  | applyDefaults => exact applyDefaults_atomic_iff

/-! ## A limit that is lost -/

def panel : Host where
  websiteRoot := bytes "/www/wwwroot"
  wafRoot := [bytes "waf", bytes "data"]
  wafGeneratedRoot := [bytes "waf", bytes "generated"]
  workingDirectory := bytes "/"
  wafRuntimeRequired := false
  compiles := fun _ => true

def shop : Website := { id := 1, primaryDomain := bytes "shop.example", type := bytes "static" }

def loginLimit : WAFFrequencyLimit :=
  { enabled := true, mode := bytes "uri", period := 60, count := 5, blockTime := 10 }

/-- A website whose settings were loaded with a limit of its own. -/
def limited : World where
  files := .empty
  memory :=
    { websites := [shop]
      wafSites := Finmap.singleton 1
        { defaultWAFSite 1 (bytes "shop") with
          rateLimits := Finmap.singleton (bytes "login") loginLimit } }

theorem limits_lost : ¬ Atomic limited
    ((WafUpdate.siteSettings 1 true (bytes "block") none none).run panel) := by
  intro hatomic
  have hkept : SiteKept panel limited 1 :=
    updateSite_atomic_iff.mp (atomic_accept_iff.mp hatomic () rfl)
  rcases hkept with ⟨p, hp, hunread⟩ | hnone | hlimits
  · have hread : ∀ p ∈ panel.runtimePaths limited.memory.websites, Readable limited.files p := by
      decide +kernel
    exact hunread (hread p hp)
  · exact absurd hnone (by decide)
  · have hlook := hlimits _ (Finmap.lookup_singleton_eq)
    have := congrArg (fun limits : Limits => limits.lookup (bytes "login")) hlook
    simp at this

end WorkMesh.Sites
