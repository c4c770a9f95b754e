import WorkMesh.Waf.Access

/-!
# Observing

A site that observes ends no request by a rule or by a counter: every such end
is behind a look at the mode. Bans are looked up without one, and are those of
the address of a client on any site.
-/

namespace WorkMesh.Waf

open Encoding StateMachine

variable (find : Bytes → Bytes → Bool)

/-- An observed request is ended by a blacklist at most. -/
def ObserveSpared (f : Filter) : Event → Prop
  | .access r lookups fates =>
      ¬ Blocks (f.files.context r).global (f.files.context r).site →
        ∀ status cause, (access find f.files r { f.world with lookups, fates }).1 =
          .denied status cause → cause = .blacklist
  | _ => True

/-- A ban that is live in the dictionary, or in Redis where the lookup is answered. -/
def BanLive (w : World) (lookups : Bytes → Bool) (global : GlobalTable) (key : Bytes) : Prop :=
  (∃ entry ∈ w.dict key, w.now < entry.expires) ∨
    ∃ server ∈ global.server, lookups key = true ∧
      ∃ entry ∈ w.redis server key, w.now < entry.expires

/-- No ban is live for the client of a request that is observed, unless the filter or the site
is off or a list decides. -/
def NoBanLive (f : Filter) : Event → Prop
  | .access r lookups _ =>
      (f.files.context r).global.enabled = some true →
        (f.files.context r).site.enabled = some true →
        checkLists (f.files.context r).lists r = .next →
        ¬ Blocks (f.files.context r).global (f.files.context r).site →
        ∀ key ∈ banKeys r, ¬ BanLive f.world lookups (f.files.context r).global key
  | _ => True

/-! ## Behind the bans -/

variable {find} {c : Context} {r : Request} {body : Bytes}

theorem live_isSome (s : Store) (now : ℕ) (key : Bytes) :
    (s.live now key).isSome = true ↔ ∃ entry ∈ s key, now < entry.expires := by
  rw [Store.live]
  cases s key with
  | none => simp
  | some entry => simp [Option.filter]

theorem banned_iff (w : World) (lookups : Bytes → Bool) (fates : List Fate)
    (global : GlobalTable) (key : Bytes) :
    World.banned { w with lookups, fates } global key = true ↔ BanLive w lookups global key := by
  rw [World.banned, Bool.or_eq_true, live_isSome, World.redisExists]
  refine or_congr Iff.rfl ?_
  cases global.server with
  | none => simp
  | some server =>
      rw [Bool.and_eq_true, live_isSome]
      simp

/-- Rules of a site that observes end no request, except that one may let it through. -/
theorem applyRules_of_observe (hmode : ¬ Blocks c.global c.site) (rules : List Rule) (w : World) :
    (applyRules find c r body rules w).1 = .next ∨
      (applyRules find c r body rules w).1 = .done .served := by
  induction rules generalizing w with
  | nil => exact .inl rfl
  | cons rule rules ih =>
      rw [applyRules]
      split
      · simp only
        split
        · exact .inr rfl
        · split
          · split
            · exact ih _
            · exact ih _
          · exact ih w
      · exact ih w

theorem applyRuleLists_of_observe (hmode : ¬ Blocks c.global c.site) (lists : List (List Rule))
    (w : World) : (applyRuleLists find c r body lists w).1 = .served := by
  induction lists generalizing w with
  | nil => rfl
  | cons rules lists ih =>
      rw [applyRuleLists]
      rcases @applyRules_of_observe find _ r body hmode rules w with
        hnext | hserved
      · split
        · rename_i heq
          rw [heq] at hnext
          cases hnext
        · exact ih _
      · split
        · rename_i heq
          rw [heq] at hserved
          exact (Verdict.done.inj hserved)
        · rename_i heq
          rw [heq] at hserved
          cases hserved

theorem inspectStandardRules_of_observe (hmode : ¬ Blocks c.global c.site) :
    inspectStandardRules find c r body = .next ∨
      inspectStandardRules find c r body = .done .served := by
  rw [inspectStandardRules]
  split
  · exact .inl rfl
  · dsimp only
    exact ite_eq_or_eq _ _ _

theorem checkRates_of_observe (hmode : ¬ Blocks c.global c.site) (files : Files) (w : World) :
    (checkRates find files c r w).1 = .served := by
  rw [checkRates]
  simp only [hmode, and_false, if_false]
  split
  · rename_i outcome heq
    rcases @inspectStandardRules_of_observe find _ r _ hmode with h | h
    · rw [heq] at h
      cases h
    · rw [heq] at h
      exact Verdict.done.inj h
  · exact applyRuleLists_of_observe hmode _ _

theorem checkLists_denied {lists : AccessLists} {outcome : Outcome}
    (h : checkLists lists r = .done outcome) :
    outcome = .served ∨ outcome = .denied 403 .blacklist := by
  simp only [checkLists] at h
  split at h
  · exact .inl (Verdict.done.inj h).symm
  · split at h
    · exact .inr (Verdict.done.inj h).symm
    · cases h

/-- A request is spared if and only if no ban is in its way. -/
theorem observeSpared_iff (f : Filter) (e : Event) : ObserveSpared find f e ↔ NoBanLive f e := by
  cases e with
  | access r lookups fates =>
      simp only [ObserveSpared, NoBanLive]
      constructor
      · intro h henabled hsite hlists hmode key hkey hlive
        have hbanned : (banKeys r).any
            (World.banned { f.world with lookups, fates } (f.files.context r).global) = true :=
          List.any_eq_true.mpr ⟨key, hkey, (banned_iff _ _ _ _ _).mpr hlive⟩
        have hdenied : (access find f.files r { f.world with lookups, fates }).1 =
            .denied 429 .ban := by
          simp only [access, henabled, hlists, hsite, hbanned, if_true, ne_eq, not_true_eq_false,
            if_false]
        cases h hmode _ _ hdenied
      · intro h hmode status cause hdenied
        simp only [access] at hdenied
        split at hdenied
        · cases hdenied
        · rename_i henabled
          split at hdenied
          · rename_i outcome hlists
            rcases checkLists_denied hlists with rfl | rfl
            · cases hdenied
            · exact (Outcome.denied.inj hdenied).2.symm
          · rename_i hlists
            split at hdenied
            · cases hdenied
            · rename_i hsite
              rw [if_neg, checkRates_of_observe hmode] at hdenied
              · cases hdenied
              · rw [List.any_eq_true]
                rintro ⟨key, hkey, hbanned⟩
                exact h (not_not.mp henabled) (not_not.mp hsite) hlists hmode key hkey
                  ((banned_iff _ _ _ _ _).mp hbanned)
  | log request status fates => exact Iff.rfl
  | configure files => exact Iff.rfl
  | elapse seconds => exact Iff.rfl
  | evict key => exact Iff.rfl

variable (find) in
/-- In a history of requests and changes of the configuration, the observed requests are spared
if and only if none of them meets a live ban. -/
theorem observe_spared_iff (f : Filter) (events : List Event) :
    Meets (Filter.step find) (ObserveSpared find) f events ↔
      Meets (Filter.step find) NoBanLive f events :=
  meets_congr (P := fun _ => True) (fun _ _ _ _ => trivial)
    (fun f e _ => observeSpared_iff f e) trivial

/-! ## Where bans come from -/

/-- No ban is in either store. -/
def BanFree (w : World) : Prop :=
  ∀ kind clientIP suffix, w.dict (banKey kind clientIP suffix) = none ∧
    ∀ server, w.redis server (banKey kind clientIP suffix) = none

/-- The site of a request, as either phase reads it, does not block. -/
def Observes (f : Filter) : Event → Prop
  | .access r _ _ => ¬ Blocks (f.files.context r).global (f.files.context r).site
  | .log r _ _ => ¬ Blocks (f.files.global.getD { enabled := some true })
      (f.files.decodeSiteConfig (siteDir (hostName r)) { enabled := some true })
  | _ => True

variable {w : World} {global : GlobalTable}

theorem incr_of_ne {s : Store} {now period : ℕ} {key other : Bytes} (h : other ≠ key) :
    (s.incr now key period).2 other = s other := by
  rw [Store.incr]
  split
  · simp [Store.set, h]
  · simp [Store.set, h]

theorem BanFree.count (h : BanFree w) {key : Bytes}
    (hkey : ∀ kind clientIP suffix, banKey kind clientIP suffix ≠ key) (period : ℕ) :
    BanFree (w.count global key period).2 := by
  have hcommand : BanFree (w.redisCommand global fun store => store.incr w.now key period).2 := by
    rw [World.redisCommand]
    split
    · exact h
    · rename_i server _
      have hwritten : ∀ fates, BanFree { w with
          redis := fun other => if other = server then ((w.redis server).incr w.now key period).2
            else w.redis other
          fates } := by
        intro fates kind clientIP suffix
        refine ⟨(h kind clientIP suffix).1, fun other => ?_⟩
        by_cases hserver : other = server
        · simp only [hserver, if_true]
          rw [incr_of_ne (hkey kind clientIP suffix)]
          exact (h kind clientIP suffix).2 _
        · simp only [hserver, if_false]
          exact (h kind clientIP suffix).2 other
      simp only
      split
      · exact h
      · exact hwritten _
      · exact hwritten _
  rw [World.count]
  split
  · rename_i heq
    rwa [heq] at hcommand
  · rename_i later heq
    rw [heq] at hcommand
    intro kind clientIP suffix
    refine ⟨?_, (hcommand kind clientIP suffix).2⟩
    rw [← (hcommand kind clientIP suffix).1]
    exact incr_of_ne (hkey kind clientIP suffix)

theorem banKey_ne_rate (rest : Bytes) (kind : Kind) (clientIP suffix : Bytes) :
    banKey kind clientIP suffix ≠ bytes "rate:" ++ rest := by
  intro h
  have hhead := congrArg List.head? h
  simp only [banKey, List.append_assoc] at hhead
  revert hhead
  simp [show bytes "ban:" = [98, 97, 110, 58] from by decide,
    show bytes "rate:" = [114, 97, 116, 101, 58] from by decide]

theorem BanFree.rateHit (h : BanFree w) (hmode : ¬ Blocks c.global c.site) (kind : Kind)
    (suffix : Bytes) : BanFree (c.rateHit w kind suffix).2 := by
  rw [Context.rateHit]
  split
  · exact h
  · rename_i config _
    have hcount : BanFree (w.count c.global (rateKey kind c.clientIP suffix)
        config.period.toNat).2 := by
      refine h.count (fun kind' clientIP suffix' => ?_) _
      simp only [rateKey, List.append_assoc]
      exact banKey_ne_rate _ kind' clientIP suffix'
    simp only [hmode, if_false]
    split
    · exact hcount
    · exact hcount

theorem BanFree.applyRules (h : BanFree w) (hmode : ¬ Blocks c.global c.site)
    (rules : List Rule) : BanFree (applyRules find c r body rules w).2 := by
  induction rules generalizing w with
  | nil => exact h
  | cons rule rules ih =>
      rw [Waf.applyRules]
      split
      · simp only
        split
        · exact h
        · split
          · have hhit := h.rateHit hmode .attack (bytes "*")
            split
            · rename_i heq
              rw [heq] at hhit
              exact ih hhit
            · rename_i heq
              rw [heq] at hhit
              exact ih hhit
          · exact ih h
      · exact ih h

theorem BanFree.applyRuleLists (h : BanFree w) (hmode : ¬ Blocks c.global c.site)
    (lists : List (List Rule)) : BanFree (applyRuleLists find c r body lists w).2 := by
  induction lists generalizing w with
  | nil => exact h
  | cons rules lists ih =>
      have hrules := @BanFree.applyRules find _ r body _ h hmode rules
      rw [Waf.applyRuleLists]
      split
      · rename_i heq
        rwa [heq] at hrules
      · rename_i heq
        rw [heq] at hrules
        exact ih hrules

theorem BanFree.checkRates (h : BanFree w) (hmode : ¬ Blocks c.global c.site) (files : Files) :
    BanFree (checkRates find files c r w).2 := by
  have haccess := h.rateHit hmode .access (bytes "*")
  rw [Waf.checkRates]
  simp only [hmode, and_false, if_false]
  rcases hhit : c.rateHit w .access (bytes "*") with ⟨_ | _, after⟩
  · rw [hhit] at haccess
    have hlimited := haccess.rateHit hmode .url r.uri
    split
    · exact hlimited
    · exact hlimited.applyRuleLists hmode _
  · rw [hhit] at haccess
    split
    · exact haccess
    · exact haccess.applyRuleLists hmode _

theorem banFree_step {f : Filter} {e : Event} (h : BanFree f.world) (hobserves : Observes f e) :
    BanFree (f.step find e).world := by
  cases e with
  | access r lookups fates =>
      have hworld : BanFree { f.world with lookups, fates } := h
      simp only [Filter.step, access]
      split
      · exact hworld
      · split
        · exact hworld
        · split
          · exact hworld
          · split
            · exact hworld
            · exact hworld.checkRates hobserves f.files
  | log request status fates =>
      have hworld : BanFree { f.world with fates } := h
      simp only [Filter.step, log]
      split
      · exact hworld
      · split
        · exact hworld
        · rename_i config _
          have hcount := @BanFree.count _ (f.files.global.getD { enabled := some true }) hworld
            (bytes "rate:notFound:" ++ request.remoteAddr)
            (fun kind clientIP suffix => by
              have hsplit : bytes "rate:notFound:" = bytes "rate:" ++ bytes "notFound:" := by
                decide
              rw [hsplit, List.append_assoc]
              exact banKey_ne_rate _ kind clientIP suffix) config.period.toNat
          simp only [show ¬ Blocks _ _ from hobserves, if_false]
          split
          · exact hcount
          · exact hcount
  | configure files => exact h
  | elapse seconds => exact h
  | evict key =>
      intro kind clientIP suffix
      refine ⟨?_, (h kind clientIP suffix).2⟩
      simp only [Filter.step]
      split
      · rfl
      · exact (h kind clientIP suffix).1

/-- As long as no site blocks there is no ban, and every request is spared. -/
theorem observeSpared_of_observes (events : List Event)
    (hrun : Meets (Filter.step find) Observes {} events) :
    Meets (Filter.step find) (ObserveSpared find) {} events := by
  have hfree : BanFree ({} : Filter).world := fun _ _ _ => ⟨rfl, fun _ => rfl⟩
  have hboth := hrun.with_invariant (P := fun f => BanFree f.world)
    (fun _ _ h hobserves => banFree_step h hobserves) hfree
  refine hboth.mono fun f e h => (observeSpared_iff f e).mpr ?_
  cases e with
  | access r lookups fates =>
      intro _ _ _ _ key hkey hlive
      have hnone : f.world.dict key = none ∧ ∀ server, f.world.redis server key = none := by
        simp only [banKeys, List.mem_cons, List.not_mem_nil, or_false] at hkey
        rcases hkey with rfl | rfl | rfl | rfl
        · exact h.2 _ _ _
        · exact h.2 _ _ _
        · exact h.2 _ _ _
        · exact h.2 _ _ _
      rcases hlive with ⟨entry, hentry, -⟩ | ⟨server, -, -, entry, hentry, -⟩
      · rw [hnone.1] at hentry
        cases hentry
      · rw [hnone.2 server] at hentry
        cases hentry
  | log request status fates => trivial
  | configure files => trivial
  | elapse seconds => trivial
  | evict key => trivial

/-! ## A ban that outlives its mode -/

/-- One request in ten minutes. -/
def onePerPeriod : Limits := [("access", { count := some 1, period := some 600 })]

def filesIn (mode : String) : Files where
  global := some { enabled := some true, mode := some (bytes mode), standardRules := some false
                   frequencyLimit := some onePerPeriod }

def visit : Event := .access ⟨bytes "192.0.2.7", bytes "shop.example", bytes "/", [], bytes "GET",
  [], 0, none⟩ (fun _ => true) []

/-- The second request is banned for ten minutes, and the third comes after the mode was changed. -/
theorem banned_after_observe : ¬ Meets (Filter.step fun _ _ => false)
    (ObserveSpared fun _ _ => false) {}
    [.configure (filesIn "block"), visit, visit, .configure (filesIn "observe"), visit] := by
  intro h
  have hlast := h.2.2.2.2.1
  have hdenied : (access (fun _ _ => false) (filesIn "observe") ⟨bytes "192.0.2.7",
      bytes "shop.example", bytes "/", [], bytes "GET", [], 0, none⟩ (run
        (Filter.step fun _ _ => false) {} [.configure (filesIn "block"), visit, visit]).world).1 =
      .denied 429 .ban := by decide +kernel
  cases hlast (by decide +kernel) _ _ hdenied

end WorkMesh.Waf
