import WorkMesh.AgentTeam.Identity
import WorkMesh.Encoding.Runes

/-!
# One task for one idempotency key

`handleProjectTaskCreate` cuts the key of a request at 160 bytes, looks for a
task of the project whose stored key, trimmed once more, is that text, and
stores the cut text with a new task. A cut may end in white space, or inside a
character, and the bytes left of a character are U+FFFD once the state was
saved and read back. The machine below keeps the stored keys as the code does,
saves the state, and may restart between two requests.

## Main results

* `KeyedWorld.Consistent.run_findID` says that a settled key finds the same task
  whatever else the server does, restarts included.
* `one_task_per_key` compares two creation requests of a project.

## Implementation notes

`TeamTask.idempotencyKey` is the text that a reader of the task sees. The keys
that requests are compared with stand beside the tasks, in the same order.
-/

namespace WorkMesh.AgentTeam

open StateMachine Encoding

/-! ## Keys -/

/-- The key as the handler reads it. -/
def requestKey (body : Fields) : String := aiString body ["idempotencyKey", "clientTaskId"]

def keyLimit : Nat := 160

/-- `boundedText` on a byte string. -/
def boundedKey (key : String) : Runes := Runes.bounded isSpace (Runes.ofText key) keyLimit

def clientKey (body : Fields) : Runes := boundedKey (requestKey body)

/-- The text that is stored for a key reads back as itself: it ends neither in
white space nor inside a character. -/
def SettledKey (key : String) : Prop :=
  Runes.trim isSpace (Runes.throughJson (boundedKey key)) = boundedKey key

instance (key : String) : Decidable (SettledKey key) := inferInstanceAs (Decidable (_ = _))

theorem ofText_trimSpace (value : String) :
    Runes.ofText (trimSpace value) = Runes.trim isSpace (Runes.ofText value) := by
  simp only [Runes.ofText, Runes.trim, trimSpace, String.toList_ofList, List.rdropWhile,
    List.dropWhile_map, Function.comp_def, Rune.read, ← List.map_reverse]

theorem whole_boundedKey {key : String} (h : SettledKey key) : Runes.Whole (boundedKey key) := by
  rw [SettledKey] at h
  rw [← h]
  exact (Runes.whole_throughJson _).trim isSpace

theorem trim_boundedKey {key : String} (h : SettledKey key) :
    Runes.trim isSpace (boundedKey key) = boundedKey key := by
  have hwhole := whole_boundedKey h
  rw [SettledKey, hwhole] at h
  exact h

theorem byteSize_boundedKey_le (key : String) : Runes.byteSize (boundedKey key) ≤ keyLimit :=
  Runes.byteSize_bounded_le ..

theorem trim_clientKey {body : Fields} (h : SettledKey (requestKey body)) :
    Runes.trim isSpace (clientKey body) = clientKey body := by
  rw [clientKey, trim_boundedKey h]

/-- A key that is not cut is settled. -/
theorem settled_of_short {key : String} (h : (trimSpace key).utf8ByteSize ≤ keyLimit) :
    SettledKey key := by
  rw [← Runes.byteSize_ofText, ofText_trimSpace] at h
  have hkey : boundedKey key = Runes.trim isSpace (Runes.ofText key) := by
    rw [boundedKey, Runes.bounded, if_neg (by omega)]
  have hwhole : Runes.Whole (boundedKey key) :=
    hkey ▸ (Runes.whole_ofText key).trim isSpace
  rw [SettledKey, hwhole, hkey, Runes.trim_trim]

theorem aiString_trimmed (body : Fields) (keys : List String) :
    aiString body keys = "" ∨ ∃ value, aiString body keys = trimSpace value := by
  induction keys with
  | nil => exact .inl rfl
  | cons key keys ih =>
      simp only [aiString]
      split
      · split_ifs
        · exact .inr ⟨_, rfl⟩
        · exact ih
      · exact ih

/-- A key that is not blank leaves some text to compare. -/
theorem clientKey_ne_nil {body : Fields} (h : requestKey body ≠ "") : clientKey body ≠ [] := by
  obtain ⟨value, hvalue⟩ := (aiString_trimmed body _).resolve_left h
  have hvalue : requestKey body = trimSpace value := hvalue
  have htrim : Runes.trim isSpace (Runes.ofText (requestKey body)) =
      Runes.ofText (requestKey body) := by
    rw [hvalue, ofText_trimSpace, Runes.trim_trim]
  intro hnil
  rw [clientKey, boundedKey, Runes.bounded, htrim] at hnil
  split_ifs at hnil with hlong
  · have hsize := Runes.byteSize_takeSize hlong.le
    rw [hnil] at hsize
    exact absurd hsize (by decide)
  · exact h (String.toList_eq_nil_iff.mp (List.map_eq_nil_iff.mp hnil))

/-! ## The text of a key -/

theorem takeSize_read (l : List Char) (n : Nat) :
    (Runes.takeSize (l.map .char) n).map Rune.read = takeBytes l n := by
  induction l generalizing n with
  | nil => rfl
  | cons c l ih =>
      rw [List.map_cons, Runes.takeSize, takeBytes]
      by_cases hfits : c.utf8Size ≤ n
      · rw [if_pos hfits, if_pos (show (Rune.char c).size ≤ n from hfits), List.map_cons]
        exact congrArg _ (ih _)
      · rw [if_neg hfits, if_neg (show ¬(Rune.char c).size ≤ n from hfits), List.map_map,
          List.eq_replicate_iff]
        constructor
        · simp only [Rune.bytes, List.length_map, List.length_take, String.length_utf8EncodeChar]
          omega
        · intro b hb
          obtain ⟨byte, -, rfl⟩ := List.mem_map.mp hb
          rfl

theorem trimSpace_read (t : Runes) : trimSpace (String.ofList (t.map Rune.read)) =
    String.ofList ((Runes.trim isSpace t).map Rune.read) := by
  simp only [Runes.trim, trimSpace, String.toList_ofList, List.rdropWhile, List.dropWhile_map,
    Function.comp_def, ← List.map_reverse]

/-- A reader of a bounded text sees U+FFFD for each byte that is left of a character. -/
theorem boundedText_read (value : String) (max : Nat) :
    boundedText value max =
      String.ofList ((Runes.bounded isSpace (Runes.ofText value) max).map Rune.read) := by
  have hread (s : String) : (Runes.ofText s).map Rune.read = s.toList := by
    simp [Runes.ofText, Function.comp_def, Rune.read]
  rw [boundedText, Runes.bounded, ← ofText_trimSpace, Runes.byteSize_ofText]
  split_ifs
  · rw [Runes.ofText, takeSize_read]
  · rw [hread, String.ofList_toList]

/-- The key that a new task shows is the stored one as it is read. -/
theorem taskSpec_clientKey {body : Fields} {spec : TaskSpec} (h : taskSpec body = .ok spec) :
    spec.clientKey = String.ofList ((clientKey body).map Rune.read) := by
  have hkey : spec.clientKey = boundedText (requestKey body) keyLimit := by
    simp only [taskSpec] at h
    rw [requestKey, keyLimit]
    split at h
    · cases h
    split at h
    · cases h
    split at h
    · cases h
    split at h
    · cases h
    · simp only [← Except.ok.inj h]
  rw [hkey, boundedText_read]
  rfl

/-! ## The state with its keys -/

/-- The team state, and the stored key of each task in the order of the tasks. -/
structure KeyedTeam where
  team : TeamState
  keys : List Runes

namespace KeyedTeam

/-- A server that has stored nothing. -/
def empty : KeyedTeam := ⟨.empty, []⟩

/-- The task of a project that a nonblank key was stored with. -/
def find (st : KeyedTeam) (projectID : String) (key : Runes) : Option TeamTask :=
  ((st.team.teamTasks.zip st.keys).find? fun entry =>
    entry.1.projectId = projectID ∧ key ≠ [] ∧ Runes.trim isSpace entry.2 = key).map Prod.fst

/-- What a restarted process reads: the counter of identifiers is not stored. -/
def reread (st : KeyedTeam) : KeyedTeam :=
  ⟨{ st.team with idCounter := 0 }, st.keys.map Runes.throughJson⟩

end KeyedTeam

/-- The creation of a task once no task with its key is there. -/
def createTask (env : Env) (now : Instant) (failure : Option String) (s : TeamState)
    (projectID : String) (spec : TaskSpec) : TeamState × Response :=
  if teamTaskLimit ≤ s.teamTasks.countP (fun old => old.projectId = projectID) ∨
      teamPendingCommandLimit ≤ pendingTeamCommandsLocked s projectID then
    (s, .error 429 "TEAM_CAPACITY_REACHED" "项目任务或待处理命令已达到上限")
  else
    let task := newTeamTask env s now projectID spec
    match validateTeamDependenciesLocked s projectID task.taskId spec.dependencies with
    | some message => (s.tick, .error 400 "TASK_DEPENDENCIES_INVALID" message)
    | none =>
        let stored := storeNewTask s now projectID task
        commitTeamState s stored.1 failure "TASK_SAVE_FAILED"
          (.created task (dispatchStatus task.status stored.2))

/-- Without a task for its key, a valid request creates one. -/
theorem handleProjectTaskCreate_new {env : Env} {now : Instant} {failure : Option String}
    {s : TeamState} {project : String} {body : Fields} {spec : TaskSpec}
    (hproject : validTeamID project ≠ "") (hspec : taskSpec body = .ok spec)
    (hfind : s.teamTasks.find? (fun old => old.projectId = validTeamID project ∧
      spec.clientKey ≠ "" ∧ trimSpace old.idempotencyKey = spec.clientKey) = none) :
    handleProjectTaskCreate env now failure s project body =
      createTask env now failure s (validTeamID project) spec := by
  simp only [handleProjectTaskCreate, if_neg hproject, hspec, hfind]
  rfl

namespace KeyedTeam

/-- A task that was stored has its key stored with it. -/
def withCreated (st : KeyedTeam) (key : Runes) (created : TeamState × Response) :
    KeyedTeam × Response :=
  (⟨created.1, if created.2.isOk then st.keys ++ [key] else st.keys⟩, created.2)

/-- `handleProjectTaskCreate` with keys as byte strings. -/
def handleProjectTaskCreate (env : Env) (now : Instant) (failure : Option String)
    (st : KeyedTeam) (project : String) (body : Fields) : KeyedTeam × Response :=
  let projectID := validTeamID project
  if projectID = "" then (st, .error 400 "PROJECT_ID_INVALID" "projectId 无效")
  else
    match taskSpec body with
    | .error response => (st, response)
    | .ok spec =>
        match st.find projectID (clientKey body) with
        | some old => (st, .ok (.replayed old))
        | none =>
            st.withCreated (clientKey body) (createTask env now failure st.team projectID spec)

/-- The other requests store no key. -/
def handle (env : Env) (now : Instant) (failure : Option String) (st : KeyedTeam) :
    Request → KeyedTeam × Response
  | .taskCreate project body => st.handleProjectTaskCreate env now failure project body
  | request =>
      let answered := AgentTeam.handle env now failure st.team request
      (⟨answered.1, st.keys⟩, answered.2)

/-- The tasks show the keys that are stored with them, and none of these is cut inside a
character. -/
structure Shown (st : KeyedTeam) : Prop where
  length : st.team.teamTasks.length = st.keys.length
  shown : ∀ entry ∈ st.team.teamTasks.zip st.keys,
    entry.1.idempotencyKey = String.ofList (entry.2.map Rune.read)
  whole : ∀ key ∈ st.keys, Runes.Whole key

section Shown
variable {st : KeyedTeam} {body : Fields}

/-- Keys that are shown find the task that their texts find. -/
theorem Shown.find_eq (h : st.Shown) (hwhole : Runes.Whole (clientKey body)) {spec : TaskSpec}
    (hspec : taskSpec body = .ok spec) (projectID : String) :
    st.find projectID (clientKey body) = st.team.teamTasks.find? fun old =>
      old.projectId = projectID ∧ spec.clientKey ≠ "" ∧
        trimSpace old.idempotencyKey = spec.clientKey := by
  have htasks : st.team.teamTasks = (st.team.teamTasks.zip st.keys).map Prod.fst :=
    (List.map_fst_zip h.length.le).symm
  rw [find]
  conv_rhs => rw [htasks, List.find?_map]
  refine congrArg _ (List.find?_congr fun entry hentry => ?_)
  have hkey : Runes.Whole (Runes.trim isSpace entry.2) :=
    (h.whole entry.2 (List.of_mem_zip hentry).2).trim isSpace
  have hempty : spec.clientKey = "" ↔ clientKey body = [] := by
    rw [taskSpec_clientKey hspec, String.ofList_eq_empty_iff, List.map_eq_nil_iff]
  have hsame : trimSpace entry.1.idempotencyKey = spec.clientKey ↔
      Runes.trim isSpace entry.2 = clientKey body := by
    rw [h.shown entry hentry, trimSpace_read, taskSpec_clientKey hspec, String.ofList_inj]
    exact ⟨hkey.eq_of_read hwhole, fun heq => heq ▸ rfl⟩
  rw [Function.comp_apply, decide_eq_decide, hsame, ne_eq, ne_eq, hempty]

/-- While keys are shown, a request does what it does to the tasks alone. -/
theorem Shown.handleProjectTaskCreate_eq (h : st.Shown) (hwhole : Runes.Whole (clientKey body))
    (env : Env) (now : Instant) (failure : Option String) (project : String) :
    ((st.handleProjectTaskCreate env now failure project body).1.team,
        (st.handleProjectTaskCreate env now failure project body).2) =
      AgentTeam.handleProjectTaskCreate env now failure st.team project body := by
  by_cases hproject : validTeamID project = ""
  · simp only [handleProjectTaskCreate, AgentTeam.handleProjectTaskCreate, if_pos hproject]
  · cases hspec : taskSpec body with
    | error response =>
        simp only [handleProjectTaskCreate, AgentTeam.handleProjectTaskCreate, if_neg hproject,
          hspec]
    | ok spec =>
        have hfind := h.find_eq hwhole hspec (validTeamID project)
        rw [handleProjectTaskCreate]
        cases hold : st.find (validTeamID project) (clientKey body) with
        | some old =>
            simp only [AgentTeam.handleProjectTaskCreate, if_neg hproject, hspec, hold,
              ← hfind]
        | none =>
            rw [handleProjectTaskCreate_new hproject hspec (hfind ▸ hold)]
            simp only [if_neg hproject, hspec, withCreated]

end Shown

end KeyedTeam

/-- Whether an answered request has written the state. -/
def savesState (now : Instant) (s : TeamState) : Request → Response → Bool
  | _, .error .. => false
  | .runtimeStatus _, .ok _ => hasExpiredRuntimeLeaseLocked s now
  | _, .ok (.replayed _) => false
  | _, .ok (.commands []) => false
  | _, .ok _ => true

/-- The clock, the state in memory and the state that a restart would read. -/
structure KeyedWorld where
  now : Instant
  live : KeyedTeam
  stored : KeyedTeam

/-- A request, or a restart after some time. -/
inductive KeyedInput where
  | request (i : Input)
  | restart (downtime : Nat)

namespace KeyedWorld

/-- A server at an instant, with nothing stored. -/
def start (now : Instant) : KeyedWorld := ⟨now, .empty, .empty⟩

/-- The answer to a request. -/
def answer (env : Env) (w : KeyedWorld) (i : Input) : KeyedTeam × Response :=
  w.live.handle env (w.now + i.advance) i.failure i.request

def respond (env : Env) (w : KeyedWorld) (i : Input) : Response := (w.answer env i).2

/-- The world once a request is answered. -/
def answered (w : KeyedWorld) (i : Input) (result : KeyedTeam × Response) : KeyedWorld where
  now := w.now + i.advance
  live := result.1
  stored :=
    if savesState (w.now + i.advance) w.live.team i.request result.2 then result.1.reread
    else w.stored

def next (env : Env) (w : KeyedWorld) : KeyedInput → KeyedWorld
  | .request i => w.answered i (w.answer env i)
  | .restart downtime => { w with now := w.now + downtime + 1, live := w.stored }

theorem next_request_live (env : Env) (w : KeyedWorld) (i : Input) :
    (w.next env (.request i)).live = (w.answer env i).1 := rfl

end KeyedWorld

/-! ## Identifiers over restarts -/

theorem teamNewID_inj_now {word : String} {now now' n : Nat}
    (h : teamNewID word now n = teamNewID word now' n) : now = now' := by
  have hlist := congrArg String.toList h
  simp only [teamNewID, String.toList_append, List.append_cancel_right_eq,
    List.append_cancel_left_eq] at hlist
  have hvalue := congrArg (fun l => Nat.ofDigitChars 10 l 0) hlist
  simpa [Nat.ofDigitChars_ten_toDigits] using hvalue

/-- The identifier was made earlier, or now with a value of the counter up to `n`. -/
def Stamped (now n : Nat) (id : String) : Prop :=
  ∃ t k : Nat, (t < now ∨ t = now ∧ k ≤ n) ∧ id = teamNewID "task" t k

theorem Stamped.mono {now now' n n' : Nat} {id : String} (h : Stamped now n id)
    (hnow : now ≤ now') (hn : n ≤ n') : Stamped now' n' id := by
  obtain ⟨t, k, htk, rfl⟩ := h
  exact ⟨t, k, by omega, rfl⟩

/-- A restart takes time, so the counter may start again. -/
theorem Stamped.later {now now' n n' : Nat} {id : String} (h : Stamped now n id)
    (hnow : now < now') : Stamped now' n' id := by
  obtain ⟨t, k, htk, rfl⟩ := h
  exact ⟨t, k, by omega, rfl⟩

theorem Stamped.ne_teamNewID {now now' n : Nat} {id : String} (h : Stamped now n id)
    (hnow : now ≤ now') : id ≠ teamNewID "task" now' (n + 1) := by
  obtain ⟨t, k, htk, rfl⟩ := h
  intro heq
  obtain rfl := teamNewID_inj heq
  have := teamNewID_inj_now heq
  omega

/-- The tasks can be told apart, also from the next one. -/
structure Apart (now : Instant) (s : TeamState) : Prop where
  nodup : (s.assignments.map Assignment.taskId).Nodup
  stamped : ∀ a ∈ s.assignments, Stamped now s.idCounter a.taskId

section Apart
variable {now now' : Nat} {s s' : TeamState}

theorem apart_empty : Apart now .empty where
  nodup := List.nodup_nil
  stamped := by simp [TeamState.assignments, TeamState.empty]

theorem Apart.kept (h : Apart now s) (hassignments : s'.assignments = s.assignments)
    (hnow : now ≤ now') (hcounter : s.idCounter ≤ s'.idCounter) : Apart now' s' where
  nodup := hassignments ▸ h.nodup
  stamped a ha := (h.stamped a (hassignments ▸ ha)).mono hnow hcounter

theorem Apart.restarted (h : Apart now s) (hassignments : s'.assignments = s.assignments)
    (hnow : now < now') : Apart now' s' where
  nodup := hassignments ▸ h.nodup
  stamped a ha := (h.stamped a (hassignments ▸ ha)).later hnow

theorem Apart.created (h : Apart now s) {a : Assignment} (hnow : now ≤ now')
    (hid : a.taskId = teamNewID "task" now' (s.idCounter + 1))
    (hassignments : s'.assignments = s.assignments ++ [a]) (hcounter : s.idCounter < s'.idCounter) :
    Apart now' s' where
  nodup := by
    rw [hassignments, List.map_append]
    refine h.nodup.append (List.nodup_singleton _) ?_
    intro id hmem ha
    obtain ⟨b, hb, rfl⟩ := List.mem_map.mp hmem
    exact (h.stamped b hb).ne_teamNewID hnow ((List.mem_singleton.mp ha).trans hid)
  stamped b hb := by
    rw [hassignments] at hb
    rcases List.mem_append.mp hb with hb | hb
    · exact (h.stamped b hb).mono hnow hcounter.le
    · rw [List.mem_singleton.mp hb, hid]
      exact ⟨now', s.idCounter + 1, .inr ⟨rfl, hcounter⟩, rfl⟩

end Apart

/-! ## What a request does to the keys -/

/-- What a request leaves: the old assignments and keys, or one more of each. -/
inductive KeyedEffect (now : Instant) (st : KeyedTeam) (request : Request) :
    KeyedTeam × Response → Prop
  | kept {st' response} (hassignments : st'.team.assignments = st.team.assignments)
      (hkeys : st'.keys = st.keys) (hcounter : st.team.idCounter ≤ st'.team.idCounter) :
      KeyedEffect now st request (st', response)
  | created {st' project body task dispatch} (hrequest : request = .taskCreate project body)
      (hid : task.taskId = teamNewID "task" now (st.team.idCounter + 1))
      (hassignments : st'.team.assignments = st.team.assignments ++ [task.assignment])
      (hkeys : st'.keys = st.keys ++ [clientKey body])
      (hcounter : st.team.idCounter < st'.team.idCounter) :
      KeyedEffect now st request (st', .ok (.created task dispatch))

section Effects
variable (env : Env) (now : Instant) (failure : Option String)

theorem newTeamTask_projectId (s : TeamState) (projectID : String) (spec : TaskSpec) :
    (newTeamTask env s now projectID spec).projectId = projectID := rfl

theorem newTeamTask_taskId (s : TeamState) (projectID : String) (spec : TaskSpec) :
    (newTeamTask env s now projectID spec).taskId = teamNewID "task" now (s.idCounter + 1) := rfl

theorem storeNewTask_teamTasks (s : TeamState) (projectID : String) (task : TeamTask) :
    (storeNewTask s now projectID task).1.teamTasks = s.teamTasks ++ [task] := by
  simp only [storeNewTask]
  split <;> simp

/-- A creation is refused or fails without a new task, or stores one. -/
theorem createTask_cases (s : TeamState) (projectID : String) (spec : TaskSpec) :
    ((createTask env now failure s projectID spec).2.isOk = false ∧
      (createTask env now failure s projectID spec).1.teamTasks = s.teamTasks ∧
      s.idCounter ≤ (createTask env now failure s projectID spec).1.idCounter) ∨
    ∃ dispatch, (createTask env now failure s projectID spec).2 =
        .ok (.created (newTeamTask env s now projectID spec) dispatch) ∧
      (createTask env now failure s projectID spec).1.teamTasks =
        s.teamTasks ++ [newTeamTask env s now projectID spec] ∧
      s.idCounter < (createTask env now failure s projectID spec).1.idCounter := by
  simp only [createTask]
  split_ifs
  · exact .inl ⟨rfl, rfl, le_rfl⟩
  · split
    · exact .inl ⟨rfl, rfl, Nat.le_succ _⟩
    · have hcounter := lt_storeNewTask_idCounter now s projectID
        (newTeamTask env s now projectID spec)
      rcases commitTeamState_cases s
          (storeNewTask s now projectID (newTeamTask env s now projectID spec)).1 failure
          "TASK_SAVE_FAILED" (.created (newTeamTask env s now projectID spec)
            (dispatchStatus (newTeamTask env s now projectID spec).status
              (storeNewTask s now projectID (newTeamTask env s now projectID spec)).2)) with
        h | ⟨message, h⟩
      · rw [h]
        exact .inr ⟨_, rfl, storeNewTask_teamTasks now s projectID _, hcounter⟩
      · rw [h]
        exact .inl ⟨rfl, rfl, hcounter.le⟩

theorem KeyedTeam.handle_effect (st : KeyedTeam) (request : Request) :
    KeyedEffect now st request (st.handle env now failure request) := by
  have hother (request : Request)
      (hrequest : ∀ project body, request ≠ .taskCreate project body) :
      KeyedEffect now st request
        (⟨(AgentTeam.handle env now failure st.team request).1, st.keys⟩,
          (AgentTeam.handle env now failure st.team request).2) :=
    have heffect := AgentTeam.handle_effect env now failure st.team request
    .kept (heffect.assignments_kept hrequest) rfl heffect.idCounter_le
  cases request with
  | taskCreate project body =>
      simp only [handle, handleProjectTaskCreate]
      split_ifs
      · exact .kept rfl rfl le_rfl
      · split
        · exact .kept rfl rfl le_rfl
        · rename_i spec _
          split
          · exact .kept rfl rfl le_rfl
          · rcases createTask_cases env now failure st.team (validTeamID project) spec with
              ⟨herror, htasks, hcounter⟩ | ⟨dispatch, hcreated, htasks, hcounter⟩
            · rw [withCreated, herror]
              exact .kept (congrArg (List.map TeamTask.assignment) htasks) rfl hcounter
            · rw [withCreated, hcreated]
              refine .created rfl rfl ?_ rfl hcounter
              rw [TeamState.assignments, htasks, List.map_append]
              rfl
  | _ => exact hother _ (by simp)

end Effects

/-! ## Reachable states -/

/-- The keys that the handler stores, before and after a restart. -/
def StoredKey (k : Runes) : Prop := Runes.Whole k ∨ ∃ key, k = boundedKey key

theorem StoredKey.reread_iff {k u : Runes} (h : StoredKey k) (hu : Runes.Whole u)
    (hsize : Runes.byteSize u ≤ keyLimit) :
    Runes.trim isSpace (Runes.throughJson k) = u ↔ Runes.trim isSpace k = u := by
  rcases h with h | ⟨key, rfl⟩
  · rw [h]
  · exact Runes.reread_iff isSpace (by decide) (Runes.whole_ofText key) hu hsize

/-- What every reachable state is like: tasks that can be told apart, one key
for each, and what is stored differs in nothing but the stray bytes. -/
structure KeyedWorld.Consistent (w : KeyedWorld) : Prop where
  apart : Apart w.now w.live.team
  length : w.live.keys.length = w.live.team.assignments.length
  keys : ∀ k ∈ w.live.keys, StoredKey k
  storedAssignments : w.stored.team.assignments = w.live.team.assignments
  storedKeys : w.stored.keys = w.live.keys.map Runes.throughJson

namespace KeyedWorld

theorem consistent_start (now : Instant) : (start now).Consistent where
  apart := apart_empty
  length := rfl
  keys := by simp [start, KeyedTeam.empty]
  storedAssignments := rfl
  storedKeys := rfl

variable {env : Env} {w : KeyedWorld}

theorem Consistent.answered (h : w.Consistent) (i : Input) {result : KeyedTeam × Response}
    (heffect : KeyedEffect (w.now + i.advance) w.live i.request result) :
    (w.answered i result).Consistent := by
  have hnow : w.now ≤ w.now + i.advance := Nat.le_add_right ..
  cases heffect with
  | kept hassignments hkeys hcounter =>
      exact {
        apart := h.apart.kept hassignments hnow hcounter
        length := by
          simp only [KeyedWorld.answered, hkeys, hassignments, h.length]
        keys := by
          simp only [KeyedWorld.answered, hkeys]
          exact h.keys
        storedAssignments := by
          simp only [KeyedWorld.answered]
          split_ifs
          · rfl
          · rw [h.storedAssignments, hassignments]
        storedKeys := by
          simp only [KeyedWorld.answered]
          split_ifs
          · rfl
          · rw [h.storedKeys, hkeys] }
  | @created st' project body task dispatch hrequest hid hassignments hkeys hcounter =>
      have hsaves : savesState (w.now + i.advance) w.live.team i.request
          (.ok (.created task dispatch)) = true := by rw [hrequest]; rfl
      have hstored : (w.answered i (st', .ok (.created task dispatch))).stored = st'.reread := by
        simp only [KeyedWorld.answered, hsaves, if_true]
      exact {
        apart := h.apart.created hnow hid hassignments hcounter
        length := by
          simp only [KeyedWorld.answered, hkeys, hassignments, List.length_append, h.length,
            List.length_singleton]
        keys := by
          intro k hk
          simp only [KeyedWorld.answered, hkeys] at hk
          rcases List.mem_append.mp hk with hk | hk
          · exact h.keys k hk
          · exact .inr ⟨requestKey body, List.mem_singleton.mp hk⟩
        storedAssignments := by rw [hstored]; rfl
        storedKeys := by rw [hstored]; rfl }

theorem Consistent.next (h : w.Consistent) (i : KeyedInput) : (w.next env i).Consistent := by
  cases i with
  | restart downtime =>
      exact {
        apart := h.apart.restarted h.storedAssignments (Nat.lt_succ_of_le (Nat.le_add_right ..))
        length := by
          simp only [KeyedWorld.next, h.storedAssignments, h.storedKeys, List.length_map]
          exact h.length
        keys := by
          intro k hk
          simp only [KeyedWorld.next, h.storedKeys] at hk
          obtain ⟨old, -, rfl⟩ := List.mem_map.mp hk
          exact .inl (Runes.whole_throughJson old)
        storedAssignments := rfl
        storedKeys := by
          simp only [KeyedWorld.next, h.storedKeys, List.map_map]
          exact List.map_congr_left fun k _ => (Runes.whole_throughJson k).symm }
  | request i =>
      exact h.answered i
        (KeyedTeam.handle_effect env (w.now + i.advance) i.failure w.live i.request)

end KeyedWorld

/-! ## Finding the task of a key -/

/-- The assignments with their keys. -/
def KeyedTeam.entries (st : KeyedTeam) : List (Assignment × Runes) :=
  st.team.assignments.zip st.keys

/-- Whether an entry is a task of the project with the key. -/
def carries (projectID : String) (key : Runes) (entry : Assignment × Runes) : Bool :=
  entry.1.projectId = projectID ∧ key ≠ [] ∧ Runes.trim isSpace entry.2 = key

theorem KeyedTeam.map_find (st : KeyedTeam) (projectID : String) (key : Runes) :
    (st.find projectID key).map TeamTask.assignment =
      (st.entries.find? (carries projectID key)).map Prod.fst := by
  simp only [find, entries, TeamState.assignments, List.zip_map_left, List.find?_map,
    Option.map_map]
  rfl

/-- The task that a key finds, by its identifier. -/
def KeyedTeam.findID (st : KeyedTeam) (projectID : String) (key : Runes) : Option String :=
  (st.find projectID key).map TeamTask.taskId

theorem KeyedTeam.findID_eq (st : KeyedTeam) (projectID : String) (key : Runes) :
    st.findID projectID key =
      (st.entries.find? (carries projectID key)).map fun entry => entry.1.taskId := by
  have h := congrArg (Option.map Assignment.taskId) (st.map_find projectID key)
  rw [Option.map_map, Option.map_map] at h
  exact h

namespace KeyedWorld

variable {env : Env} {w : KeyedWorld} {projectID id : String} {key : Runes}

/-- A whole key within the limit keeps finding its task. -/
theorem Consistent.next_findID (h : w.Consistent) (hwhole : Runes.Whole key)
    (hsize : Runes.byteSize key ≤ keyLimit) (i : KeyedInput)
    (hfind : w.live.findID projectID key = some id) :
    (w.next env i).live.findID projectID key = some id := by
  rw [KeyedTeam.findID_eq] at hfind ⊢
  cases i with
  | restart downtime =>
      have hentries : (w.next env (.restart downtime)).live.entries =
          w.live.entries.map fun entry => (entry.1, Runes.throughJson entry.2) := by
        simp only [KeyedWorld.next, KeyedTeam.entries, h.storedAssignments, h.storedKeys,
          List.zip_map_right]
        rfl
      rw [hentries, List.find?_map, Option.map_map, ← hfind]
      refine congrArg (Option.map _) (List.find?_congr ?_)
      rintro ⟨a, k⟩ hmem
      have hk := (h.keys k (List.of_mem_zip hmem).2).reread_iff hwhole hsize
      simp only [carries, Function.comp_apply, hk]
  | request i =>
      have heffect := KeyedTeam.handle_effect env (w.now + i.advance) i.failure w.live i.request
      change ((w.answer env i).1.entries.find? _).map _ = _
      rw [answer]
      generalize w.live.handle env (w.now + i.advance) i.failure i.request = result at heffect ⊢
      cases heffect with
      | kept hassignments hkeys hcounter =>
          simpa only [KeyedTeam.entries, hassignments, hkeys] using hfind
      | created hrequest hid hassignments hkeys hcounter =>
          rw [KeyedTeam.entries] at hfind
          obtain ⟨entry, hentry, hid⟩ := Option.map_eq_some_iff.mp hfind
          rw [KeyedTeam.entries, hassignments, hkeys, List.zip_append h.length.symm,
            List.find?_append, hentry]
          exact congrArg some hid

theorem Consistent.run_findID (h : w.Consistent) (hwhole : Runes.Whole key)
    (hsize : Runes.byteSize key ≤ keyLimit) (inputs : List KeyedInput)
    (hfind : w.live.findID projectID key = some id) :
    (run (KeyedWorld.next env) w inputs).live.findID projectID key = some id :=
  (run_preserves
    (P := fun w : KeyedWorld => w.Consistent ∧ w.live.findID projectID key = some id)
    (fun _ i h => ⟨h.1.next i, h.1.next_findID hwhole hsize i h.2⟩) ⟨h, hfind⟩ inputs).2

theorem Consistent.stamped_of_findID (h : w.Consistent)
    (hfind : w.live.findID projectID key = some id) : Stamped w.now w.live.team.idCounter id := by
  rw [KeyedTeam.findID_eq, Option.map_eq_some_iff] at hfind
  obtain ⟨entry, hentry, rfl⟩ := hfind
  have hmem := List.mem_of_find?_eq_some hentry
  exact h.apart.stamped entry.1 (List.of_mem_zip (show (entry.1, entry.2) ∈ _ from hmem)).1

/-- Two keys find different tasks. -/
theorem Consistent.findID_ne (h : w.Consistent) {key' : Runes} {id' : String} (hne : key' ≠ key)
    (hfind : w.live.findID projectID key = some id)
    (hfind' : w.live.findID projectID key' = some id') : id' ≠ id := by
  rw [KeyedTeam.findID_eq, Option.map_eq_some_iff] at hfind hfind'
  obtain ⟨entry, hentry, rfl⟩ := hfind
  obtain ⟨entry', hentry', rfl⟩ := hfind'
  have hnodup : (w.live.entries.map fun entry => entry.1.taskId).Nodup := by
    have hfst : w.live.entries.map Prod.fst = w.live.team.assignments :=
      List.map_fst_zip h.length.ge
    have hids := h.apart.nodup
    rw [← hfst, List.map_map] at hids
    exact hids
  intro hid
  have heq : entry' = entry := List.inj_on_of_nodup_map hnodup
    (List.mem_of_find?_eq_some hentry') (List.mem_of_find?_eq_some hentry) hid
  have hkey := List.find?_some hentry
  have hkey' := List.find?_some hentry'
  simp only [carries, decide_eq_true_eq] at hkey hkey'
  exact hne (hkey'.2.2.symm.trans (heq ▸ hkey.2.2))

end KeyedWorld

/-! ## Two creations in one project -/

/-- The task that a creation is answered with. -/
def Response.madeTask : Response → Option TeamTask
  | .ok (.created task _) => some task
  | .ok (.replayed task) => some task
  | _ => none

/-- A creation request. -/
structure Creation where
  advance : Nat
  failure : Option String
  project : String
  body : Fields

def Creation.input (c : Creation) : Input :=
  ⟨c.advance, c.failure, .taskCreate c.project c.body⟩

/-- The checks of a creation that do not look at its key, and a save that succeeds. -/
structure Creation.Validated (env : Env) (w : KeyedWorld) (c : Creation) (spec : TaskSpec) :
    Prop where
  fields : taskSpec c.body = .ok spec
  tasks : w.live.team.teamTasks.countP (fun old => old.projectId = validTeamID c.project) <
    teamTaskLimit
  commands : pendingTeamCommandsLocked w.live.team (validTeamID c.project) <
    teamPendingCommandLimit
  dependencies : validateTeamDependenciesLocked w.live.team (validTeamID c.project)
    (newTeamTask env w.live.team (w.now + c.advance) (validTeamID c.project) spec).taskId
    spec.dependencies = none
  saved : c.failure = none

section Creations
variable {env : Env} {w : KeyedWorld} {c : Creation} {spec : TaskSpec} {old task : TeamTask}

theorem Creation.answer_replayed (hproject : validTeamID c.project ≠ "")
    (hspec : taskSpec c.body = .ok spec)
    (hfind : w.live.find (validTeamID c.project) (clientKey c.body) = some old) :
    w.answer env c.input = (w.live, .ok (.replayed old)) := by
  simp only [KeyedWorld.answer, Creation.input, KeyedTeam.handle,
    KeyedTeam.handleProjectTaskCreate, if_neg hproject, hspec, hfind]

theorem Creation.answer_created (hproject : validTeamID c.project ≠ "")
    (hspec : taskSpec c.body = .ok spec)
    (hfind : w.live.find (validTeamID c.project) (clientKey c.body) = none) :
    w.answer env c.input = w.live.withCreated (clientKey c.body)
      (createTask env (w.now + c.advance) c.failure w.live.team (validTeamID c.project) spec) := by
  simp only [KeyedWorld.answer, Creation.input, KeyedTeam.handle,
    KeyedTeam.handleProjectTaskCreate, if_neg hproject, hspec, hfind]

/-- A creation that is answered with a task passed the checks on its fields. -/
theorem Creation.of_madeTask (h : (w.respond env c.input).madeTask = some task) :
    validTeamID c.project ≠ "" ∧ ∃ spec, taskSpec c.body = .ok spec := by
  simp only [KeyedWorld.respond, KeyedWorld.answer, Creation.input, KeyedTeam.handle,
    KeyedTeam.handleProjectTaskCreate] at h
  split_ifs at h with hproject
  · cases h
  · refine ⟨hproject, ?_⟩
    cases hspec : taskSpec c.body with
    | error response =>
        rw [hspec] at h
        have herror := taskSpec_error c.body hspec
        cases response with
        | ok reply => cases herror
        | error status code message => cases h
    | ok spec => exact ⟨spec, rfl⟩

/-- The stored key of a new task is the one that finds it. -/
theorem findID_withCreated {st : KeyedTeam} {created : TeamState × Response}
    {projectID : String} {key : Runes} (hlength : st.keys.length = st.team.teamTasks.length)
    (hfind : st.find projectID key = none)
    (htasks : created.1.teamTasks = st.team.teamTasks ++ [task])
    (hproject : task.projectId = projectID) (hkey : key ≠ [])
    (hown : Runes.trim isSpace key = key) (hok : created.2.isOk = true) :
    (st.withCreated key created).1.findID projectID key = some task.taskId := by
  rw [KeyedTeam.find, Option.map_eq_none_iff] at hfind
  simp only [KeyedTeam.withCreated, KeyedTeam.findID, KeyedTeam.find, htasks, hok, if_true,
    List.zip_append hlength.symm, List.find?_append, hfind, Option.none_or, List.zip_cons_cons,
    List.zip_nil_right, List.find?_singleton, hproject, hown]
  simp [hkey]

/-- A task is answered with once it is found under the key of the request. -/
theorem Creation.findID_of_madeTask (hw : w.Consistent) (hkey : requestKey c.body ≠ "")
    (hsettled : SettledKey (requestKey c.body))
    (h : (w.respond env c.input).madeTask = some task) :
    (w.next env (.request c.input)).live.findID (validTeamID c.project) (clientKey c.body) =
      some task.taskId := by
  obtain ⟨hproject, spec, hspec⟩ := Creation.of_madeTask h
  rw [KeyedWorld.next_request_live]
  rw [KeyedWorld.respond] at h
  cases hfind : w.live.find (validTeamID c.project) (clientKey c.body) with
  | some old =>
      rw [Creation.answer_replayed hproject hspec hfind] at h ⊢
      obtain rfl : old = task := by simpa [Response.madeTask] using h
      simp only [KeyedTeam.findID, hfind, Option.map_some]
  | none =>
      rw [Creation.answer_created hproject hspec hfind] at h ⊢
      have hcases := createTask_cases env (w.now + c.advance) c.failure w.live.team
        (validTeamID c.project) spec
      have hprojectId := newTeamTask_projectId env (w.now + c.advance) w.live.team
        (validTeamID c.project) spec
      generalize newTeamTask env w.live.team (w.now + c.advance) (validTeamID c.project) spec =
        new at hcases hprojectId
      generalize createTask env (w.now + c.advance) c.failure w.live.team (validTeamID c.project)
        spec = created at hcases h ⊢
      obtain ⟨s', response⟩ := created
      rcases hcases with ⟨herror, -, -⟩ | ⟨dispatch, hcreated, htasks, -⟩
      · cases response with
        | ok reply => cases herror
        | error status code message => cases h
      · obtain rfl : response = _ := hcreated
        obtain rfl : new = task := Option.some.inj h
        have hlength : w.live.keys.length = w.live.team.teamTasks.length := by
          rw [hw.length, TeamState.assignments, List.length_map]
        exact findID_withCreated hlength hfind htasks hprojectId (clientKey_ne_nil hkey)
          (trim_clientKey hsettled) rfl

/-- A creation with the key of a task is answered with that task. -/
theorem Creation.same_key {key : Runes} (hproject : validTeamID c.project ≠ "")
    (hkey : clientKey c.body = key)
    (hfound : w.live.findID (validTeamID c.project) key = some task.taskId) :
    (w.next env (.request c.input)).live = w.live ∧
      ∀ spec, taskSpec c.body = .ok spec →
        ∃ old, old.taskId = task.taskId ∧ w.respond env c.input = .ok (.replayed old) := by
  subst hkey
  obtain ⟨old, hold, hid⟩ := Option.map_eq_some_iff.mp hfound
  rw [KeyedWorld.next_request_live, KeyedWorld.respond]
  cases hspec : taskSpec c.body with
  | error response =>
      refine ⟨?_, fun spec hok => by cases hok⟩
      simp only [KeyedWorld.answer, Creation.input, KeyedTeam.handle,
        KeyedTeam.handleProjectTaskCreate, if_neg hproject, hspec]
  | ok spec =>
      rw [Creation.answer_replayed hproject hspec hold]
      exact ⟨rfl, fun _ _ => ⟨old, hid, rfl⟩⟩

/-- A creation with another key is answered with another task. -/
theorem Creation.other_key {key : Runes} (hw : w.Consistent) (hne : clientKey c.body ≠ key)
    (hfound : w.live.findID (validTeamID c.project) key = some task.taskId) {other : TeamTask}
    (h : (w.respond env c.input).madeTask = some other) : other.taskId ≠ task.taskId := by
  obtain ⟨hproject, spec, hspec⟩ := Creation.of_madeTask h
  rw [KeyedWorld.respond] at h
  cases hfind : w.live.find (validTeamID c.project) (clientKey c.body) with
  | some old =>
      rw [Creation.answer_replayed hproject hspec hfind] at h
      obtain rfl : old = other := Option.some.inj h
      refine hw.findID_ne hne hfound ?_
      rw [KeyedTeam.findID, hfind, Option.map_some]
  | none =>
      rw [Creation.answer_created hproject hspec hfind] at h
      have hcases := createTask_cases env (w.now + c.advance) c.failure w.live.team
        (validTeamID c.project) spec
      have hid := newTeamTask_taskId env (w.now + c.advance) w.live.team
        (validTeamID c.project) spec
      generalize newTeamTask env w.live.team (w.now + c.advance) (validTeamID c.project) spec =
        new at hcases hid
      generalize createTask env (w.now + c.advance) c.failure w.live.team (validTeamID c.project)
        spec = created at hcases h
      obtain ⟨s', response⟩ := created
      rcases hcases with ⟨herror, -, -⟩ | ⟨dispatch, hcreated, -, -⟩
      · cases response with
        | ok reply => cases herror
        | error status code message => cases h
      · obtain rfl : response = _ := hcreated
        obtain rfl : new = other := Option.some.inj h
        rw [hid]
        exact (hw.stamped_of_findID hfound).ne_teamNewID (Nat.le_add_right ..) |>.symm

/-- A creation that passes the checks is answered with a task. -/
theorem Creation.Validated.madeTask (h : c.Validated env w spec)
    (hproject : validTeamID c.project ≠ "") :
    ((w.respond env c.input).madeTask).isSome := by
  rw [KeyedWorld.respond]
  cases hfind : w.live.find (validTeamID c.project) (clientKey c.body) with
  | some old =>
      rw [Creation.answer_replayed hproject h.fields hfind]
      rfl
  | none =>
      rw [Creation.answer_created hproject h.fields hfind]
      have hlimits : ¬(teamTaskLimit ≤
          w.live.team.teamTasks.countP (fun old => old.projectId = validTeamID c.project) ∨
          teamPendingCommandLimit ≤
            pendingTeamCommandsLocked w.live.team (validTeamID c.project)) := by
        have htasks := h.tasks
        have hcommands := h.commands
        omega
      simp only [createTask, if_neg hlimits, h.dependencies, h.saved, KeyedTeam.withCreated]
      rfl

end Creations

/-- The world when the second of two creations arrives. -/
def secondAt (env : Env) (w : KeyedWorld) (first : Creation) (between : List KeyedInput) :
    KeyedWorld := run (KeyedWorld.next env) (w.next env (.request first.input)) between

/-- Of two creations in a project, the first one answered with a task under a
settled key: one with the same key is answered with that task and changes
nothing; one whose key differs in what is compared is never answered with that
task, and is answered with one when it passes the checks. Any requests and
restarts may come before and between. -/
theorem one_task_per_key (env : Env) (now : Instant) (before between : List KeyedInput)
    (first second : Creation) (task : TeamTask)
    (hproject : validTeamID second.project = validTeamID first.project)
    (hkey : requestKey first.body ≠ "") (hsettled : SettledKey (requestKey first.body))
    (hfirst : ((run (KeyedWorld.next env) (.start now) before).respond env
      first.input).madeTask = some task) :
    let w := secondAt env (run (KeyedWorld.next env) (.start now) before) first between
    (requestKey second.body = requestKey first.body →
      (w.next env (.request second.input)).live = w.live ∧
      ∀ spec, taskSpec second.body = .ok spec →
        ∃ old, old.taskId = task.taskId ∧ w.respond env second.input = .ok (.replayed old)) ∧
    (clientKey second.body ≠ clientKey first.body →
      (∀ other, (w.respond env second.input).madeTask = some other →
        other.taskId ≠ task.taskId) ∧
      ∀ spec, second.Validated env w spec →
        ((w.respond env second.input).madeTask).isSome) := by
  have hstart : (run (KeyedWorld.next env) (.start now) before).Consistent :=
    run_preserves (P := KeyedWorld.Consistent) (fun _ i h => h.next i)
      (KeyedWorld.consistent_start now) before
  generalize run (KeyedWorld.next env) (.start now) before = w₀ at hfirst hstart ⊢
  have hnext : (w₀.next env (.request first.input)).Consistent := hstart.next _
  have hw : (secondAt env w₀ first between).Consistent :=
    run_preserves (P := KeyedWorld.Consistent) (fun _ i h => h.next i) hnext between
  have hfound : (secondAt env w₀ first between).live.findID (validTeamID first.project)
      (clientKey first.body) = some task.taskId :=
    hnext.run_findID (whole_boundedKey hsettled) (byteSize_boundedKey_le _) between
      (Creation.findID_of_madeTask hstart hkey hsettled hfirst)
  obtain ⟨hnonempty, -⟩ := Creation.of_madeTask hfirst
  rw [← hproject] at hfound hnonempty
  generalize secondAt env w₀ first between = w at hw hfound ⊢
  constructor
  · intro hsame
    have hclient : clientKey second.body = clientKey first.body := by
      rw [clientKey, clientKey, hsame]
    exact Creation.same_key hnonempty hclient hfound
  · intro hne
    exact ⟨fun other hother => Creation.other_key hw hne hfound hother,
      fun spec hvalid => hvalid.madeTask hnonempty⟩

section Examples

/-- A creation in one project that differs from others in its key only. -/
def keyedCreation (key : String) : Creation where
  advance := 1
  failure := none
  project := "p"
  body := [("title", .str "t"), ("instruction", .str "i"), ("idempotencyKey", .str key)]

theorem keyedCreation_first :
    ((KeyedWorld.start 0).respond .default (keyedCreation "k").input).madeTask.map
      TeamTask.taskId = some "task-1-1" := by decide +kernel

/-- A key repeated after a restart. -/
theorem repeated_key_replayed :
    let w := secondAt .default (.start 0) (keyedCreation "k") [.restart 5]
    (w.next .default (.request (keyedCreation "k").input)).live = w.live ∧
      ∃ old, old.taskId = "task-1-1" ∧
        w.respond .default (keyedCreation "k").input = .ok (.replayed old) := by
  obtain ⟨task, htask, hid⟩ := Option.map_eq_some_iff.mp keyedCreation_first
  have hspec : ∃ spec, taskSpec (keyedCreation "k").body = .ok spec := ⟨_, rfl⟩
  obtain ⟨spec, hspec⟩ := hspec
  obtain ⟨hlive, hreplayed⟩ := (one_task_per_key .default 0 [] [.restart 5] (keyedCreation "k")
    (keyedCreation "k") task rfl (by decide) (by decide) htask).1 rfl
  obtain ⟨old, hold, hrespond⟩ := hreplayed spec hspec
  exact ⟨hlive, old, hold.trans hid, hrespond⟩

/-- A key that differs in white space only is the same key. -/
theorem padded_key_same_task :
    ¬∀ key key' : String, key ≠ key' → ∀ task other : TeamTask,
      ((KeyedWorld.start 0).respond .default (keyedCreation key).input).madeTask = some task →
      ((secondAt .default (.start 0) (keyedCreation key) []).respond .default
        (keyedCreation key').input).madeTask = some other →
      other.taskId ≠ task.taskId := by
  intro h
  have hpadded : ((secondAt .default (.start 0) (keyedCreation "k") []).respond .default
      (keyedCreation " k").input).madeTask.map TeamTask.taskId = some "task-1-1" := by
    decide +kernel
  obtain ⟨task, htask, hid⟩ := Option.map_eq_some_iff.mp keyedCreation_first
  obtain ⟨other, hother, hid'⟩ := Option.map_eq_some_iff.mp hpadded
  exact h "k" " k" (by decide) task other htask hother (hid'.trans hid.symm)

end Examples

end WorkMesh.AgentTeam
