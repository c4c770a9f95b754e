import WorkMesh.Link.ServerAuth
import WorkMesh.StateMachine.Run

/-!
# Replays of signed requests

Whoever has seen a signed request can send it again, under any other headers and
at any time. The server takes it for a new one when the node in its header is
another, since the signature does not cover the node, and when a reading of the
clock has passed the expiry of the nonce while the timestamp is still fresh.
-/

namespace WorkMesh.Link

open Encoding StateMachine

/-- The bytes of the signature, in whichever of the accepted spellings it is sent. -/
def Request.signatureBytes (r : Request) : Option Bytes :=
  let got := trimSpace r.signature
  hexDecode got <|> rawURLDecode got <|> stdDecode got

/-- What a signature covers, with the signature. -/
structure SignedTuple where
  method : Bytes
  path : Bytes
  timestamp : Bytes
  nonce : Bytes
  body : Bytes
  signature : Option Bytes

def Request.tuple (r : Request) : SignedTuple where
  method := r.method
  path := r.requestURI
  timestamp := r.timestamp
  nonce := r.nonce
  body := r.body
  signature := r.signatureBytes

/-- A request that is authenticated at a reading of the clock. -/
structure Visit where
  request : Request
  now : Time

/-- A server together with the requests it has accepted and the visits that came
as far as the nonce, with their verdicts. The latest stand first. -/
structure Observed where
  server : Server
  accepted : List Request
  presented : List (Visit × Bool)

def observe (o : Observed) (v : Visit) : Observed :=
  let (server, answer) := authenticate o.server v.request v.now
  { server
    accepted := if answer.isOk then v.request :: o.accepted else o.accepted
    presented :=
      if (checkRequest o.server.options v.request v.now).isOk then
        (v, answer.isOk) :: o.presented
      else o.presented }

def Observed.start (options : ServerOptions) : Observed := ⟨newServer options, [], []⟩

/-- How a visit uses the table of nonces. -/
def visits (options : ServerOptions) : Presentation Visit Bytes Time where
  key v := v.request.nodeID ++ bytes ":" ++ v.request.nonce
  now v := v.now
  expires v := v.now.add options.nonceTTL

/-- A genuine visit presents again what an earlier visit was accepted with. The
visits since then are `later`. -/
def Repeats (o : Observed) (v first : Visit) (later : List (Visit × Bool)) : Prop :=
  Genuine o.server.options v.request v.now ∧ v.request.tuple = first.request.tuple ∧
    ∃ earlier, o.presented = later ++ (first, true) :: earlier

/-- The server has a secret, and what is presented again names the node that it
named before, while no reading has passed the expiry of its nonce. -/
structure Unreplayed (o : Observed) (v : Visit) : Prop where
  secret : o.server.options.secret ≠ []
  node : ∀ first later, Repeats o v first later → v.request.nodeID = first.request.nodeID
  remembered : ∀ first later, Repeats o v first later → ∀ x ∈ v :: later.map Prod.fst,
    (first.now.add o.server.options.nonceTTL).after x.now = true

section Step
variable {o : Observed} {v : Visit}

theorem observe_genuine (hsecret : o.server.options.secret ≠ [])
    (h : Genuine o.server.options v.request v.now) :
    observe o v =
      { server := { o.server with
          nonces := ((visits o.server.options).enter Time.after v o.server.nonces).1 }
        accepted :=
          if ((visits o.server.options).enter Time.after v o.server.nonces).2 then
            v.request :: o.accepted
          else o.accepted
        presented :=
          (v, ((visits o.server.options).enter Time.after v o.server.nonces).2) ::
            o.presented } := by
  have hkey := checkRequest_ok_iff.mpr ⟨h, rfl⟩
  have hverdict : ∀ b : Bool,
      (if b = true then Except.ok () else .error "链路 nonce 已使用").isOk = b := by
    intro b
    cases b <;> rfl
  simp only [observe, authenticate_checked hsecret hkey, hkey, hverdict]
  rfl

theorem observe_not_genuine (hsecret : o.server.options.secret ≠ [])
    (h : ¬Genuine o.server.options v.request v.now) : observe o v = o := by
  cases hcheck : checkRequest o.server.options v.request v.now with
  | ok key => exact absurd (checkRequest_ok_iff.mp hcheck).1 h
  | error err =>
      simp only [observe, authenticate_unchecked hsecret hcheck, hcheck]
      rfl

end Step

/-- A visit is put in front of the list, if it comes as far as the nonce. -/
theorem presented_observe (o : Observed) (v : Visit) :
    (observe o v).presented = o.presented ∨
      ∃ verdict, (observe o v).presented = (v, verdict) :: o.presented := by
  cases hcheck : checkRequest o.server.options v.request v.now with
  | error err => exact .inl (by simp only [observe, hcheck]; rfl)
  | ok key => exact .inr ⟨_, by simp only [observe, hcheck]; rfl⟩

/-- The table guards the nonces of the accepted requests, and no tuple was accepted twice. -/
structure Watched (o : Observed) : Prop where
  guarded : Guarded Time.after (visits o.server.options) o.server.nonces o.presented
  admitted : o.accepted.map Request.tuple = admittedTags (fun v => v.request.tuple) o.presented
  once : (o.accepted.map Request.tuple).Nodup

theorem watched_start (options : ServerOptions) : Watched (Observed.start options) :=
  ⟨guarded_nil, rfl, List.nodup_nil⟩

theorem Watched.next {o : Observed} (h : Watched o) {v : Visit} (hv : Unreplayed o v) :
    Watched (observe o v) := by
  by_cases hgenuine : Genuine o.server.options v.request v.now
  · have hrepeat : ∀ first later earlier, o.presented = later ++ (first, true) :: earlier →
        v.request.tuple = first.request.tuple →
          (visits o.server.options).key v = (visits o.server.options).key first ∧
            ∀ x ∈ v :: later.map Prod.fst,
              (first.now.add o.server.options.nonceTTL).after x.now = true := by
      intro first later earlier hsplit htuple
      have hrepeats : Repeats o v first later := ⟨hgenuine, htuple, earlier, hsplit⟩
      have hnonce : v.request.nonce = first.request.nonce := congrArg SignedTuple.nonce htuple
      refine ⟨?_, hv.remembered first later hrepeats⟩
      simp only [visits, hv.node first later hrepeats, hnonce]
    have honce := h.guarded.admit_once hrepeat (h.admitted ▸ h.once)
    have hadmitted : (observe o v).accepted.map Request.tuple =
        admittedTags (fun v => v.request.tuple)
          ((v, ((visits o.server.options).enter Time.after v o.server.nonces).2) ::
            o.presented) := by
      rw [observe_genuine hv.secret hgenuine, admittedTags, List.filter_cons]
      dsimp only
      split
      · rw [List.map_cons, List.map_cons, h.admitted, admittedTags]
      · exact h.admitted
    refine ⟨?_, ?_, hadmitted ▸ honce⟩
    · rw [observe_genuine hv.secret hgenuine]
      exact h.guarded.enter v
    · rw [hadmitted, observe_genuine hv.secret hgenuine]
  · rwa [observe_not_genuine hv.secret hgenuine]

/-- Under the condition no signed tuple is accepted twice. -/
theorem tuples_accepted_once (options : ServerOptions) (calls : List Visit)
    (h : Meets observe Unreplayed (Observed.start options) calls) :
    ((run observe (Observed.start options) calls).accepted.map Request.tuple).Nodup := by
  have hwatched : Watched (run observe (Observed.start options) calls) :=
    run_invariant (fun _ _ hw hv => hw.next hv) (watched_start options) h
  exact hwatched.once

theorem unreplayed_start {options : ServerOptions} (hsecret : options.secret ≠ []) (v : Visit) :
    Unreplayed (Observed.start options) v := by
  have hnone : ∀ first later, ¬Repeats (Observed.start options) v first later := by
    rintro first later ⟨-, -, earlier, hsplit⟩
    simp [Observed.start] at hsplit
  exact ⟨hsecret, fun _ _ h => absurd h (hnone _ _), fun _ _ h => absurd h (hnone _ _)⟩

/-- A second visit with the same request, before the nonce expires. -/
theorem unreplayed_next {options : ServerOptions} (hsecret : options.secret ≠ []) {v : Visit}
    {now : Time} (hexpires : (v.now.add (newServer options).options.nonceTTL).after now = true) :
    Unreplayed (observe (Observed.start options) v) ⟨v.request, now⟩ := by
  have hoptions : (observe (Observed.start options) v).server.options =
      (newServer options).options := authenticate_options
  have hfirst : ∀ {first later},
      Repeats (observe (Observed.start options) v) ⟨v.request, now⟩ first later →
        first = v ∧ later = [] := by
    rintro first later ⟨-, -, earlier, hsplit⟩
    rcases presented_observe (Observed.start options) v with hnone | ⟨verdict, hone⟩
    · rw [hnone] at hsplit
      simp [Observed.start] at hsplit
    · rw [hone] at hsplit
      obtain ⟨rfl, hrest⟩ | ⟨rest, -, hrest⟩ := List.append_eq_cons_iff.mp hsplit.symm
      · exact ⟨congrArg Prod.fst (List.cons.inj hrest).1, rfl⟩
      · simp [Observed.start] at hrest
  refine ⟨hoptions ▸ hsecret, ?_, ?_⟩
  · intro first later h
    rw [(hfirst h).1]
  · intro first later h x hx
    obtain ⟨rfl, rfl⟩ := hfirst h
    obtain rfl := List.mem_singleton.mp hx
    rwa [hoptions]

/-! ## Replays that are accepted -/

section Accepted
variable {o : Observed} {v : Visit} {now : Time}

/-- No entry under the key of the visit is alive. -/
def Unused (o : Observed) (v : Visit) : Prop :=
  ∀ held, ((visits o.server.options).key v, held) ∈ o.server.nonces → held.after v.now = false

theorem Unused.admitted (h : Unused o v) :
    ((visits o.server.options).enter Time.after v o.server.nonces).2 = true := by
  rw [← Bool.not_eq_false, Presentation.enter, admitKey_refused_iff]
  rintro ⟨held, hmem, halive⟩
  have hdead := h held hmem
  exact Bool.false_ne_true (hdead.symm.trans halive)

theorem observe_unused (hsecret : o.server.options.secret ≠ [])
    (hgenuine : Genuine o.server.options v.request v.now) (hunused : Unused o v) :
    (observe o v).accepted = v.request :: o.accepted ∧
      (observe o v).server.options = o.server.options ∧
      (observe o v).server.nonces =
        ((visits o.server.options).enter Time.after v o.server.nonces).1 := by
  rw [observe_genuine hsecret hgenuine, hunused.admitted]
  exact ⟨rfl, rfl, rfl⟩

/-- Two visits that both find no live entry are both accepted. -/
theorem accepted_twice {again : Visit} (hsecret : o.server.options.secret ≠ [])
    (hgenuine : Genuine o.server.options v.request v.now) (hunused : Unused o v)
    (hgenuine' : Genuine o.server.options again.request again.now)
    (hunused' : Unused (observe o v) again) :
    (run observe o [v, again]).accepted = again.request :: v.request :: o.accepted := by
  obtain ⟨haccepted, hoptions, -⟩ := observe_unused hsecret hgenuine hunused
  have hagain := observe_unused (hoptions ▸ hsecret) (hoptions ▸ hgenuine') hunused'
  rw [run_cons, run_cons, run_nil, hagain.1, haccepted]

/-- The request under the name of another node. -/
def Request.rename (r : Request) (nodeID : Bytes) : Request :=
  { r with header := r.header.set headerNodeID nodeID }

theorem firstHeader_rename (r : Request) (nodeID : Bytes) {names : List String}
    (h : ∀ name ∈ names, canonicalHeaderKey name ≠ canonicalHeaderKey headerNodeID) :
    firstHeader (r.rename nodeID) names = firstHeader r names := by
  induction names with
  | nil => rfl
  | cons name names ih =>
      have hget : (r.rename nodeID).header.get name = r.header.get name :=
        Header.get_set_of_ne (h name List.mem_cons_self)
      rw [firstHeader, firstHeader, hget, ih fun other hother => h other (List.mem_cons_of_mem _ hother)]

theorem signature_rename (r : Request) (nodeID : Bytes) :
    (r.rename nodeID).signature = r.signature := firstHeader_rename r nodeID (by decide +kernel)

/-- The signature covers nothing of the name. -/
theorem tuple_rename (r : Request) (nodeID : Bytes) : (r.rename nodeID).tuple = r.tuple := by
  have htimestamp : (r.rename nodeID).timestamp = r.timestamp :=
    firstHeader_rename r nodeID (by decide +kernel)
  have hnonce : (r.rename nodeID).nonce = r.nonce :=
    firstHeader_rename r nodeID (by decide +kernel)
  simp only [Request.tuple, Request.signatureBytes, htimestamp, hnonce, signature_rename]
  rfl

theorem nodeID_rename (r : Request) {nodeID : Bytes} (h : nodeID ≠ []) :
    (r.rename nodeID).nodeID = nodeID := by
  have hget : (r.rename nodeID).header.get headerNodeID = nodeID := Header.get_set_self _ _ _
  rw [Request.nodeID, firstHeader_of_get (hget.symm ▸ h), hget]

theorem Genuine.rename {options : ServerOptions} {r : Request} (h : Genuine options r now)
    {nodeID : Bytes} (hnode : nodeID ≠ []) : Genuine options (r.rename nodeID) now := by
  have htuple := tuple_rename r nodeID
  have htimestamp : (r.rename nodeID).timestamp = r.timestamp := congrArg SignedTuple.timestamp htuple
  have hnonce : (r.rename nodeID).nonce = r.nonce := congrArg SignedTuple.nonce htuple
  have hsignature := signature_rename r nodeID
  refine ⟨?_, ?_, ?_, ?_⟩
  · rw [htimestamp, hnonce, hsignature]
    exact h.complete
  · rw [htimestamp]
    exact h.fresh
  · rw [hsignature, htimestamp, hnonce]
    exact h.signed
  · rwa [nodeID_rename r hnode]

/-- A request that was accepted is accepted again under the name of another node. -/
theorem renamed_replay_accepted {nodeID : Bytes} (hsecret : o.server.options.secret ≠ [])
    (hgenuine : Genuine o.server.options v.request v.now) (hunused : Unused o v)
    (hfresh : Genuine o.server.options v.request now) (hnode : nodeID ≠ [])
    (hother : nodeID ≠ v.request.nodeID) (hfree : Unused o ⟨v.request.rename nodeID, now⟩) :
    (run observe o [v, ⟨v.request.rename nodeID, now⟩]).accepted =
      v.request.rename nodeID :: v.request :: o.accepted := by
  refine accepted_twice hsecret hgenuine hunused (hfresh.rename hnode) ?_
  obtain ⟨-, hoptions, hnonces⟩ := observe_unused hsecret hgenuine hunused
  intro held hheld
  rw [hnonces, Presentation.enter, hoptions] at hheld
  rcases mem_of_mem_admitKey hheld with hold | hnew
  · exact hfree held hold
  · have hkey := (Prod.mk.inj hnew).1
    have hnonce : (v.request.rename nodeID).nonce = v.request.nonce :=
      congrArg SignedTuple.nonce (tuple_rename v.request nodeID)
    simp only [visits, hnonce, nodeID_rename v.request hnode] at hkey
    exact absurd (List.append_cancel_right (List.append_cancel_right hkey)) hother

/-- A request that was accepted is accepted again at a reading past the expiry of its nonce. -/
theorem outlived_replay_accepted (hsecret : o.server.options.secret ≠ [])
    (hgenuine : Genuine o.server.options v.request v.now) (hunused : Unused o v)
    (hfresh : Genuine o.server.options v.request now)
    (hexpired : (v.now.add o.server.options.nonceTTL).after now = false) :
    (run observe o [v, ⟨v.request, now⟩]).accepted = v.request :: v.request :: o.accepted := by
  refine accepted_twice hsecret hgenuine hunused hfresh ?_
  obtain ⟨-, hoptions, hnonces⟩ := observe_unused hsecret hgenuine hunused
  intro held hheld
  rw [hnonces, hoptions] at hheld
  have hsame := eq_of_mem_admitKey hunused.admitted hheld
  rw [hsame]
  exact hexpired

end Accepted

/-! ## A server that runs with the default windows -/

def statusOptions : ServerOptions := ⟨bytes "status-secret", 0, 0⟩

/-- The reading of a clock without a monotonic part. -/
def atSecond (seconds : Int) : Time := ⟨seconds * 10 ^ 9, none⟩

/-- The signed request of a peer for the status of the node. -/
def statusRequest : Request :=
  HTTPClient.doAttempt ⟨bytes "peer-status", bytes "status-secret"⟩ (bytes "GET")
    (bytes "/api/v2/link/status") [] 1700000000 (bytes "status-nonce-1")

theorem genuine_statusRequest {seconds : Int} (hlate : seconds ≤ 1700000300)
    (hearly : 1699999700 ≤ seconds) :
    Genuine (newServer statusOptions).options statusRequest (atSecond seconds) := by
  have hsent : (Time.unix 1700000000).wall = 1700000000 * 10 ^ 9 := by decide +kernel
  have hskew : (newServer statusOptions).options.clockSkew = 300 * 10 ^ 9 := by decide +kernel
  refine genuine_doAttempt (by decide +kernel) rfl (by decide +kernel) (by decide +kernel)
    (by decide) (by decide) ?_ ?_
  · rw [hskew, Time.sub_eq_wall (.inl rfl), saturate_le (by decide) (by decide), hsent]
    simp only [atSecond]
    omega
  · rw [hskew, Time.sub_eq_wall (.inl rfl), saturate_le (by decide) (by decide), hsent]
    simp only [atSecond]
    omega

theorem unused_start (options : ServerOptions) (v : Visit) : Unused (Observed.start options) v := by
  intro held hheld
  cases hheld

/-- A replay one second later is refused. -/
theorem tuples_accepted_once_status :
    ((run observe (Observed.start statusOptions)
      [⟨statusRequest, atSecond 1700000000⟩, ⟨statusRequest, atSecond 1700000001⟩]).accepted.map
        Request.tuple).Nodup :=
  tuples_accepted_once statusOptions _
    ⟨unreplayed_start (by decide +kernel) _,
      unreplayed_next (by decide +kernel) (by decide +kernel), trivial⟩

/-- The same replay is accepted under the name of another node. -/
theorem replay_accepted_renamed :
    ¬((run observe (Observed.start statusOptions)
      [⟨statusRequest, atSecond 1700000000⟩,
        ⟨statusRequest.rename (bytes "peer-other"), atSecond 1700000001⟩]).accepted.map
          Request.tuple).Nodup := by
  have hother : bytes "peer-other" ≠ statusRequest.nodeID := by decide +kernel
  have haccepted : (run observe (Observed.start statusOptions)
      [⟨statusRequest, atSecond 1700000000⟩,
        ⟨statusRequest.rename (bytes "peer-other"), atSecond 1700000001⟩]).accepted =
          [statusRequest.rename (bytes "peer-other"), statusRequest] :=
    renamed_replay_accepted (by decide +kernel) (genuine_statusRequest (by decide) (by decide))
      (unused_start _ _) (genuine_statusRequest (by decide) (by decide)) (by decide +kernel) hother
      (unused_start _ _)
  rw [haccepted, List.map_cons, List.map_cons, tuple_rename]
  simp

/-- With the default windows the nonce expires at the last reading at which the
timestamp is fresh, so that a request accepted at the first is accepted again. -/
theorem replay_accepted_at_boundary :
    (run observe (Observed.start statusOptions)
      [⟨statusRequest, atSecond 1699999700⟩, ⟨statusRequest, atSecond 1700000300⟩]).accepted =
        [statusRequest, statusRequest] :=
  outlived_replay_accepted (by decide +kernel) (genuine_statusRequest (by decide) (by decide))
    (unused_start _ _) (genuine_statusRequest (by decide) (by decide)) (by decide +kernel)

end WorkMesh.Link
