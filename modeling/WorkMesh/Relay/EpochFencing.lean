import WorkMesh.Relay.Forwarding
import WorkMesh.Link.Replay

/-!
# Epochs of forwarded requests

Senders sign requests and put their role epoch into a header. Whatever lies
between them and the receiver can write over every header and deliver a request
any number of times. The epoch and the node are not part of what is signed, so
an accepted request has the epoch that its header says, and not the one that its
sender had.
-/

namespace WorkMesh.Relay

open Encoding StateMachine
open WorkMesh.Link (SignedTuple atSecond sign)

def Request.tuple (r : Request) : SignedTuple where
  method := r.method
  path := r.target
  timestamp := r.timestamp
  nonce := r.nonce
  body := r.body
  signature := hexDecode r.signature

/-- A request that was signed by a sender at its role epoch. -/
structure Sent where
  epoch : UInt64
  request : Request

/-- A receiver together with what was sent, what it has accepted, each with what was
sent until then, and the arrivals that came as far as the nonce, with their
verdicts. The latest stand first. -/
structure Network where
  relay : NodeRelay
  sent : List Sent
  accepted : List (Arrival × List Sent)
  presented : List (Arrival × Bool)

inductive Step where
  | forward (o : RelayOptions) (source : EpochSource) (req : Request) (seconds : Int)
      (nonce : Bytes)
  | arrive (a : Arrival)

def send (n : Network) (o : RelayOptions) (source : EpochSource) (req : Request) (seconds : Int)
    (nonce : Bytes) : Network :=
  match currentEpoch source, forwardAttempt o source req seconds nonce with
  | .ok epoch, .ok request =>
      if o.secret ≠ [] then { n with sent := ⟨epoch, request⟩ :: n.sent } else n
  | _, _ => n

def arrive (n : Network) (a : Arrival) : Network :=
  let (relay, answer) := authenticateForwarded n.relay a
  { n with
    relay
    accepted := if answer.isOk then (a, n.sent) :: n.accepted else n.accepted
    presented :=
      if (checkForwarded n.relay.options a).isOk then (a, answer.isOk) :: n.presented
      else n.presented }

def step (n : Network) : Step → Network
  | .forward o source req seconds nonce => send n o source req seconds nonce
  | .arrive a => arrive n a

def Network.start (o : RelayOptions) : Network := ⟨⟨o, []⟩, [], [], []⟩

/-- How an arrival uses the table of nonces. -/
def arrivals : Presentation Arrival Bytes Time where
  key a := a.request.nodeID ++ bytes ":" ++ a.request.nonce
  now a := a.lockReading
  expires a := a.lockReading.add relayNonceTTL

/-- A genuine arrival presents again what an earlier one was accepted with. The
arrivals since then are `later`. -/
def Repeats (n : Network) (a first : Arrival) (later : List (Arrival × Bool)) : Prop :=
  Genuine n.relay.options a ∧ a.request.tuple = first.request.tuple ∧
    ∃ earlier, n.presented = later ++ (first, true) :: earlier

/-- The epoch of what was sent is still the one its header says. What is presented
again names the node that it named before, while no reading has passed the
expiry of its nonce. -/
structure Intact (n : Network) (a : Arrival) : Prop where
  epoch : ∀ s ∈ n.sent, Genuine n.relay.options a → a.request.tuple = s.request.tuple →
    parseUint a.request.roleEpoch = some s.epoch.toNat
  node : ∀ first later, Repeats n a first later → a.request.nodeID = first.request.nodeID
  remembered : ∀ first later, Repeats n a first later → ∀ x ∈ a :: later.map Prod.fst,
    (first.lockReading.add relayNonceTTL).after x.lockReading = true

def Unaltered (n : Network) : Step → Prop
  | .forward .. => True
  | .arrive a => Intact n a

/-- A sent request is accepted only at the epoch of its sender, and no signed tuple twice. -/
structure FencedOnce (n : Network) : Prop where
  epoch : ∀ x ∈ n.accepted, ∀ s ∈ x.2, x.1.request.tuple = s.request.tuple →
    currentEpoch x.1.source = .ok s.epoch
  once : (n.accepted.map fun x => x.1.request.tuple).Nodup

section Arrive
variable {n : Network} {a : Arrival}

theorem arrive_genuine (h : Genuine n.relay.options a) :
    arrive n a =
      { n with
        relay := { n.relay with nonces := (arrivals.enter Time.after a n.relay.nonces).1 }
        accepted :=
          if (arrivals.enter Time.after a n.relay.nonces).2 then (a, n.sent) :: n.accepted
          else n.accepted
        presented := (a, (arrivals.enter Time.after a n.relay.nonces).2) :: n.presented } := by
  have hkey := checkForwarded_ok_iff.mpr ⟨h, rfl⟩
  have hverdict : ∀ b : Bool,
      (if b = true then Except.ok () else .error "节点透传 nonce 已使用").isOk = b := by
    intro b
    cases b <;> rfl
  simp only [arrive, authenticateForwarded, hkey, hverdict]
  rfl

theorem arrive_not_genuine (h : ¬Genuine n.relay.options a) : arrive n a = n := by
  cases hcheck : checkForwarded n.relay.options a with
  | ok key => exact absurd (checkForwarded_ok_iff.mp hcheck).1 h
  | error err =>
      simp only [arrive, authenticateForwarded, hcheck]
      rfl

end Arrive

/-- The table guards the nonces of the accepted requests, which are fenced. -/
structure Watched (n : Network) : Prop where
  guarded : Guarded Time.after arrivals n.relay.nonces n.presented
  admitted : (n.accepted.map fun x => x.1.request.tuple) =
    admittedTags (fun a => a.request.tuple) n.presented
  fenced : FencedOnce n

theorem watched_start (o : RelayOptions) : Watched (Network.start o) :=
  ⟨guarded_nil, rfl, by simp [Network.start], List.nodup_nil⟩

theorem Watched.send {n : Network} (h : Watched n) (o : RelayOptions) (source : EpochSource)
    (req : Request) (seconds : Int) (nonce : Bytes) :
    Watched (WorkMesh.Relay.send n o source req seconds nonce) := by
  simp only [WorkMesh.Relay.send]
  split
  · split
    · exact ⟨h.guarded, h.admitted, h.fenced.epoch, h.fenced.once⟩
    · exact h
  · exact h

/-- The epoch that a genuine arrival was checked against is that of its sender. -/
theorem Intact.currentEpoch {n : Network} {a : Arrival} (h : Intact n a)
    (hgenuine : Genuine n.relay.options a) {s : Sent} (hs : s ∈ n.sent)
    (htuple : a.request.tuple = s.request.tuple) :
    WorkMesh.Relay.currentEpoch a.source = .ok s.epoch := by
  obtain ⟨current, hsent, hcurrent⟩ := hgenuine.fenced
  have hepoch := h.epoch s hs hgenuine htuple
  rw [hsent] at hepoch
  rw [hcurrent, UInt64.toNat_inj.mp (Option.some.inj hepoch)]

theorem Watched.arrive {n : Network} (h : Watched n) {a : Arrival} (ha : Intact n a) :
    Watched (WorkMesh.Relay.arrive n a) := by
  by_cases hgenuine : Genuine n.relay.options a
  · have hrepeat : ∀ first later earlier, n.presented = later ++ (first, true) :: earlier →
        a.request.tuple = first.request.tuple → arrivals.key a = arrivals.key first ∧
          ∀ x ∈ a :: later.map Prod.fst,
            (first.lockReading.add relayNonceTTL).after x.lockReading = true := by
      intro first later earlier hsplit htuple
      have hrepeats : Repeats n a first later := ⟨hgenuine, htuple, earlier, hsplit⟩
      have hnonce : a.request.nonce = first.request.nonce := congrArg SignedTuple.nonce htuple
      refine ⟨?_, ha.remembered first later hrepeats⟩
      simp only [arrivals, ha.node first later hrepeats, hnonce]
    have honce := h.guarded.admit_once hrepeat (h.admitted ▸ h.fenced.once)
    have hadmitted : ((WorkMesh.Relay.arrive n a).accepted.map fun x => x.1.request.tuple) =
        admittedTags (fun a => a.request.tuple)
          ((a, (arrivals.enter Time.after a n.relay.nonces).2) :: n.presented) := by
      rw [arrive_genuine hgenuine, admittedTags, List.filter_cons]
      dsimp only
      split
      · rw [List.map_cons, List.map_cons, h.admitted, admittedTags]
      · exact h.admitted
    refine ⟨?_, ?_, ?_, hadmitted ▸ honce⟩
    · rw [arrive_genuine hgenuine]
      exact h.guarded.enter a
    · rw [hadmitted, arrive_genuine hgenuine]
    · rw [arrive_genuine hgenuine]
      dsimp only
      split
      · exact List.forall_mem_cons.mpr
          ⟨fun s hs htuple => ha.currentEpoch hgenuine hs htuple, h.fenced.epoch⟩
      · exact h.fenced.epoch
  · rwa [arrive_not_genuine hgenuine]

/-- While the epoch and the node of a request stay as they were sent, it is
accepted only at the epoch of its sender, and only once. -/
theorem forwarded_fenced (o : RelayOptions) (steps : List Step)
    (h : Meets step Unaltered (Network.start o) steps) :
    FencedOnce (run step (Network.start o) steps) := by
  have hwatched : Watched (run step (Network.start o) steps) := by
    refine run_invariant ?_ (watched_start o) h
    intro n i hn hi
    cases i with
    | forward sender source req seconds nonce => exact hn.send sender source req seconds nonce
    | arrive a => exact hn.arrive hi
  exact hwatched.fenced

/-! ## A request whose epoch is written over -/

section Rewritten
variable {o : RelayOptions} {epoch current : UInt64} {seconds : Int} {nonce : Bytes}
  {r : Request}

theorem signature_rewriteEpoch (value : Bytes) :
    (r.rewrite "X-WorkMesh-Role-Epoch" value).signature = r.signature :=
  trimmed_rewrite_of_ne (by decide +kernel)

/-- The signature covers nothing of the epoch. -/
theorem tuple_rewriteEpoch (value : Bytes) :
    (r.rewrite "X-WorkMesh-Role-Epoch" value).tuple = r.tuple := by
  have htimestamp : (r.rewrite "X-WorkMesh-Role-Epoch" value).timestamp = r.timestamp :=
    trimmed_rewrite_of_ne (by decide +kernel)
  have hnonce : (r.rewrite "X-WorkMesh-Role-Epoch" value).nonce = r.nonce :=
    trimmed_rewrite_of_ne (by decide +kernel)
  simp only [Request.tuple, htimestamp, hnonce, signature_rewriteEpoch]
  rfl

/-- A request reads as one of another epoch once its header says so. -/
theorem Written.rewriteEpoch (h : Written o epoch seconds nonce r) :
    Written o current seconds nonce
      (r.rewrite "X-WorkMesh-Role-Epoch" (formatUint current.toNat)) := by
  have htuple := tuple_rewriteEpoch (r := r) (formatUint current.toNat)
  constructor
  · exact (trimmed_rewrite_of_ne (by decide +kernel)).trans h.nodeID
  · exact (congrArg SignedTuple.timestamp htuple).trans h.timestamp
  · exact (signature_rewriteEpoch _).trans h.signature
  · exact (congrArg SignedTuple.nonce htuple).trans h.nonce
  · exact trimmed_rewrite_self (formatUint_printable _)

/-- Without an entry in the table a genuine arrival is accepted. -/
theorem arrive_accepted {n : Network} {a : Arrival} (hgenuine : Genuine n.relay.options a)
    (hnonces : n.relay.nonces = []) : (arrive n a).accepted = (a, n.sent) :: n.accepted := by
  have hadmitted : (arrivals.enter Time.after a n.relay.nonces).2 = true := by
    rw [hnonces]
    rfl
  rw [arrive_genuine hgenuine, hadmitted, if_pos rfl]

end Rewritten

/-- The request as `node-a` forwards it at epoch 1. -/
def forwardedDashboard : Request :=
  match forwardAttempt relaySender (atEpoch 1) dashboardRequest 1700000000 relayNonce with
  | .ok request => request
  | .error _ => dashboardRequest

theorem forwardedDashboard_written :
    forwardAttempt relaySender (atEpoch 1) dashboardRequest 1700000000 relayNonce =
      .ok forwardedDashboard ∧ Written relaySender 1 1700000000 relayNonce forwardedDashboard := by
  obtain ⟨r, hr, hwritten⟩ := @forwardAttempt_written relaySender (atEpoch 1) dashboardRequest 1
    1700000000 relayNonce rfl (by decide +kernel) (by decide +kernel)
  have hsame : forwardedDashboard = r := by rw [forwardedDashboard, hr]
  rw [hsame]
  exact ⟨hr, hwritten⟩

def forwardDashboard : Step :=
  .forward relaySender (atEpoch 1) dashboardRequest 1700000000 relayNonce

theorem step_forwardDashboard : step (Network.start relayReceiver) forwardDashboard =
    ⟨⟨relayReceiver, []⟩, [⟨1, forwardedDashboard⟩], [], []⟩ := by
  have hsecret : relaySender.secret ≠ [] := by decide +kernel
  have hepoch : currentEpoch (atEpoch 1) = .ok 1 := rfl
  simp only [step, forwardDashboard, send, hepoch, forwardedDashboard_written.1, if_pos hsecret]
  rfl

/-- The request at the receiver, whose epoch is `epoch`, with the epoch in its header. -/
def dashboardArrival (epoch : UInt64) : Arrival where
  request := forwardedDashboard.rewrite "X-WorkMesh-Role-Epoch" (formatUint epoch.toNat)
  sinceReading := atSecond 1700000001
  untilReading := atSecond 1700000001
  lockReading := atSecond 1700000001
  source := atEpoch epoch

theorem genuine_dashboardArrival (epoch : UInt64) :
    Genuine relayReceiver (dashboardArrival epoch) := by
  have hshared : relayReceiver.secret = relaySender.secret := rfl
  have hcurrent : currentEpoch (dashboardArrival epoch).source = .ok epoch := rfl
  have hlate : (atSecond 1700000001).sub (.unix 1700000000) ≤ relayClockSkew := by decide +kernel
  have hearly : (Time.unix 1700000000).sub (atSecond 1700000001) ≤ relayClockSkew := by
    decide +kernel
  exact forwardedDashboard_written.2.rewriteEpoch.genuine (a := dashboardArrival epoch)
    (by decide +kernel) hshared (by decide +kernel) (by decide +kernel) (by decide +kernel)
    (by decide) (by decide) hcurrent hlate hearly

/-- A request that arrives as it was sent. -/
theorem forwarded_fenced_dashboard :
    FencedOnce (run step (Network.start relayReceiver)
      [forwardDashboard, .arrive (dashboardArrival 1)]) := by
  refine forwarded_fenced relayReceiver _ ⟨trivial, ?_, trivial⟩
  rw [step_forwardDashboard]
  have hnone : ∀ first later, ¬Repeats ⟨⟨relayReceiver, []⟩, [⟨1, forwardedDashboard⟩], [], []⟩
      (dashboardArrival 1) first later := by
    rintro first later ⟨-, -, earlier, hsplit⟩
    simp at hsplit
  refine ⟨?_, fun _ _ h => absurd h (hnone _ _), fun _ _ h => absurd h (hnone _ _)⟩
  intro s hs _ _
  obtain rfl := List.mem_singleton.mp hs
  have hepoch : (dashboardArrival 1).request.roleEpoch = formatUint (1 : UInt64).toNat :=
    trimmed_rewrite_self (formatUint_printable _)
  rw [hepoch, parseUint_formatUint (UInt64.toNat_lt 1)]

/-- The request was signed at epoch 1 and is accepted at epoch 2, which its header was changed to. -/
theorem epoch_written_over :
    ¬FencedOnce (run step (Network.start relayReceiver)
      [forwardDashboard, .arrive (dashboardArrival 2)]) := by
  intro hfenced
  have haccepted := @arrive_accepted ⟨⟨relayReceiver, []⟩, [⟨1, forwardedDashboard⟩], [], []⟩
    (dashboardArrival 2) (genuine_dashboardArrival 2) rfl
  rw [run_cons, step_forwardDashboard, run_cons, run_nil, step] at hfenced
  have hepoch := hfenced.epoch (dashboardArrival 2, [⟨1, forwardedDashboard⟩])
    (haccepted ▸ List.mem_cons_self) ⟨1, forwardedDashboard⟩ List.mem_cons_self
    (tuple_rewriteEpoch _)
  cases hepoch

end WorkMesh.Relay
