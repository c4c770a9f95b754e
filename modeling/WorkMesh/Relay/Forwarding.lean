import WorkMesh.Encoding.Url
import WorkMesh.Link.ServerAuth

/-!
# Forwarding between nodes

A node forwards a request to another one under its own signature. The receiver
checks the signature, the age of the timestamp, the role epoch in the header and
the nonce. This module is the sending half `forwardAttempt` and the receiving
half `authenticateForwarded` of `node_relay.go`.

## Implementation notes

The query of a request is the one that `URL.Query` returns. The three readings
of the clock in `authenticateForwarded` are taken one after the other, the last
under the lock; each call carries its own.
-/

namespace WorkMesh.Relay

open Encoding StateMachine
open WorkMesh.Link (sign)

def relayClockSkew : Int := 5 * 60 * 10 ^ 9
def relayNonceTTL : Int := 10 * 60 * 10 ^ 9

/-- What reading `role-state.json` gives. Without a number in the text that
decodes, the content has none. -/
inductive RoleFile where
  | missing
  | unreadable (err : String)
  | content (roleEpoch : Option UInt64)

/-- Where a node reads its epoch: from the injected query, if it has one, or from the file. -/
structure EpochSource where
  roleEpoch : Option (Except String UInt64)
  file : RoleFile

def currentEpoch (source : EpochSource) : Except String UInt64 :=
  match source.roleEpoch with
  | some answer => answer
  | none =>
      match source.file with
      | .missing => .ok 1
      | .unreadable err => .error err
      | .content none => .error "角色状态文件无效"
      | .content (some epoch) => if epoch = 0 then .error "角色状态文件无效" else .ok epoch

structure RelayOptions where
  nodeID : Bytes
  secret : Bytes

/-- The parts of a request that the relay reads. -/
structure Request where
  method : Bytes
  escapedPath : Bytes
  query : Values
  header : Header
  body : Bytes

def rootedPath (path : Bytes) : Bytes := if path = [] then bytes "/" else path

def pathWithQuery (path : Bytes) (query : Values) : Bytes :=
  if query.encode ≠ [] then path ++ bytes "?" ++ query.encode else path

/-! ## Sending -/

def isHopByHopHeader (key : String) : Bool :=
  key.toLower ∈ ["connection", "keep-alive", "proxy-authenticate", "proxy-authorization", "te",
    "trailer", "transfer-encoding", "upgrade"]

/-- The headers that are passed on: neither those of the connection nor those of the relay. -/
def copyRelayHeaders (header : Header) : Header :=
  header.filter fun entry =>
    !(entry.1.toLower == "host" || "x-workmesh-".toList.isPrefixOf entry.1.toLower.toList ||
      isHopByHopHeader entry.1)

/-- The request of one attempt. The epoch goes into a header, beside what is signed. -/
def forwardAttempt (o : RelayOptions) (source : EpochSource) (req : Request) (seconds : Int)
    (nonce : Bytes) : Except String Request :=
  let path := rootedPath req.escapedPath
  let query := req.query.del (bytes "operateNode")
  let header := ((copyRelayHeaders req.header).set "X-WorkMesh-Forwarded" (bytes "1")).set
    "X-WorkMesh-Node-ID" o.nodeID
  match currentEpoch source with
  | .error err => .error ("读取角色 epoch 失败: " ++ err)
  | .ok epoch =>
      let timestamp := formatInt seconds
      let header := ((header.set "X-WorkMesh-Role-Epoch" (formatUint epoch.toNat)).set
        "X-WorkMesh-Timestamp" timestamp).set "X-WorkMesh-Nonce" nonce
      .ok { method := req.method, escapedPath := path, query, body := req.body
            header :=
              if o.secret ≠ [] then
                header.set "X-WorkMesh-Signature"
                  (sign o.secret req.method (pathWithQuery path query) timestamp nonce req.body)
              else header }

/-! ## Receiving -/

def Request.trimmed (r : Request) (name : String) : Bytes := trimSpace (r.header.get name)

def Request.nodeID (r : Request) : Bytes := r.trimmed "X-WorkMesh-Node-ID"
def Request.timestamp (r : Request) : Bytes := r.trimmed "X-WorkMesh-Timestamp"
def Request.nonce (r : Request) : Bytes := r.trimmed "X-WorkMesh-Nonce"
def Request.signature (r : Request) : Bytes := r.trimmed "X-WorkMesh-Signature"
def Request.roleEpoch (r : Request) : Bytes := r.trimmed "X-WorkMesh-Role-Epoch"

/-- The path and the query as they are signed. -/
def Request.target (r : Request) : Bytes := pathWithQuery (rootedPath r.escapedPath) r.query

/-- A forwarded request as a call of `authenticateForwarded` finds it. -/
structure Arrival where
  request : Request
  sinceReading : Time
  untilReading : Time
  lockReading : Time
  source : EpochSource

def secureRelaySignature (got expected : Bytes) : Bool := trimSpace got = expected

/-- The receiving node. -/
structure NodeRelay where
  options : RelayOptions
  nonces : List (Bytes × Time)

/-- What is checked before the nonce: the key under which the nonce is entered, or an error. -/
def checkForwarded (o : RelayOptions) (a : Arrival) : Except String Bytes :=
  let r := a.request
  if o.secret = [] then .error "节点透传未配置共享密钥"
  else if r.nodeID = [] ∨ r.nodeID = o.nodeID then .error "节点透传身份无效"
  else if r.timestamp = [] ∨ r.nonce = [] ∨ r.signature = [] then .error "节点透传签名请求头不完整"
  else match parseInt r.timestamp with
  | none => .error "节点透传时间戳无效或已过期"
  | some seconds =>
      if a.sinceReading.sub (.unix seconds) > relayClockSkew ∨
          (Time.unix seconds).sub a.untilReading > relayClockSkew then
        .error "节点透传时间戳无效或已过期"
      else if secureRelaySignature r.signature
          (sign o.secret r.method r.target r.timestamp r.nonce r.body) = false then
        .error "节点透传签名无效"
      else if r.roleEpoch = [] then .error "节点透传缺少 role epoch"
      else match parseUint r.roleEpoch with
      | none => .error "节点透传 role epoch 无效"
      | some sentEpoch =>
          match currentEpoch a.source with
          | .error _ => .error "节点透传 role epoch 冲突"
          | .ok current =>
              if sentEpoch ≠ current.toNat then .error "节点透传 role epoch 冲突"
              else .ok (r.nodeID ++ bytes ":" ++ r.nonce)

def authenticateForwarded (relay : NodeRelay) (a : Arrival) : NodeRelay × Except String Unit :=
  match checkForwarded relay.options a with
  | .error err => (relay, .error err)
  | .ok key =>
      let (nonces, admitted) :=
        admitKey Time.after a.lockReading key (a.lockReading.add relayNonceTTL) relay.nonces
      ({ relay with nonces }, if admitted then .ok () else .error "节点透传 nonce 已使用")

/-! ## What passes the checks -/

section Checks
variable {o : RelayOptions} {relay : NodeRelay} {a : Arrival} {key : Bytes}

@[simp] theorem authenticateForwarded_options :
    (authenticateForwarded relay a).1.options = relay.options := by
  simp only [authenticateForwarded]
  split <;> rfl

/-- What an arrival is that passes the checks before the nonce. -/
structure Genuine (o : RelayOptions) (a : Arrival) : Prop where
  configured : o.secret ≠ []
  named : a.request.nodeID ≠ [] ∧ a.request.nodeID ≠ o.nodeID
  complete : a.request.timestamp ≠ [] ∧ a.request.nonce ≠ [] ∧ a.request.signature ≠ []
  fresh : ∃ seconds, parseInt a.request.timestamp = some seconds ∧
    a.sinceReading.sub (.unix seconds) ≤ relayClockSkew ∧
    (Time.unix seconds).sub a.untilReading ≤ relayClockSkew
  signed : secureRelaySignature a.request.signature (sign o.secret a.request.method
    a.request.target a.request.timestamp a.request.nonce a.request.body) = true
  fenced : ∃ current, parseUint a.request.roleEpoch = some current.toNat ∧
    currentEpoch a.source = .ok current

theorem parseUint_nil : parseUint [] = none := rfl

/-- A request that passes the checks is entered under its node and its nonce. -/
theorem checkForwarded_ok_iff :
    checkForwarded o a = .ok key ↔
      Genuine o a ∧ key = a.request.nodeID ++ bytes ":" ++ a.request.nonce := by
  constructor
  · intro h
    simp only [checkForwarded] at h
    split at h
    · cases h
    · rename_i hconfigured
      split at h
      · cases h
      · rename_i hnamed
        split at h
        · cases h
        · rename_i hcomplete
          split at h
          · cases h
          · rename_i seconds hseconds
            split at h
            · cases h
            · rename_i hfresh
              split at h
              · cases h
              · rename_i hsigned
                split at h
                · cases h
                · split at h
                  · cases h
                  · rename_i sentEpoch hsent
                    split at h
                    · cases h
                    · rename_i current hcurrent
                      split at h
                      · cases h
                      · rename_i hsame
                        push Not at hnamed hcomplete hfresh hsame
                        exact ⟨⟨hconfigured, hnamed, hcomplete, ⟨seconds, hseconds, hfresh⟩,
                          by simpa using hsigned, current, hsame ▸ hsent, hcurrent⟩,
                          (Except.ok.inj h).symm⟩
  · rintro ⟨⟨hconfigured, ⟨hnamed, hother⟩, ⟨htimestamp, hnonce, hsignature⟩,
      ⟨seconds, hseconds, hlate, hearly⟩, hsigned, current, hsent, hcurrent⟩, rfl⟩
    have hepoch : a.request.roleEpoch ≠ [] := by
      intro hnil
      rw [hnil, parseUint_nil] at hsent
      cases hsent
    simp [checkForwarded, hconfigured, hnamed, hother, htimestamp, hnonce, hsignature, hseconds,
      Int.not_lt.mpr hlate, Int.not_lt.mpr hearly, hsigned, hepoch, hsent, hcurrent]

end Checks

/-! ## Requests of a sender -/

/-- The request with a header that was written over on its way. -/
def Request.rewrite (r : Request) (name : String) (value : Bytes) : Request :=
  { r with header := r.header.set name value }

section Sender
variable {r : Request} {name other : String} {value : Bytes}

theorem trimmed_rewrite_self (h : ∀ c ∈ value, isPrintable c = true) :
    (r.rewrite name value).trimmed name = value := by
  rw [Request.trimmed, Request.rewrite, Header.get_set_self, trimSpace_of_printable h]

theorem trimmed_rewrite_of_ne (h : canonicalHeaderKey other ≠ canonicalHeaderKey name) :
    (r.rewrite name value).trimmed other = r.trimmed other := by
  rw [Request.trimmed, Request.rewrite, Header.get_set_of_ne h, Request.trimmed]

theorem rootedPath_rootedPath (path : Bytes) : rootedPath (rootedPath path) = rootedPath path := by
  by_cases h : path = []
  · rw [h]
    decide +kernel
  · have hrooted : rootedPath path = path := if_neg h
    rw [hrooted, hrooted]

theorem formatUint_printable (n : Nat) : ∀ c ∈ formatUint n, isPrintable c = true := by
  intro c hc
  obtain ⟨hlow, hhigh⟩ := formatUint_digits n c hc
  simp only [isPrintable, Bool.and_eq_true, decide_eq_true_eq]
  exact ⟨UInt8.le_trans (by decide : (0x21 : UInt8) ≤ 48) hlow,
    UInt8.le_trans hhigh (by decide : (57 : UInt8) ≤ 0x7e)⟩

theorem formatInt_printable (n : Int) : ∀ c ∈ formatInt n, isPrintable c = true := by
  rw [formatInt]
  split
  · exact List.forall_mem_cons.mpr ⟨by decide, formatUint_printable _⟩
  · exact formatUint_printable _

/-- What the receiver reads of a request that a sender signed. -/
structure Written (o : RelayOptions) (epoch : UInt64) (seconds : Int) (nonce : Bytes)
    (r : Request) : Prop where
  nodeID : r.nodeID = trimSpace o.nodeID
  timestamp : r.timestamp = formatInt seconds
  signature : r.signature = sign o.secret r.method r.target (formatInt seconds) nonce r.body
  nonce : r.nonce = nonce
  roleEpoch : r.roleEpoch = formatUint epoch.toNat

theorem forwardAttempt_written {o : RelayOptions} {source : EpochSource} {req : Request}
    {epoch : UInt64} {seconds : Int} {nonce : Bytes} (hepoch : currentEpoch source = .ok epoch)
    (hsecret : o.secret ≠ []) (hnonce : ∀ c ∈ nonce, isPrintable c = true) :
    ∃ r, forwardAttempt o source req seconds nonce = .ok r ∧ Written o epoch seconds nonce r := by
  refine ⟨_, by simp only [forwardAttempt, hepoch, if_pos hsecret]; rfl, ?_, ?_, ?_, ?_, ?_⟩
  · simp only [Request.nodeID, Request.trimmed]
    rw [Header.get_set_of_ne (by decide +kernel), Header.get_set_of_ne (by decide +kernel),
      Header.get_set_of_ne (by decide +kernel), Header.get_set_of_ne (by decide +kernel),
      Header.get_set_self]
  · simp only [Request.timestamp, Request.trimmed]
    rw [Header.get_set_of_ne (by decide +kernel), Header.get_set_of_ne (by decide +kernel),
      Header.get_set_self, trimSpace_of_printable (formatInt_printable _)]
  · simp only [Request.signature, Request.trimmed, Request.target, rootedPath_rootedPath]
    rw [Header.get_set_self, sign, trimSpace_of_printable (hexEncode_printable _)]
  · simp only [Request.nonce, Request.trimmed]
    rw [Header.get_set_of_ne (by decide +kernel), Header.get_set_self,
      trimSpace_of_printable hnonce]
  · simp only [Request.roleEpoch, Request.trimmed]
    rw [Header.get_set_of_ne (by decide +kernel), Header.get_set_of_ne (by decide +kernel),
      Header.get_set_of_ne (by decide +kernel), Header.get_set_self,
      trimSpace_of_printable (formatUint_printable _)]

theorem secureRelaySignature_sign (secret method path timestamp nonce body : Bytes) :
    secureRelaySignature (sign secret method path timestamp nonce body)
      (sign secret method path timestamp nonce body) = true := by
  rw [secureRelaySignature, sign, trimSpace_of_printable (hexEncode_printable _)]
  exact decide_eq_true rfl

/-- What a sender has written at the epoch of the receiver is genuine there. -/
theorem Written.genuine {o receiver : RelayOptions} {epoch : UInt64} {seconds : Int}
    {nonce : Bytes} {a : Arrival} (h : Written o epoch seconds nonce a.request)
    (hsecret : o.secret ≠ []) (hshared : receiver.secret = o.secret)
    (hnode : trimSpace o.nodeID ≠ []) (hother : trimSpace o.nodeID ≠ receiver.nodeID)
    (hnonce : nonce ≠ []) (hlow : -2 ^ 63 ≤ seconds)
    (hhigh : seconds < 2 ^ 63) (hcurrent : currentEpoch a.source = .ok epoch)
    (hlate : a.sinceReading.sub (.unix seconds) ≤ relayClockSkew)
    (hearly : (Time.unix seconds).sub a.untilReading ≤ relayClockSkew) : Genuine receiver a := by
  constructor
  · exact hshared ▸ hsecret
  · rw [h.nodeID]
    exact ⟨hnode, hother⟩
  · rw [h.timestamp, h.nonce, h.signature]
    exact ⟨formatInt_ne_nil _, hnonce, WorkMesh.Link.sign_ne_nil _ _ _ _ _ _⟩
  · rw [h.timestamp]
    exact ⟨seconds, parseInt_formatInt hlow hhigh, hlate, hearly⟩
  · rw [h.signature, h.timestamp, h.nonce, hshared]
    exact secureRelaySignature_sign _ _ _ _ _ _
  · rw [h.roleEpoch]
    exact ⟨epoch, parseUint_formatUint epoch.toNat_lt, hcurrent⟩

end Sender

/-! ## Deliveries -/

/-- A request on its way from one node to another, apart from what the role files say. -/
structure Delivery where
  sender : RelayOptions
  receiver : NodeRelay
  request : Request
  seconds : Int
  nonce : Bytes
  sinceReading : Time
  untilReading : Time
  lockReading : Time

/-- The characters that no value of a header has. -/
def isControl (c : UInt8) : Bool := (c < 0x20 && c ≠ 9) || c = 0x7f

/-- The nodes share a secret, a header can name the sender, and the clocks are close enough. -/
structure Delivery.Sound (d : Delivery) : Prop where
  secret : d.receiver.options.secret = d.sender.secret
  configured : d.sender.secret ≠ []
  named : trimSpace d.sender.nodeID ≠ [] ∧ ∀ c ∈ d.sender.nodeID, isControl c = false
  other : trimSpace d.sender.nodeID ≠ d.receiver.options.nodeID
  nonce : d.nonce ≠ [] ∧ ∀ c ∈ d.nonce, isPrintable c = true
  fresh : d.sinceReading.sub (.unix d.seconds) ≤ relayClockSkew ∧
    (Time.unix d.seconds).sub d.untilReading ≤ relayClockSkew
  range : -2 ^ 63 ≤ d.seconds ∧ d.seconds < 2 ^ 63

/-- The receiver has no live entry for the nonce of the sender. -/
def Delivery.Unused (d : Delivery) : Prop :=
  ∀ expires, (trimSpace d.sender.nodeID ++ bytes ":" ++ d.nonce, expires) ∈ d.receiver.nonces →
    Time.after expires d.lockReading = false

/-- How a request arrives at the receiver. -/
def Delivery.arrival (d : Delivery) (request : Request) (source : EpochSource) : Arrival :=
  ⟨request, d.sinceReading, d.untilReading, d.lockReading, source⟩

/-- What the sender has written at the epoch of the receiver is accepted unless its nonce was
used before. -/
theorem Written.accepted_iff {d : Delivery} {epoch : UInt64} {r : Request} {source : EpochSource}
    (h : Written d.sender epoch d.seconds d.nonce r) (hd : d.Sound)
    (hcurrent : currentEpoch source = .ok epoch) :
    (authenticateForwarded d.receiver (d.arrival r source)).2 = .ok () ↔ d.Unused := by
  have hgenuine : Genuine d.receiver.options (d.arrival r source) :=
    Written.genuine h hd.configured hd.secret hd.named.1 hd.other hd.nonce.1 hd.range.1 hd.range.2
      hcurrent hd.fresh.1 hd.fresh.2
  have hcheck : checkForwarded d.receiver.options (d.arrival r source) =
      .ok (trimSpace d.sender.nodeID ++ bytes ":" ++ d.nonce) :=
    checkForwarded_ok_iff.mpr ⟨hgenuine, by simp only [Delivery.arrival, h.nodeID, h.nonce]⟩
  have hrefused := @admitKey_refused_iff _ _ _ Time.after d.lockReading
    (d.lockReading.add relayNonceTTL) (trimSpace d.sender.nodeID ++ bytes ":" ++ d.nonce)
    d.receiver.nonces
  simp only [authenticateForwarded, hcheck]
  have hreading : (d.arrival r source).lockReading = d.lockReading := rfl
  rw [hreading]
  constructor
  · intro haccepted expires hmem
    by_contra hlive
    rw [hrefused.mpr ⟨expires, hmem, by simpa using hlive⟩] at haccepted
    cases haccepted
  · intro hunused
    have hadmitted : (admitKey Time.after d.lockReading
        (trimSpace d.sender.nodeID ++ bytes ":" ++ d.nonce) (d.lockReading.add relayNonceTTL)
        d.receiver.nonces).2 = true := by
      rw [← Bool.not_eq_false, hrefused]
      rintro ⟨expires, hmem, hlive⟩
      rw [hunused expires hmem] at hlive
      cases hlive
    rw [hadmitted]
    rfl

/-! ## A request of `node-a` to `node-b` -/

def relaySender : RelayOptions := ⟨bytes "node-a", bytes "relay-secret"⟩
def relayReceiver : RelayOptions := ⟨bytes "node-b", bytes "relay-secret"⟩
def relayNonce : Bytes := bytes "1700000000000000000-4242"

def dashboardRequest : Request where
  method := bytes "GET"
  escapedPath := bytes "/api/v2/dashboard"
  query := []
  header := []
  body := []

def atEpoch (epoch : UInt64) : EpochSource := ⟨some (.ok epoch), .missing⟩

end WorkMesh.Relay
