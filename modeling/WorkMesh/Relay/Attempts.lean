import WorkMesh.Encoding.Cookie
import WorkMesh.Encoding.Search
import WorkMesh.Relay.Forwarding

/-!
# Attempts of a relay

The relay hands a request to an HTTP client, again if that failed and the
request can be replayed, and writes one answer to its own client. The HTTP
client follows redirects, and sends a request once more when a connection that
was used before is lost. So a request that the relay hands over once can be sent
more than once.

## Implementation notes

What the HTTP client does is its documented behaviour without `CheckRedirect`.
A trip is one request on the wire; requests of which nothing was written are
none. Trips that are not there are those for which the context left no time.
-/

namespace WorkMesh.Relay

open Encoding

def maxRelayBody : ℕ := 8 * 2 ^ 20
def maxRelayResponse : ℕ := 8 * 2 ^ 20

/-! ## The HTTP client -/

/-- An answer from the wire, with what each reading of its body gives. -/
structure Response where
  status : ℕ
  header : Header := []
  /-- The address of a redirect cannot be parsed. -/
  badLocation : Option String := none
  body : List Bytes := []
  bodyError : Option String := none

inductive Trip where
  | failed (e : String)
  /-- The connection had carried a request before, and is lost before an answer begins. -/
  | lost (e : String)
  | answered (response : Response)

/-- A header has a value, perhaps a blank one, under a name. -/
def carries (header : Header) (name : String) : Bool :=
  header.any fun entry => entry.1 == name && !entry.2.isEmpty

/-- Requests that are sent again when their connection is lost. -/
def isReplayable (method : Bytes) (header : Header) : Bool :=
  method ∈ [bytes "GET", bytes "HEAD", bytes "OPTIONS", bytes "TRACE"] ||
    carries header "Idempotency-Key" || carries header "X-Idempotency-Key"

/-- The method with which a redirect is followed. -/
def redirectMethod (method : Bytes) (status : ℕ) : Option Bytes :=
  if status ∈ [301, 302, 303] then
    some (if method ∈ [bytes "GET", bytes "HEAD"] then method else bytes "GET")
  else if status ∈ [307, 308] then some method
  else none

/-- `Client.Do`: the methods of the requests that were sent, and what it returns. `via` counts
the requests that redirects have led to. -/
def clientDo (header : Header) : ℕ → Bytes → List Trip → List Bytes × Except String Response
  | _, _, [] => ([], .error "context deadline exceeded")
  | _, method, .failed e :: _ => ([method], .error e)
  | via, method, .lost e :: trips =>
      if isReplayable method header then
        let (sent, result) := clientDo header via method trips
        (method :: sent, result)
      else ([method], .error e)
  | via, method, .answered response :: trips =>
      match redirectMethod method response.status with
      | none => ([method], .ok response)
      | some next =>
          if response.header.get "Location" = [] then ([method], .ok response)
          else
          match response.badLocation with
          | some e => ([method], .error e)
          | none =>
              if 10 ≤ via + 1 then ([method], .error "stopped after 10 redirects")
              else
                let (sent, result) := clientDo header (via + 1) next trips
                (method :: sent, result)

/-! ## The relay -/

/-- What is called on the writer of an answer. -/
inductive WriterCall where
  | writeHeader (status : ℕ) (header : Header)
  | write (data : Bytes)

/-- The writer of an answer: whether it can flush, how many pieces it takes before a write
fails, and the text of an error. -/
structure ResponseWriter where
  flusher : Bool
  accepts : ℕ
  envelope : String → Bytes

structure RelaySettings extends RelayOptions where
  maxRetries : ℕ

/-- A request as the relay finds it: the address of the node, and whether its body can be
read. -/
structure Incoming where
  request : Request
  base : Except String Bytes
  bodyError : Option String := none

/-- What the environment does in one attempt, and while the relay waits for the next. -/
structure Attempt where
  source : EpochSource
  seconds : Int
  nonce : Bytes
  /-- The address makes no request. -/
  invalid : Option String := none
  trips : List Trip
  waiting : Option String := none

def relayRequestReplaySafe (req : Request) : Bool :=
  if req.method ∈ [bytes "GET", bytes "HEAD", bytes "OPTIONS"] then true
  else trimSpace (req.header.get "Idempotency-Key") ≠ []

def relayEventStreamRequest (req : Request) : Bool :=
  containsText (toLower (req.header.get "Accept")) (bytes "text/event-stream")

/-- The headers of an answer that are passed on. -/
def relayedHeader (header : Header) : Header := header.filter fun entry => !isHopByHopHeader entry.1

def relayEventStream (w : ResponseWriter) (response : Response) :
    List WriterCall × Option String :=
  if w.flusher = false then ([], some "当前服务器不支持 SSE 刷新")
  else
    (.writeHeader response.status
        ((relayedHeader response.header).filter fun entry => entry.1 ≠ "Content-Length") ::
      -- a piece that cannot be written is the last
      ((response.body.filter (· ≠ [])).take (w.accepts + 1)).map .write, none)

/-- The answer is read as a whole before anything is written. -/
def relayResponse (response : Response) : List WriterCall × Option String :=
  let data := response.body.flatten
  if data.length > maxRelayResponse then ([], some "节点透传响应超过 8 MiB 限制")
  else
  match response.bodyError with
  | some e => ([], some ("读取节点透传响应失败: " ++ e))
  | none => ([.writeHeader response.status (relayedHeader response.header), .write data], none)

/-- The errors of a relay, of which one has its own status. -/
inductive RelayError where
  | bodyTooLarge
  | other (message : String)
deriving DecidableEq

def RelayError.message : RelayError → String
  | .bodyTooLarge => "节点透传请求体超过 8 MiB 限制"
  | .other message => message

/-- What a relay has done: how often it called the HTTP client, the methods of the requests that
were sent, what it wrote and how it ended. -/
structure Relayed where
  calls : ℕ := 0
  sent : List Bytes := []
  written : List WriterCall := []
  error : Option RelayError := none

/-- `forwardAttempt`, with the request that it makes. -/
def relayAttempt (o : RelayOptions) (w : ResponseWriter) (req : Request) (e : Attempt) :
    Relayed :=
  match e.invalid with
  | some message => { error := some (.other ("创建节点透传请求失败: " ++ message)) }
  | none =>
  match forwardAttempt o e.source req e.seconds e.nonce with
  | .error message => { error := some (.other message) }
  | .ok outgoing =>
  match clientDo outgoing.header 0 outgoing.method e.trips with
  | (sent, .error message) =>
      { calls := 1, sent, error := some (.other ("节点透传请求失败: " ++ message)) }
  | (sent, .ok response) =>
      let (written, error) :=
        if relayEventStreamRequest req ∧
            containsText (toLower (response.header.get "Content-Type"))
              (bytes "text/event-stream") then
          relayEventStream w response
        else relayResponse response
      { calls := 1, sent, written, error := error.map .other }

/-- One attempt after another, with so many left after this one. -/
def attempts (o : RelayOptions) (w : ResponseWriter) (req : Request) (env : ℕ → Attempt) :
    ℕ → ℕ → Relayed
  | attempt, 0 => relayAttempt o w req (env attempt)
  | attempt, left + 1 =>
      let first := relayAttempt o w req (env attempt)
      if first.error = none then first
      else
      match (env attempt).waiting with
      | some message => { first with error := some (.other message) }
      | none =>
          let rest := attempts o w req env (attempt + 1) left
          { calls := first.calls + rest.calls
            sent := first.sent ++ rest.sent
            written := first.written ++ rest.written
            error := rest.error }

def forward (o : RelaySettings) (w : ResponseWriter) (i : Incoming) (env : ℕ → Attempt) :
    Relayed :=
  match i.base with
  | .error message => { error := some (.other message) }
  | .ok _ =>
      if i.request.body.length > maxRelayBody then { error := some .bodyTooLarge }
      else
      match i.bodyError with
      | some message => { error := some (.other ("读取节点透传请求失败: " ++ message)) }
      | none =>
          attempts o.toRelayOptions w i.request env 0
            (if relayRequestReplaySafe i.request ∧ relayEventStreamRequest i.request = false then
              o.maxRetries else 0)

/-- The end of `ServeHTTP` for a request to another node. -/
def serveHTTP (o : RelaySettings) (w : ResponseWriter) (i : Incoming) (env : ℕ → Attempt) :
    Relayed :=
  let relayed := forward o w i env
  match relayed.error with
  | none => relayed
  | some error =>
      let status := if error = .bodyTooLarge then 413 else 502
      { relayed with
          written := relayed.written ++
            [.writeHeader status [("Content-Type", [bytes "application/json; charset=utf-8"])],
              .write (w.envelope error.message)] }

/-! ## One answer -/

/-- One status, and pieces of one body behind it. -/
def OneResponse (written : List WriterCall) : Prop :=
  ∃ (status : ℕ) (header : Header) (pieces : List Bytes),
    written = .writeHeader status header :: pieces.map .write

/-- What is written when there is no error, and nothing is when there is. -/
def Clean (written : List WriterCall) (failed : Prop) : Prop :=
  (failed → written = []) ∧ (¬ failed → OneResponse written)

theorem relayEventStream_clean (w : ResponseWriter) (response : Response) :
    Clean (relayEventStream w response).1 ((relayEventStream w response).2 ≠ none) := by
  rw [relayEventStream]
  split
  · simp [Clean]
  · exact ⟨fun h => absurd rfl h, fun _ => ⟨_, _, _, rfl⟩⟩

theorem relayResponse_clean (response : Response) :
    Clean (relayResponse response).1 ((relayResponse response).2 ≠ none) := by
  rw [relayResponse]
  split
  · simp [Clean]
  · cases response.bodyError with
    | some message => simp [Clean]
    | none => exact ⟨fun h => absurd rfl h, fun _ => ⟨_, _, [response.body.flatten], rfl⟩⟩

section

variable (o : RelayOptions) (w : ResponseWriter) (req : Request)

/-- An attempt writes nothing when it fails, and one answer when it does not. -/
theorem relayAttempt_clean (e : Attempt) :
    Clean (relayAttempt o w req e).written ((relayAttempt o w req e).error ≠ none) := by
  rw [relayAttempt]
  cases e.invalid with
  | some message => simp [Clean]
  | none =>
      cases forwardAttempt o e.source req e.seconds e.nonce with
      | error message => simp [Clean]
      | ok outgoing =>
          dsimp only
          obtain ⟨sent, result⟩ := clientDo outgoing.header 0 outgoing.method e.trips
          cases result with
          | error message => simp [Clean]
          | ok response =>
              dsimp only
              split
              · simpa using relayEventStream_clean w response
              · simpa using relayResponse_clean response

/-- No attempt follows one that has written. -/
theorem attempts_clean (env : ℕ → Attempt) (left : ℕ) : ∀ attempt,
    Clean (attempts o w req env attempt left).written
      ((attempts o w req env attempt left).error ≠ none) := by
  induction left with
  | zero => exact fun attempt => relayAttempt_clean o w req (env attempt)
  | succ left ih =>
      intro attempt
      have hfirst := relayAttempt_clean o w req (env attempt)
      rw [attempts]
      generalize relayAttempt o w req (env attempt) = first at hfirst ⊢
      dsimp only
      split
      · exact hfirst
      · rename_i hfailed
        have hnothing : first.written = [] := hfirst.1 hfailed
        cases (env attempt).waiting with
        | some message => simp [Clean, hnothing]
        | none => simpa [hnothing] using ih (attempt + 1)

end

theorem forward_clean (o : RelaySettings) (w : ResponseWriter) (i : Incoming) (env : ℕ → Attempt) :
    Clean (forward o w i env).written ((forward o w i env).error ≠ none) := by
  rw [forward]
  cases i.base with
  | error message => simp [Clean]
  | ok base =>
      dsimp only
      split
      · simp [Clean]
      · cases i.bodyError with
        | some message => simp [Clean]
        | none => exact attempts_clean _ _ _ _ _ _

/-- A request to another node has one answer. -/
theorem serveHTTP_oneResponse (o : RelaySettings) (w : ResponseWriter) (i : Incoming)
    (env : ℕ → Attempt) : OneResponse (serveHTTP o w i env).written := by
  have hclean := forward_clean o w i env
  rw [serveHTTP]
  cases herror : (forward o w i env).error with
  | none => exact hclean.2 (by simp [herror])
  | some error =>
      have hnothing : (forward o w i env).written = [] := hclean.1 (by simp [herror])
      exact ⟨if error = .bodyTooLarge then 413 else 502,
        [("Content-Type", [bytes "application/json; charset=utf-8"])],
        [w.envelope error.message], by simp [hnothing]⟩

/-! ## One request -/

/-- Requests that the relay does not send again on its own. -/
def Unrepeatable (req : Request) : Prop :=
  relayRequestReplaySafe req = false ∨ relayEventStreamRequest req = true

/-- The request is sent again, with its method, after its first trip. -/
def Resent (method : Bytes) (header : Header) : List Trip → Prop
  | .lost _ :: _ :: _ => isReplayable method header = true
  | .answered response :: _ :: _ =>
      redirectMethod method response.status = some method ∧
        response.header.get "Location" ≠ [] ∧ response.badLocation = none
  | _ => False

@[simp] theorem redirectMethod_get (status : ℕ) :
    redirectMethod (bytes "GET") status = none ∨
      redirectMethod (bytes "GET") status = some (bytes "GET") := by
  rw [redirectMethod]
  split
  · simp
  · split
    · simp
    · simp

/-- Redirects of a request for a page ask for pages. -/
theorem clientDo_get (header : Header) (trips : List Trip) : ∀ via,
    ∀ method ∈ (clientDo header via (bytes "GET") trips).1, method = bytes "GET" := by
  induction trips with
  | nil => simp [clientDo]
  | cons trip trips ih =>
      intro via
      cases trip with
      | failed e => simp [clientDo]
      | lost e =>
          rw [clientDo]
          split
          · simpa using ih via
          · simp
      | answered response =>
          rw [clientDo]
          obtain hstays | hfollows := redirectMethod_get response.status
          · simp [hstays]
          · rw [hfollows]
            dsimp only
            split
            · simp
            · cases response.badLocation with
              | some e => simp
              | none =>
                  dsimp only
                  split
                  · simp
                  · simpa using ih (via + 1)

/-- A request that has a trip is sent. -/
theorem head?_clientDo (header : Header) (via : ℕ) (method : Bytes) (trip : Trip)
    (trips : List Trip) :
    ∃ rest, (clientDo header via method (trip :: trips)).1 = method :: rest := by
  cases trip with
  | failed e => exact ⟨[], rfl⟩
  | lost e =>
      rw [clientDo]
      split
      · exact ⟨_, rfl⟩
      · exact ⟨[], rfl⟩
  | answered response =>
      rw [clientDo]
      cases redirectMethod method response.status with
      | none => exact ⟨[], rfl⟩
      | some next =>
          dsimp only
          split
          · exact ⟨[], rfl⟩
          · cases response.badLocation with
            | some e => exact ⟨[], rfl⟩
            | none =>
                dsimp only
                split
                · exact ⟨[], rfl⟩
                · exact ⟨_, rfl⟩

/-- A redirect keeps the method, or asks for a page. -/
theorem redirectMethod_some {method next : Bytes} {status : ℕ}
    (h : redirectMethod method status = some next) : next = method ∨ next = bytes "GET" := by
  rw [redirectMethod] at h
  split at h
  · rw [← Option.some.inj h]
    split
    · exact .inl rfl
    · exact .inr rfl
  · split at h
    · exact .inl (Option.some.inj h).symm
    · cases h

/-- The request is sent once more if there is another trip. -/
theorem count_cons_clientDo_iff (header : Header) (via : ℕ) (method : Bytes) (trips : List Trip) :
    (method :: (clientDo header via method trips).1).count method ≤ 1 ↔ trips = [] := by
  cases trips with
  | nil => simp [clientDo]
  | cons trip trips =>
      obtain ⟨rest, hrest⟩ := head?_clientDo header via method trip trips
      rw [hrest]
      simp

/-- A call of the client sends a request more than once just when it is sent again after its
first trip: a redirect that does not keep the method never leads back to it. -/
theorem count_clientDo_le_iff (header : Header) (method : Bytes) (trips : List Trip) :
    (clientDo header 0 method trips).1.count method ≤ 1 ↔ ¬ Resent method header trips := by
  cases trips with
  | nil => simp [clientDo, Resent]
  | cons trip trips =>
      cases trip with
      | failed e => simp [clientDo, Resent]
      | lost e =>
          rw [clientDo]
          split
          · rename_i hreplayable
            rw [count_cons_clientDo_iff]
            cases trips with
            | nil => simp [Resent]
            | cons next trips => simp [Resent, hreplayable]
          · rename_i hreplayable
            cases trips with
            | nil => simp [Resent]
            | cons next trips => simp [Resent, hreplayable]
      | answered response =>
          rw [clientDo]
          have hresent : Resent method header (.answered response :: trips) ↔
              trips ≠ [] ∧ redirectMethod method response.status = some method ∧
                response.header.get "Location" ≠ [] ∧ response.badLocation = none := by
            cases trips with
            | nil => simp [Resent]
            | cons next trips => simp [Resent]
          rw [hresent]
          cases hnext : redirectMethod method response.status with
          | none => simp
          | some next =>
              dsimp only
              split
              · rename_i hlocation
                simp [hlocation]
              · rename_i hlocation
                cases response.badLocation with
                | some e => simp
                | none =>
                    simp only [hlocation, ne_eq, not_false_eq_true, Nat.reduceAdd,
                      Nat.reduceLeDiff, if_false, and_true]
                    by_cases hsame : next = method
                    · rw [hsame, count_cons_clientDo_iff]
                      simp
                    · have hget : next = bytes "GET" :=
                        (redirectMethod_some hnext).resolve_left hsame
                      have hnever : method ∉ (clientDo header 1 next trips).1 := by
                        intro hmem
                        rw [hget] at hmem hsame
                        exact hsame (clientDo_get header trips 1 method hmem).symm
                      simp [List.count_eq_zero.mpr hnever, hsame]

/-! ### The headers of an attempt -/

theorem carries_filter {header : Header} {name : String} {keeps : String × List Bytes → Bool}
    (h : ∀ values, keeps (name, values) = true) :
    carries (header.filter keeps) name = carries header name := by
  rw [carries, carries, List.any_filter]
  congr 1
  funext entry
  by_cases hname : entry.1 = name
  · have hkept : keeps entry = true := by
      rw [← Prod.mk.eta (p := entry), hname]
      exact h entry.2
    simp [hkept]
  · simp [hname]

theorem carries_set {header : Header} {name other : String} (value : Bytes)
    (h : canonicalHeaderKey other ≠ name) :
    carries (header.set other value) name = carries header name := by
  have hfilter : carries (header.filter fun entry => entry.1 ≠ canonicalHeaderKey other) name =
      carries header name := carries_filter fun values => by simpa using h.symm
  rw [← hfilter, Header.set, carries, carries, List.any_cons]
  simp [h]

/-- A name that the relay neither drops nor writes. -/
structure PassedOn (name : String) : Prop where
  copied : !(name.toLower == "host" || "x-workmesh-".toList.isPrefixOf name.toLower.toList ||
    isHopByHopHeader name)
  unwritten : ∀ other ∈ ["X-WorkMesh-Forwarded", "X-WorkMesh-Node-ID", "X-WorkMesh-Role-Epoch",
    "X-WorkMesh-Timestamp", "X-WorkMesh-Nonce", "X-WorkMesh-Signature"],
    canonicalHeaderKey other ≠ name

theorem carries_forwardAttempt {o : RelayOptions} {source : EpochSource} {req outgoing : Request}
    {seconds : Int} {nonce : Bytes} (h : forwardAttempt o source req seconds nonce = .ok outgoing)
    {name : String} (hname : PassedOn name) :
    carries outgoing.header name = carries req.header name := by
  have hset (header : Header) (value : Bytes) {other : String}
      (hother : other ∈ ["X-WorkMesh-Forwarded", "X-WorkMesh-Node-ID", "X-WorkMesh-Role-Epoch",
        "X-WorkMesh-Timestamp", "X-WorkMesh-Nonce", "X-WorkMesh-Signature"]) :
      carries (header.set other value) name = carries header name :=
    carries_set value (hname.unwritten other hother)
  have hcopied : carries (copyRelayHeaders req.header) name = carries req.header name :=
    carries_filter fun _ => hname.copied
  rw [forwardAttempt] at h
  cases hepoch : currentEpoch source with
  | error message => simp [hepoch] at h
  | ok epoch =>
      simp only [hepoch, Except.ok.injEq] at h
      rw [← h]
      dsimp only
      split
      · rw [hset _ _ (by simp), hset _ _ (by simp), hset _ _ (by simp), hset _ _ (by simp),
          hset _ _ (by simp), hset _ _ (by simp), hcopied]
      · rw [hset _ _ (by simp), hset _ _ (by simp), hset _ _ (by simp), hset _ _ (by simp),
          hset _ _ (by simp), hcopied]

theorem method_forwardAttempt {o : RelayOptions} {source : EpochSource} {req outgoing : Request}
    {seconds : Int} {nonce : Bytes}
    (h : forwardAttempt o source req seconds nonce = .ok outgoing) :
    outgoing.method = req.method := by
  rw [forwardAttempt] at h
  cases hepoch : currentEpoch source with
  | error message => simp [hepoch] at h
  | ok epoch =>
      simp only [hepoch, Except.ok.injEq] at h
      rw [← h]

theorem passedOn_idempotencyKey : PassedOn "Idempotency-Key" :=
  ⟨by decide +kernel, by decide +kernel⟩

theorem passedOn_xIdempotencyKey : PassedOn "X-Idempotency-Key" :=
  ⟨by decide +kernel, by decide +kernel⟩

/-- The HTTP client takes the request of an attempt for one that can be sent again just when
it would take the request of the relay's own client for one. -/
theorem resent_forwardAttempt_iff {o : RelayOptions} {source : EpochSource}
    {req outgoing : Request} {seconds : Int} {nonce : Bytes}
    (h : forwardAttempt o source req seconds nonce = .ok outgoing) (trips : List Trip) :
    Resent outgoing.method outgoing.header trips ↔ Resent req.method req.header trips := by
  have hreplayable : isReplayable outgoing.method outgoing.header =
      isReplayable req.method req.header := by
    rw [isReplayable, isReplayable, method_forwardAttempt h,
      carries_forwardAttempt h passedOn_idempotencyKey,
      carries_forwardAttempt h passedOn_xIdempotencyKey]
  rw [method_forwardAttempt h] at hreplayable ⊢
  unfold Resent
  rw [hreplayable]

/-! ### What is sent -/

/-- The request goes out in an attempt. -/
structure GoesOut (i : Incoming) (e : Attempt) : Prop where
  base : ∃ base, i.base = .ok base
  body : i.request.body.length ≤ maxRelayBody ∧ i.bodyError = none
  valid : e.invalid = none
  epoch : ∃ epoch, currentEpoch e.source = .ok epoch

section

variable (o : RelaySettings) (w : ResponseWriter) (i : Incoming) (env : ℕ → Attempt)

theorem relayAttempt_calls_le (req : Request) (e : Attempt) :
    (relayAttempt o.toRelayOptions w req e).calls ≤ 1 := by
  rw [relayAttempt]
  cases e.invalid with
  | some message => simp
  | none =>
      cases forwardAttempt o.toRelayOptions e.source req e.seconds e.nonce with
      | error message => simp
      | ok outgoing =>
          dsimp only
          obtain ⟨sent, result⟩ := clientDo outgoing.header 0 outgoing.method e.trips
          cases result with
          | error message => simp
          | ok response => simp

/-- How often an attempt sends the request. -/
theorem count_relayAttempt_le_iff (req : Request) (e : Attempt) :
    (relayAttempt o.toRelayOptions w req e).sent.count req.method ≤ 1 ↔
      (e.invalid = none → (∃ epoch, currentEpoch e.source = .ok epoch) →
        ¬ Resent req.method req.header e.trips) := by
  rw [relayAttempt]
  cases hinvalid : e.invalid with
  | some message => simp
  | none =>
      cases hattempt : forwardAttempt o.toRelayOptions e.source req e.seconds e.nonce with
      | error message =>
          have hepoch : ¬ ∃ epoch, currentEpoch e.source = .ok epoch := by
            rintro ⟨epoch, hok⟩
            simp [forwardAttempt, hok] at hattempt
          simp [hepoch]
      | ok outgoing =>
          have hepoch : ∃ epoch, currentEpoch e.source = .ok epoch := by
            cases hsource : currentEpoch e.source with
            | error message => simp [forwardAttempt, hsource] at hattempt
            | ok epoch => exact ⟨epoch, rfl⟩
          have hcount := count_clientDo_le_iff outgoing.header outgoing.method e.trips
          rw [resent_forwardAttempt_iff hattempt] at hcount
          simp only [hepoch, true_imp_iff]
          rw [← hcount, ← method_forwardAttempt hattempt]
          obtain ⟨sent, result⟩ := clientDo outgoing.header 0 outgoing.method e.trips
          cases result with
          | error message => exact Iff.rfl
          | ok response => exact Iff.rfl

/-- A request that cannot be replayed has one attempt. -/
theorem forward_unrepeatable (hunrepeatable : Unrepeatable i.request) :
    ((∃ base, i.base = .ok base) ∧ (i.request.body.length ≤ maxRelayBody ∧ i.bodyError = none) ∧
        forward o w i env = relayAttempt o.toRelayOptions w i.request (env 0)) ∨
      (¬ GoesOut i (env 0) ∧ (forward o w i env).calls = 0 ∧ (forward o w i env).sent = []) := by
  rw [forward]
  cases hbase : i.base with
  | error message =>
      right
      refine ⟨fun h => ?_, rfl, rfl⟩
      obtain ⟨base, hok⟩ := h.base
      rw [hbase] at hok
      cases hok
  | ok base =>
      dsimp only
      split
      · rename_i hlong
        exact .inr ⟨fun h => absurd h.body.1 (by omega), rfl, rfl⟩
      · cases herror : i.bodyError with
        | some message =>
            right
            refine ⟨fun h => ?_, rfl, rfl⟩
            have hread := h.body.2
            rw [herror] at hread
            cases hread
        | none =>
            left
            refine ⟨⟨base, rfl⟩, ⟨by omega, rfl⟩, ?_⟩
            dsimp only
            rw [if_neg]
            · rfl
            · rintro ⟨hsafe, hstream⟩
              obtain hkeyless | hevents := hunrepeatable
              · simp [hkeyless] at hsafe
              · simp [hevents] at hstream

@[simp] theorem serveHTTP_calls : (serveHTTP o w i env).calls = (forward o w i env).calls := by
  rw [serveHTTP]
  cases (forward o w i env).error with
  | none => rfl
  | some error => rfl

@[simp] theorem serveHTTP_sent : (serveHTTP o w i env).sent = (forward o w i env).sent := by
  rw [serveHTTP]
  cases (forward o w i env).error with
  | none => rfl
  | some error => rfl

/-- The relay hands a request that cannot be replayed to its HTTP client at most once. -/
theorem serveHTTP_calls_le (hunrepeatable : Unrepeatable i.request) :
    (serveHTTP o w i env).calls ≤ 1 := by
  rw [serveHTTP_calls]
  obtain ⟨_, _, hattempt⟩ | ⟨_, hcalls, _⟩ := forward_unrepeatable o w i env hunrepeatable
  · rw [hattempt]
    exact relayAttempt_calls_le o w i.request (env 0)
  · omega

theorem count_forward_le_iff (hunrepeatable : Unrepeatable i.request) :
    (forward o w i env).sent.count i.request.method ≤ 1 ↔
      (GoesOut i (env 0) → ¬ Resent i.request.method i.request.header (env 0).trips) := by
  obtain ⟨hbase, hbody, hattempt⟩ | ⟨hstays, _, hsent⟩ :=
    forward_unrepeatable o w i env hunrepeatable
  · rw [hattempt, count_relayAttempt_le_iff]
    constructor
    · intro h hout
      exact h hout.valid hout.epoch
    · intro h hvalid hepoch
      exact h ⟨hbase, hbody, hvalid, hepoch⟩
  · simp [hsent, hstays]

/-- A request that cannot be replayed is sent at most once, and every request has one answer, just
when the HTTP client does not send it again after its first trip. -/
theorem relay_once_iff :
    ((Unrepeatable i.request → (serveHTTP o w i env).sent.count i.request.method ≤ 1) ∧
        OneResponse (serveHTTP o w i env).written) ↔
      (Unrepeatable i.request → GoesOut i (env 0) →
        ¬ Resent i.request.method i.request.header (env 0).trips) := by
  rw [serveHTTP_sent, and_iff_left (serveHTTP_oneResponse o w i env)]
  exact forall_congr' fun hunrepeatable => count_forward_le_iff o w i env hunrepeatable

end

/-! ### A redirect -/

/-- A write without a key of its own. -/
def createWebsite : Incoming where
  request := { method := bytes "POST", escapedPath := bytes "/api/v2/websites", query := []
               header := [], body := bytes "\x7b\x7d" }
  base := .ok (bytes "http://node-b:9999")

/-- Another node answers a write with the place where it is to be sent. -/
def movedWrite : Attempt where
  source := atEpoch 1
  seconds := 0
  nonce := relayNonce
  trips := [.answered { status := 307, header := [("Location", [bytes "/api/v2/sites"])] },
    .answered { status := 200 }]

/-- A write that is redirected is sent twice, although its method is not one of those that are
replayed and it has no key. -/
theorem redirected_write_sent_twice :
    ¬ ∀ (o : RelaySettings) (w : ResponseWriter) (i : Incoming) (env : ℕ → Attempt),
      (Unrepeatable i.request → (serveHTTP o w i env).sent.count i.request.method ≤ 1) ∧
        OneResponse (serveHTTP o w i env).written := by
  intro h
  have honce := (h ⟨relaySender, 1⟩ ⟨true, 0, bytes⟩ createWebsite fun _ => movedWrite).1
    (.inl (by decide +kernel))
  exact absurd honce (by decide +kernel)

end WorkMesh.Relay
