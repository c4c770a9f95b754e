import WorkMesh.Encoding.Sha256
import WorkMesh.Encoding.Clock
import WorkMesh.Encoding.Header
import WorkMesh.StateMachine.OneTimeKeys

/-!
# Authentication of link requests

Nodes sign the requests they send each other. The server checks the signature
of a request and how old its timestamp is, and refuses a nonce that it has
admitted before. The two halves below are the client of `http_client.go`, as
far as it signs, and `authenticate` of `server_auth.go`.

## Implementation notes

The clock is read before the lock is taken, so the readings of successive
critical sections need not be in order. A call of `authenticate` carries its reading.
-/

namespace WorkMesh.Link

open Encoding StateMachine

def headerNodeID : String := "X-WorkMesh-Node-ID"
def headerTimestamp : String := "X-WorkMesh-Timestamp"
def headerNonce : String := "X-WorkMesh-Nonce"
def headerSignature : String := "X-WorkMesh-Signature"

/-- The parts of a request that authentication reads. -/
structure Request where
  method : Bytes
  requestURI : Bytes
  header : Header
  body : Bytes

/-! ## Signing -/

/-- What a signature covers. -/
def signaturePayload (method path timestamp nonce body : Bytes) : Bytes :=
  method ++ 10 :: path ++ 10 :: timestamp ++ 10 :: nonce ++ 10 :: body

def sign (secret method path timestamp nonce body : Bytes) : Bytes :=
  hexEncode (hmacSha256 secret (signaturePayload method path timestamp nonce body))

/-- A client that holds the secret of the link. -/
structure HTTPClient where
  nodeID : Bytes
  secret : Bytes

/-- The request of one attempt, at a time in seconds and with a fresh nonce. -/
def HTTPClient.doAttempt (c : HTTPClient) (method path body : Bytes) (seconds : Int)
    (nonce : Bytes) : Request :=
  let timestamp := formatInt seconds
  let header := (((Header.set [] "Content-Type" (bytes "application/json")).set
    headerNodeID c.nodeID).set headerTimestamp timestamp).set headerNonce nonce
  { method, requestURI := path, body
    header :=
      if c.secret ≠ [] then
        header.set headerSignature (sign c.secret method path timestamp nonce body)
      else header }

/-! ## Checking -/

structure ServerOptions where
  secret : Bytes
  clockSkew : Int
  nonceTTL : Int

/-- The part of the server that authentication works on. -/
structure Server where
  options : ServerOptions
  nonces : List (Bytes × Time)

def defaultClockSkew : Int := 5 * 60 * 10 ^ 9
def defaultNonceTTL : Int := 10 * 60 * 10 ^ 9

def newServer (options : ServerOptions) : Server where
  options := {
    secret := options.secret
    clockSkew := if options.clockSkew ≤ 0 then defaultClockSkew else options.clockSkew
    nonceTTL := if options.nonceTTL ≤ 0 then defaultNonceTTL else options.nonceTTL }
  nonces := []

/-- The first header of the given names that is not empty. -/
def firstHeader (r : Request) : List String → Bytes
  | [] => []
  | name :: names => if r.header.get name ≠ [] then r.header.get name else firstHeader r names

def Request.timestamp (r : Request) : Bytes := firstHeader r [headerTimestamp, "X-Timestamp"]
def Request.nonce (r : Request) : Bytes := firstHeader r [headerNonce, "X-Nonce"]
def Request.signature (r : Request) : Bytes := firstHeader r [headerSignature, "X-Signature"]
def Request.nodeID (r : Request) : Bytes := firstHeader r [headerNodeID, "X-Node-ID"]

/-- Seconds since the epoch or an RFC 3339 time. -/
def parseTimestamp (value : Bytes) : Option Time :=
  match parseInt value with
  | some seconds => some (.unix seconds)
  | none => parseRFC3339 value

/-- Compares with a signature in hexadecimal or in Base64. -/
def secureEqualSignature (got expected : Bytes) : Bool :=
  let got := trimSpace got
  let want := (hexDecode expected).getD []
  match hexDecode got with
  | some decoded => decoded = want
  | none =>
      match rawURLDecode got <|> stdDecode got with
      | some decoded => decoded = want
      | none => false

/-- What is checked before the nonce: the key under which the nonce is entered, or an error. -/
def checkRequest (o : ServerOptions) (r : Request) (now : Time) : Except String Bytes :=
  if r.timestamp = [] ∨ r.nonce = [] ∨ r.signature = [] then .error "链路签名请求头不完整"
  else match parseTimestamp r.timestamp with
  | none => .error "链路时间戳无效"
  | some timestamp =>
      if now.sub timestamp > o.clockSkew ∨ timestamp.sub now > o.clockSkew then
        .error "链路请求已过期"
      else if secureEqualSignature r.signature
          (sign o.secret r.method r.requestURI r.timestamp r.nonce r.body) = false then
        .error "链路签名无效"
      else if r.nodeID = [] then .error "链路节点身份缺失"
      else .ok (r.nodeID ++ bytes ":" ++ r.nonce)

/-- Checks a request at a reading of the clock. Without a secret every request passes. -/
def authenticate (s : Server) (r : Request) (now : Time) : Server × Except String Unit :=
  if s.options.secret = [] then (s, .ok ())
  else match checkRequest s.options r now with
  | .error err => (s, .error err)
  | .ok key =>
      let (nonces, admitted) :=
        admitKey Time.after now key (now.add s.options.nonceTTL) s.nonces
      ({ s with nonces }, if admitted then .ok () else .error "链路 nonce 已使用")

/-- The HTTP status of an authentication error. -/
def authStatus (err : String) : Nat :=
  if err.toList.tails.any ("nonce".toList.isPrefixOf ·) then 409 else 401

/-! ## What the checks of a request come to -/

section Checks
variable {s : Server} {o : ServerOptions} {r : Request} {now : Time} {key : Bytes}

@[simp] theorem authenticate_options : (authenticate s r now).1.options = s.options := by
  simp only [authenticate]
  split
  · rfl
  · split <;> rfl

theorem authenticate_checked (hsecret : s.options.secret ≠ [])
    (hkey : checkRequest s.options r now = .ok key) :
    authenticate s r now =
      ({ s with nonces := (admitKey Time.after now key (now.add s.options.nonceTTL) s.nonces).1 },
        if (admitKey Time.after now key (now.add s.options.nonceTTL) s.nonces).2 then .ok ()
        else .error "链路 nonce 已使用") := by
  simp only [authenticate, if_neg hsecret, hkey]

theorem authenticate_unchecked {err : String} (hsecret : s.options.secret ≠ [])
    (herr : checkRequest s.options r now = .error err) :
    authenticate s r now = (s, .error err) := by
  simp only [authenticate, if_neg hsecret, herr]

theorem authStatus_checkRequest {err : String} (h : checkRequest o r now = .error err) :
    authStatus err = 401 := by
  simp only [checkRequest] at h
  repeat' split at h
  all_goals cases h
  all_goals decide +kernel

/-- A conflict is answered exactly when a nonce was used before. -/
theorem authStatus_eq_iff {err : String} (h : (authenticate s r now).2 = .error err) :
    authStatus err = 409 ↔ err = "链路 nonce 已使用" := by
  have hused : authStatus "链路 nonce 已使用" = 409 := by decide +kernel
  constructor
  · intro hstatus
    by_cases hsecret : s.options.secret = []
    · simp [authenticate, hsecret] at h
    · cases hcheck : checkRequest s.options r now with
      | error text =>
          rw [authenticate_unchecked hsecret hcheck] at h
          obtain rfl := Except.error.inj h
          rw [authStatus_checkRequest hcheck] at hstatus
          cases hstatus
      | ok key =>
          rw [authenticate_checked hsecret hcheck] at h
          dsimp only at h
          split at h
          · cases h
          · exact (Except.error.inj h).symm
  · rintro rfl
    exact hused

/-- What a request is that passes the checks before the nonce. -/
structure Genuine (o : ServerOptions) (r : Request) (now : Time) : Prop where
  complete : r.timestamp ≠ [] ∧ r.nonce ≠ [] ∧ r.signature ≠ []
  fresh : ∃ t, parseTimestamp r.timestamp = some t ∧
    now.sub t ≤ o.clockSkew ∧ t.sub now ≤ o.clockSkew
  signed : secureEqualSignature r.signature
    (sign o.secret r.method r.requestURI r.timestamp r.nonce r.body) = true
  named : r.nodeID ≠ []

/-- A request that passes the checks is entered under its node and its nonce. -/
theorem checkRequest_ok_iff :
    checkRequest o r now = .ok key ↔
      Genuine o r now ∧ key = r.nodeID ++ bytes ":" ++ r.nonce := by
  constructor
  · intro h
    simp only [checkRequest] at h
    split at h
    · cases h
    · rename_i hcomplete
      split at h
      · cases h
      · rename_i t ht
        split at h
        · cases h
        · rename_i hfresh
          split at h
          · cases h
          · rename_i hsigned
            split at h
            · cases h
            · rename_i hnamed
              push Not at hcomplete hfresh
              exact ⟨⟨hcomplete, ⟨t, ht, hfresh⟩, by simpa using hsigned, hnamed⟩,
                (Except.ok.inj h).symm⟩
  · rintro ⟨⟨⟨htimestamp, hnonce, hsignature⟩, ⟨t, ht, hlate, hearly⟩, hsigned, hnamed⟩, rfl⟩
    simp [checkRequest, htimestamp, hnonce, hsignature, ht, Int.not_lt.mpr hlate,
      Int.not_lt.mpr hearly, hsigned, hnamed]

end Checks

/-! ## Requests of a client -/

theorem secureEqualSignature_sign (secret method path timestamp nonce body : Bytes) :
    secureEqualSignature (sign secret method path timestamp nonce body)
      (sign secret method path timestamp nonce body) = true := by
  rw [sign, secureEqualSignature, trimSpace_of_printable (hexEncode_printable _),
    hexDecode_hexEncode]
  simp

theorem sign_ne_nil (secret method path timestamp nonce body : Bytes) :
    sign secret method path timestamp nonce body ≠ [] := by
  intro h
  have hlength := hmacSha256_length secret (signaturePayload method path timestamp nonce body)
  rw [hexEncode_eq_nil.mp h] at hlength
  cases hlength

section Client
variable {c : HTTPClient} {method path body nonce : Bytes} {seconds : Int}

/-- The headers that a client sends. -/
theorem doAttempt_get (hsecret : c.secret ≠ []) :
    (c.doAttempt method path body seconds nonce).header.get headerTimestamp = formatInt seconds ∧
    (c.doAttempt method path body seconds nonce).header.get headerNonce = nonce ∧
    (c.doAttempt method path body seconds nonce).header.get headerSignature =
      sign c.secret method path (formatInt seconds) nonce body ∧
    (c.doAttempt method path body seconds nonce).header.get headerNodeID = c.nodeID := by
  simp only [HTTPClient.doAttempt, if_pos hsecret]
  refine ⟨?_, ?_, ?_, ?_⟩
  · rw [Header.get_set_of_ne (by decide +kernel), Header.get_set_of_ne (by decide +kernel),
      Header.get_set_self]
  · rw [Header.get_set_of_ne (by decide +kernel), Header.get_set_self]
  · rw [Header.get_set_self]
  · rw [Header.get_set_of_ne (by decide +kernel), Header.get_set_of_ne (by decide +kernel),
      Header.get_set_of_ne (by decide +kernel), Header.get_set_self]

theorem firstHeader_of_get {r : Request} {name : String} {names : List String}
    (h : r.header.get name ≠ []) : firstHeader r (name :: names) = r.header.get name := by
  rw [firstHeader, if_pos h]

/-- A server that shares the secret takes the request of a client for genuine,
while the clocks agree within the skew. -/
theorem genuine_doAttempt {o : ServerOptions} {now : Time} (hsecret : c.secret ≠ [])
    (hshared : o.secret = c.secret) (hnode : c.nodeID ≠ []) (hnonce : nonce ≠ [])
    (hlow : -2 ^ 63 ≤ seconds) (hhigh : seconds < 2 ^ 63)
    (hlate : now.sub (.unix seconds) ≤ o.clockSkew)
    (hearly : (Time.unix seconds).sub now ≤ o.clockSkew) :
    Genuine o (c.doAttempt method path body seconds nonce) now := by
  obtain ⟨hgetTimestamp, hgetNonce, hgetSignature, hgetNode⟩ :=
    @doAttempt_get c method path body nonce seconds hsecret
  have htimestamp : (c.doAttempt method path body seconds nonce).timestamp = formatInt seconds := by
    rw [Request.timestamp, firstHeader_of_get, hgetTimestamp]
    rw [hgetTimestamp]
    exact formatInt_ne_nil _
  have hfirstNonce : (c.doAttempt method path body seconds nonce).nonce = nonce := by
    rw [Request.nonce, firstHeader_of_get, hgetNonce]
    rwa [hgetNonce]
  have hsignature : (c.doAttempt method path body seconds nonce).signature =
      sign c.secret method path (formatInt seconds) nonce body := by
    rw [Request.signature, firstHeader_of_get, hgetSignature]
    rw [hgetSignature]
    exact sign_ne_nil _ _ _ _ _ _
  have hnodeID : (c.doAttempt method path body seconds nonce).nodeID = c.nodeID := by
    rw [Request.nodeID, firstHeader_of_get, hgetNode]
    rwa [hgetNode]
  refine ⟨⟨?_, ?_, ?_⟩, ⟨.unix seconds, ?_, hlate, hearly⟩, ?_, ?_⟩
  · rw [htimestamp]
    exact formatInt_ne_nil _
  · rwa [hfirstNonce]
  · rw [hsignature]
    exact sign_ne_nil _ _ _ _ _ _
  · rw [htimestamp, parseTimestamp, parseInt_formatInt hlow hhigh]
  · rw [hsignature, htimestamp, hfirstNonce, hshared]
    exact secureEqualSignature_sign _ _ _ _ _ _
  · rwa [hnodeID]

end Client

end WorkMesh.Link
