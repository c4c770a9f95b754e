import WorkMesh.Encoding.Url
import WorkMesh.Link.Replay
import WorkMesh.Relay.Forwarding

/-!
# Where a forwarded request goes

A request is forwarded over HTTP to the address of the other node with the path
of the client behind it. The upgrade to a WebSocket is asked for at that path
alone, over a connection of its own to the host and port as they are written.
The receiver checks the signature against the path and the query that it finds.
This module is `relayBaseURL`, the two ways to send, and when the receiver sees
what the client asked for.

## Implementation notes

A base URL is the text behind the host. The names that a client of HTTP looks up
are given by a function, which writes names of other scripts in letters.
-/

namespace WorkMesh.Relay

open Encoding
open WorkMesh.Link (sign atSecond)

/-! ## Targets of a request -/

/-- What a server finds in a request line. -/
structure Target where
  path : UrlPath
  rawQuery : Bytes
deriving DecidableEq

def beforeMark (text : Bytes) : Bytes := text.takeWhile (· ≠ 63)
def afterMark (text : Bytes) : Bytes := (text.dropWhile (· ≠ 63)).tail

/-- `url.ParseRequestURI` where no scheme is written. -/
def parseTarget (uri : Bytes) : Option Target :=
  if uri = bytes "*" then some ⟨⟨bytes "*", []⟩, []⟩
  else if uri.head? = some 47 then (setPath (beforeMark uri)).map (⟨·, afterMark uri⟩)
  else none

/-- A target that a client can ask for. Only one with a host can be without a path. -/
def Target.Incoming (t : Target) : Prop :=
  (∃ uri, parseTarget uri = some t) ∨ t.path = ⟨[], []⟩

/-- The request has the path and the query of a target. -/
def Request.Parsed (r : Request) : Prop :=
  ∃ t : Target, t.Incoming ∧ r.escapedPath = t.path.escapedPath ∧ r.query = parseQuery t.rawQuery

/-! ## Addresses of nodes -/

/-- The address of a node as `url.Parse` splits it: the scheme, the host, what stands behind the
colon of a port, the path, and whether a question mark with nothing behind it ends the address. -/
structure NodeURL where
  https : Bool
  host : Bytes
  port : Option Bytes
  path : Bytes
  forceQuery : Bool
  rooted : path = [] ∨ path.head? = some 47

def relayBaseURL (node : NodeURL) : Option Bytes :=
  if node.host = [] ∧ node.port = none then none
  else
    (setPath node.path).map fun u =>
      if node.forceQuery then u.escapedPath ++ bytes "?" else trimSlashes u.escapedPath

/-- The port that a URL means. -/
def NodeURL.meantPort (node : NodeURL) : Bytes :=
  if node.port.getD [] = [] then if node.https then bytes "443" else bytes "80"
  else node.port.getD []

/-- Where the server of the node is found: where a URL with its address leads. -/
def NodeURL.server (names : Bytes → Bytes) (node : NodeURL) : Bytes × Bytes :=
  (names node.host, node.meantPort)

def withRawQuery (path rawQuery : Bytes) : Bytes :=
  if rawQuery ≠ [] then path ++ bytes "?" ++ rawQuery else path

/-- `URL.RequestURI` of the URL with this text behind the host. A path that does not start with a
slash has become part of the host. -/
def requestURI (text : Bytes) : Option Bytes :=
  if beforeMark text = [] ∨ (beforeMark text).head? = some 47 then
    (setPath (beforeMark text)).map fun u =>
      withRawQuery (rootedPath u.escapedPath) (afterMark text)
  else none

/-! ## Sending -/

/-- `randomRelayNonce`. -/
def randomRelayNonce (nanoseconds : Int) (pid : Nat) : Bytes :=
  formatInt nanoseconds ++ bytes "-" ++ formatUint pid

/-- The headers of a client that a handshake repeats. -/
def handshakeHeaders (header : Header) : Header :=
  header.filter fun entry =>
    !(entry.1.toLower == "host" || "x-workmesh-".toList.isPrefixOf entry.1.toLower.toList ||
      entry.1.toLower == "content-length")

/-- The handshake that `forwardWebSocket` writes. -/
def handshake (o : RelayOptions) (source : EpochSource) (req : Request) (seconds : Int)
    (nonce : Bytes) : Except String Request :=
  let path := rootedPath req.escapedPath
  let query := req.query.del (bytes "operateNode")
  let timestamp := formatInt seconds
  let signature :=
    if o.secret ≠ [] then sign o.secret req.method (pathWithQuery path query) timestamp nonce []
    else []
  let header := ((((handshakeHeaders req.header).set "X-WorkMesh-Forwarded" (bytes "1")).set
    "X-WorkMesh-Node-ID" o.nodeID).set "X-WorkMesh-Timestamp" timestamp).set
    "X-WorkMesh-Nonce" nonce
  match currentEpoch source with
  | .error err => .error err
  | .ok epoch =>
      let header := header.set "X-WorkMesh-Role-Epoch" (formatUint epoch.toNat)
      .ok { method := req.method, escapedPath := path, query, body := []
            header := if signature ≠ [] then header.set "X-WorkMesh-Signature" signature else header }

inductive Transport where
  | http | webSocket
deriving DecidableEq

def Transport.write : Transport → RelayOptions → EpochSource → Request → Int → Bytes →
    Except String Request
  | .http => forwardAttempt
  | .webSocket => handshake

/-- What the sender puts into the request line. -/
def Transport.requestLine (transport : Transport) (base path : Bytes) (query : Values) :
    Option Bytes :=
  match transport with
  | .http => requestURI (base ++ pathWithQuery path query)
  | .webSocket => some (pathWithQuery path query)

/-- Where a connection is made to. The dialer of a handshake takes the host and the port from the
address as they are written, and fails where there is no port. -/
def Transport.dialed (names : Bytes → Bytes) (node : NodeURL) :
    Transport → Option (Bytes × Bytes)
  | .http => some (node.server names)
  | .webSocket => node.port.map fun port => (node.host, port)

/-- The connection is made to the server of the node. -/
def Transport.Connects (transport : Transport) (names : Bytes → Bytes) (node : NodeURL) : Prop :=
  transport.dialed names node = some (node.server names)

/-- What the server of the receiver finds in the request line. -/
def Transport.target (transport : Transport) (base path : Bytes) (query : Values) : Option Target :=
  (transport.requestLine base path query).bind parseTarget

/-- The request with the path and the query of a target. -/
def Request.readAt (r : Request) (t : Target) : Request :=
  { r with escapedPath := t.path.escapedPath, query := parseQuery t.rawQuery }

/-- The request as it is read at the receiver. -/
def Transport.deliver (transport : Transport) (base : Bytes) (o : RelayOptions)
    (source : EpochSource) (req : Request) (seconds : Int) (nonce : Bytes) : Option Request :=
  (transport.write o source req seconds nonce).toOption.bind fun sent =>
    (transport.target base sent.escapedPath sent.query).map sent.readAt

/-- The path of a client and its query apart from `operateNode`. -/
def Request.forwardedPath (r : Request) : Bytes := rootedPath r.escapedPath
def Request.forwardedQuery (r : Request) : Values := r.query.del (bytes "operateNode")

/-- The request comes to the receiver, which accepts it at the path of the client and with its
query apart from `operateNode`. -/
def Delivery.Agrees (d : Delivery) (transport : Transport) (names : Bytes → Bytes)
    (node : NodeURL) (base : Bytes) (sender receiver : EpochSource) : Prop :=
  transport.Connects names node ∧
    ∃ r, transport.deliver base d.sender sender d.request d.seconds d.nonce = some r ∧
      (authenticateForwarded d.receiver (d.arrival r receiver)).2 = .ok () ∧
      r.escapedPath = d.request.forwardedPath ∧ r.query.Perm d.request.forwardedQuery

/-- The receiver finds the path and the query in the request line. -/
def Transport.Lands (transport : Transport) (base path : Bytes) (query : Values) : Prop :=
  ∃ t, transport.target base path query = some t ∧ t.path.escapedPath = path ∧
    (parseQuery t.rawQuery).Perm query

/-- The address adds nothing to the path of the client. Behind an address that ends with a question
mark the path becomes a part of the query, and the address itself has to name it. -/
def Direct (base path : Bytes) (query : Values) : Prop :=
  (base = [] ∧ path ≠ bytes "*") ∨
    ∃ front, base = front ++ bytes "?" ∧ rootedPath front = path ∧
      (parseQuery (pathWithQuery path query)).Perm query

/-- The address says all that a dialer needs. -/
structure Dialable (names : Bytes → Bytes) (node : NodeURL) : Prop where
  port : node.port ≠ none ∧ node.port ≠ some []
  host : names node.host = node.host

/-! ## What the sender writes -/

theorem handshake_written {o : RelayOptions} {source : EpochSource} {req : Request}
    {epoch : UInt64} {seconds : Int} {nonce : Bytes} (hepoch : currentEpoch source = .ok epoch)
    (hsecret : o.secret ≠ []) (hnonce : ∀ c ∈ nonce, isPrintable c = true) :
    ∃ r, handshake o source req seconds nonce = .ok r ∧ Written o epoch seconds nonce r ∧
      r.escapedPath = req.forwardedPath ∧ r.query = req.forwardedQuery := by
  have hsigned : sign o.secret req.method (pathWithQuery req.forwardedPath req.forwardedQuery)
      (formatInt seconds) nonce [] ≠ [] := WorkMesh.Link.sign_ne_nil _ _ _ _ _ _
  simp only [Request.forwardedPath, Request.forwardedQuery] at hsigned
  refine ⟨_, by simp only [handshake, hepoch, if_pos hsecret, if_pos hsigned]; rfl,
    ⟨?_, ?_, ?_, ?_, ?_⟩, rfl, rfl⟩
  · simp only [Request.nodeID, Request.trimmed]
    rw [Header.get_set_of_ne (by decide +kernel), Header.get_set_of_ne (by decide +kernel),
      Header.get_set_of_ne (by decide +kernel), Header.get_set_of_ne (by decide +kernel),
      Header.get_set_self]
  · simp only [Request.timestamp, Request.trimmed]
    rw [Header.get_set_of_ne (by decide +kernel), Header.get_set_of_ne (by decide +kernel),
      Header.get_set_of_ne (by decide +kernel), Header.get_set_self,
      trimSpace_of_printable (formatInt_printable _)]
  · simp only [Request.signature, Request.trimmed, Request.target, rootedPath_rootedPath]
    rw [Header.get_set_self, sign, trimSpace_of_printable (hexEncode_printable _)]
  · simp only [Request.nonce, Request.trimmed]
    rw [Header.get_set_of_ne (by decide +kernel), Header.get_set_of_ne (by decide +kernel),
      Header.get_set_self, trimSpace_of_printable hnonce]
  · simp only [Request.roleEpoch, Request.trimmed]
    rw [Header.get_set_of_ne (by decide +kernel), Header.get_set_self,
      trimSpace_of_printable (formatUint_printable _)]

theorem forwardAttempt_target {o : RelayOptions} {source : EpochSource} {req r : Request}
    {seconds : Int} {nonce : Bytes} (h : forwardAttempt o source req seconds nonce = .ok r) :
    r.escapedPath = req.forwardedPath ∧ r.query = req.forwardedQuery := by
  simp only [forwardAttempt] at h
  split at h
  · cases h
  · obtain rfl := Except.ok.inj h
    exact ⟨rfl, rfl⟩

/-- Over either transport the request is written for the path and the query of the client. -/
theorem write_written {o : RelayOptions} {source : EpochSource} {req : Request} {epoch : UInt64}
    {seconds : Int} {nonce : Bytes} (transport : Transport) (hepoch : currentEpoch source = .ok epoch)
    (hsecret : o.secret ≠ []) (hnonce : ∀ c ∈ nonce, isPrintable c = true) :
    ∃ r, transport.write o source req seconds nonce = .ok r ∧ Written o epoch seconds nonce r ∧
      r.escapedPath = req.forwardedPath ∧ r.query = req.forwardedQuery := by
  cases transport with
  | http =>
      obtain ⟨r, hr, hwritten⟩ := @forwardAttempt_written o source req epoch seconds nonce hepoch
        hsecret hnonce
      exact ⟨r, hr, hwritten, forwardAttempt_target hr⟩
  | webSocket => exact handshake_written hepoch hsecret hnonce

/-- A request stays written as long as its path and its query are. -/
theorem Written.readdress {o : RelayOptions} {epoch : UInt64} {seconds : Int} {nonce : Bytes}
    {r : Request} (h : Written o epoch seconds nonce r) {query : Values}
    (hquery : query.encode = r.query.encode) :
    Written o epoch seconds nonce { r with query } := by
  have htarget : Request.target { r with query } = r.target := by
    simp only [Request.target, pathWithQuery, hquery]
  exact ⟨h.nodeID, h.timestamp, htarget ▸ h.signature, h.nonce, h.roleEpoch⟩

/-! ## What the receiver reads -/

section Target
variable {path decoded rawQuery : Bytes}

theorem notMem_of_encodes (h : Encodes path decoded) : 63 ∉ path := by
  intro hmem
  have hvalid := List.all_eq_true.mp h.valid 63 hmem
  revert hvalid
  decide

theorem mark_withRawQuery (h : 63 ∉ path) :
    beforeMark (withRawQuery path rawQuery) = path ∧
      afterMark (withRawQuery path rawQuery) = rawQuery := by
  have hall : ∀ c ∈ path, decide (c ≠ 63) = true := by
    intro c hc
    exact decide_eq_true (ne_of_mem_of_not_mem hc h)
  rw [beforeMark, afterMark, withRawQuery]
  split
  · have hmark : bytes "?" = [63] := by decide
    rw [List.append_assoc, List.takeWhile_append_of_pos hall, List.dropWhile_append_of_pos hall,
      hmark]
    simp
  · rename_i hempty
    push Not at hempty
    rw [List.takeWhile_eq_self_iff.mpr hall, List.dropWhile_eq_nil_iff.mpr hall, hempty]
    exact ⟨rfl, rfl⟩

theorem head?_withRawQuery (h : path.head? = some 47) :
    (withRawQuery path rawQuery).head? = some 47 := by
  rw [withRawQuery]
  split
  · simp [List.head?_append, h]
  · exact h

theorem setPath_rooted (h : Encodes path decoded) (hroot : path = [] ∨ path.head? = some 47) :
    ∃ u, setPath path = some u ∧ u.escapedPath = path := by
  have hstar : decoded ≠ bytes "*" := by
    cases hroot with
    | inl hempty =>
        subst hempty
        obtain rfl : [] = decoded := Option.some.inj h.decoded
        decide
    | inr hroot => exact ne_star_of_head? (head?_of_unescape h.decoded hroot)
  obtain ⟨u, hset, -, hescaped⟩ := escapedPath_of_encodes h hstar
  exact ⟨u, hset, hescaped⟩

/-- A path is read as it was written, and what stands behind its mark is the query. -/
theorem parseTarget_withRawQuery (h : Encodes path decoded) (hroot : path.head? = some 47) :
    ∃ t, parseTarget (withRawQuery path rawQuery) = some t ∧ t.path.escapedPath = path ∧
      t.rawQuery = rawQuery := by
  obtain ⟨u, hset, hescaped⟩ := setPath_rooted h (.inr hroot)
  obtain ⟨hbefore, hafter⟩ := @mark_withRawQuery path rawQuery (notMem_of_encodes h)
  refine ⟨⟨u, rawQuery⟩, ?_, hescaped, rfl⟩
  rw [parseTarget, if_neg (ne_star_of_head? (head?_withRawQuery hroot)),
    if_pos (head?_withRawQuery hroot), hbefore, hset, hafter]
  rfl

/-- A URL asks for what is written behind its host, with a slash for nothing. -/
theorem requestURI_withRawQuery (h : Encodes path decoded)
    (hroot : path = [] ∨ path.head? = some 47) :
    requestURI (withRawQuery path rawQuery) = some (withRawQuery (rootedPath path) rawQuery) := by
  obtain ⟨u, hset, hescaped⟩ := setPath_rooted h hroot
  obtain ⟨hbefore, hafter⟩ := @mark_withRawQuery path rawQuery (notMem_of_encodes h)
  rw [requestURI, hbefore, hafter, if_pos hroot, hset, Option.map_some, hescaped]

end Target

/-- The path of a client is written as it is encoded. Only the star does not start with a slash. -/
structure Located (path : Bytes) (query : Values) : Prop where
  encodes : ∃ decoded, Encodes path decoded
  rooted : path.head? = some 47 ∨ (path = bytes "*" ∧ query = [])
  proper : query.Proper

theorem Request.Parsed.located {r : Request} (h : r.Parsed) :
    Located r.forwardedPath r.forwardedQuery := by
  obtain ⟨t, ht, hpath, hquery⟩ := h
  have hproper : r.forwardedQuery.Proper := by
    rw [Request.forwardedQuery, hquery]
    exact (proper_parseQuery _).del _
  have hslash : Encodes (bytes "/") (bytes "/") := ⟨by decide, by decide⟩
  rcases ht with ⟨uri, huri⟩ | hempty
  · rw [parseTarget] at huri
    split at huri
    · obtain rfl := Option.some.inj huri
      have hstar : r.forwardedPath = bytes "*" := by
        rw [Request.forwardedPath, hpath]
        decide
      have hencodes : Encodes (bytes "*") (bytes "*") := ⟨by decide, by decide⟩
      refine ⟨⟨_, hstar ▸ hencodes⟩, .inr ⟨hstar, ?_⟩, hproper⟩
      rw [Request.forwardedQuery, hquery]
      decide
    · split at huri
      · rename_i hroot
        obtain ⟨u, hset, rfl⟩ := Option.map_eq_some_iff.mp huri
        have hmark : (beforeMark uri).head? = some 47 := by
          cases uri with
          | nil => cases hroot
          | cons c rest =>
              obtain rfl : c = 47 := Option.some.inj hroot
              rfl
        have hescaped := head?_escapedPath hset hmark
        have hsame : r.forwardedPath = u.escapedPath := by
          rw [Request.forwardedPath, hpath]
          exact if_neg (ne_nil_of_head? hescaped)
        rw [hsame]
        exact ⟨⟨u.path, encodes_escapedPath u⟩, .inl hescaped, hproper⟩
      · cases huri
  · have hroot : r.forwardedPath = bytes "/" := by
      rw [Request.forwardedPath, hpath, hempty]
      decide
    rw [hroot]
    exact ⟨⟨_, hslash⟩, .inl (by decide), hproper⟩

/-! ## Addresses -/

/-- An address is a path from the root, perhaps with a question mark behind it. -/
theorem relayBaseURL_eq_some {node : NodeURL} {base : Bytes} (h : relayBaseURL node = some base) :
    ∃ front decoded, Encodes front decoded ∧ (front = [] ∨ front.head? = some 47) ∧
      (base = front ∨ base = front ++ bytes "?") := by
  rw [relayBaseURL] at h
  split at h
  · cases h
  obtain ⟨u, hset, hbase⟩ := Option.map_eq_some_iff.mp h
  have hencodes := encodes_escapedPath u
  have hroot : u.escapedPath = [] ∨ u.escapedPath.head? = some 47 := by
    cases node.rooted with
    | inl hempty =>
        rw [hempty] at hset
        obtain rfl := Option.some.inj hset
        exact .inl (by decide)
    | inr hroot => exact .inr (head?_escapedPath hset hroot)
  split at hbase
  · exact ⟨u.escapedPath, u.path, hencodes, hroot, .inr hbase.symm⟩
  · obtain ⟨decoded, hdecoded⟩ := hencodes.trim
    refine ⟨trimSlashes u.escapedPath, decoded, hdecoded, ?_, .inl hbase.symm⟩
    have hprefix : trimSlashes u.escapedPath <+: u.escapedPath := List.rdropWhile_prefix _ _
    cases htrim : trimSlashes u.escapedPath with
    | nil => exact .inl rfl
    | cons c rest =>
        obtain ⟨tail, htail⟩ := hprefix
        rw [htrim] at htail
        rw [← htail] at hroot
        exact .inr (hroot.resolve_left (by simp))

/-- A handshake is written to the node where its address says all. -/
theorem connects_iff (transport : Transport) (names : Bytes → Bytes) (node : NodeURL) :
    transport.Connects names node ↔ (transport = .webSocket → Dialable names node) := by
  cases transport with
  | http => exact iff_of_true rfl fun h => by cases h
  | webSocket =>
      rw [Transport.Connects, Transport.dialed, NodeURL.server, NodeURL.meantPort]
      constructor
      · intro h _
        obtain ⟨port, hport, hpair⟩ := Option.map_eq_some_iff.mp h
        obtain ⟨hhost, hmeant⟩ := Prod.mk.inj hpair
        rw [hport, Option.getD_some] at hmeant
        refine ⟨⟨by simp [hport], ?_⟩, hhost.symm⟩
        rw [hport]
        rintro hempty
        obtain rfl := Option.some.inj hempty
        rw [if_pos rfl] at hmeant
        have hnonempty : (if node.https = true then bytes "443" else bytes "80") ≠ [] := by
          split <;> decide +kernel
        exact hnonempty hmeant.symm
      · intro h
        obtain ⟨⟨hsome, hnonempty⟩, hhost⟩ := h rfl
        obtain ⟨port, hport⟩ := Option.ne_none_iff_exists'.mp hsome
        have hne : port ≠ [] := fun hempty => hnonempty (hport.trans (congrArg some hempty))
        rw [hport, Option.getD_some, if_neg hne, hhost]
        rfl

section Lands
variable {base path front decoded : Bytes} {query : Values}

theorem encode_perm_parse (h : query.Proper) : (parseQuery query.encode).Perm query := by
  rw [parseQuery_encode h]
  exact List.mergeSort_perm _ _

theorem pathWithQuery_nil (path : Bytes) : pathWithQuery path [] = path := by
  simp [pathWithQuery, Values.encode, List.intercalate]

/-- The handshake names the path and the query themselves. -/
theorem lands_webSocket (h : Located path query) : Transport.webSocket.Lands base path query := by
  cases h.rooted with
  | inl hroot =>
      obtain ⟨decoded, hdecoded⟩ := h.encodes
      obtain ⟨t, ht, hpath, hquery⟩ := @parseTarget_withRawQuery path decoded query.encode hdecoded
        hroot
      exact ⟨t, ht, hpath, hquery ▸ encode_perm_parse h.proper⟩
  | inr hstar =>
      obtain ⟨rfl, rfl⟩ := hstar
      have htarget : Transport.webSocket.target base (bytes "*") [] =
          some ⟨⟨bytes "*", []⟩, []⟩ := by
        rw [Transport.target, Transport.requestLine, pathWithQuery_nil]
        rfl
      exact ⟨_, htarget, by decide, by decide⟩

/-- What is added in front of the path of the client is read at the receiver as well. -/
theorem lands_http_iff (h : Located path query) (hfront : Encodes front decoded)
    (hroot : front = [] ∨ front.head? = some 47) :
    Transport.http.Lands front path query ↔ front = [] ∧ path ≠ bytes "*" := by
  obtain ⟨tail, htail⟩ := h.encodes
  have hline : (front ++ path).head? = some 47 →
      ∃ t, Transport.http.target front path query = some t ∧ t.path.escapedPath = front ++ path ∧
        t.rawQuery = query.encode := by
    intro hhead
    have happend : front ++ pathWithQuery path query =
        withRawQuery (front ++ path) query.encode := by
      simp only [pathWithQuery, withRawQuery]
      split
      · simp only [List.append_assoc]
      · rfl
    have hsame : rootedPath (front ++ path) = front ++ path := if_neg (ne_nil_of_head? hhead)
    rw [Transport.target, Transport.requestLine, happend,
      requestURI_withRawQuery (hfront.append htail) (.inr hhead), hsame]
    exact parseTarget_withRawQuery (hfront.append htail) hhead
  cases hroot with
  | inl hempty =>
      subst hempty
      cases h.rooted with
      | inl hpath =>
          obtain ⟨t, ht, hescaped, hquery⟩ := hline hpath
          have hlands : Transport.http.Lands [] path query :=
            ⟨t, ht, hescaped, hquery ▸ encode_perm_parse h.proper⟩
          exact iff_of_true hlands ⟨rfl, ne_star_of_head? hpath⟩
      | inr hstar =>
          obtain ⟨rfl, rfl⟩ := hstar
          have hnone : Transport.http.target [] (bytes "*") [] = none := by
            rw [Transport.target, Transport.requestLine, pathWithQuery_nil]
            rfl
          refine iff_of_false ?_ (fun h => h.2 rfl)
          rintro ⟨t, ht, -⟩
          rw [hnone] at ht
          cases ht
  | inr hhead =>
      obtain ⟨t, ht, hescaped, -⟩ := hline (by simp [List.head?_append, hhead])
      refine iff_of_false ?_ (fun h => ne_nil_of_head? hhead h.1)
      rintro ⟨t', ht', hpath, -⟩
      obtain rfl : t = t' := Option.some.inj (ht.symm.trans ht')
      rw [hescaped] at hpath
      exact ne_nil_of_head? hhead (List.append_left_eq_self.mp hpath)

/-- Behind a question mark the path of the client is read as a query. -/
theorem lands_http_mark_iff (h : Located path query) (hfront : Encodes front decoded)
    (hroot : front = [] ∨ front.head? = some 47) :
    Transport.http.Lands (front ++ bytes "?") path query ↔
      rootedPath front = path ∧ (parseQuery (pathWithQuery path query)).Perm query := by
  have hslash : Encodes (bytes "/") (bytes "/") := ⟨by decide, by decide⟩
  obtain ⟨root, hencodes, hhead⟩ :
      ∃ root, Encodes (rootedPath front) root ∧ (rootedPath front).head? = some 47 := by
    cases hroot with
    | inl hempty =>
        subst hempty
        exact ⟨_, hslash, by decide⟩
    | inr hhead =>
        have hsame : rootedPath front = front := if_neg (ne_nil_of_head? hhead)
        rw [hsame]
        exact ⟨decoded, hfront, hhead⟩
  have hpath : path ≠ [] := by
    cases h.rooted with
    | inl hroot => exact ne_nil_of_head? hroot
    | inr hstar =>
        rw [hstar.1]
        decide
  have hraw : pathWithQuery path query ≠ [] := by
    rw [pathWithQuery]
    split <;> simp [hpath]
  have happend : front ++ bytes "?" ++ pathWithQuery path query =
      withRawQuery front (pathWithQuery path query) := (if_pos hraw).symm
  obtain ⟨t, ht, hescaped, hquery⟩ := @parseTarget_withRawQuery _ _ (pathWithQuery path query)
    hencodes hhead
  have htarget : Transport.http.target (front ++ bytes "?") path query = some t := by
    rw [Transport.target, Transport.requestLine, happend, requestURI_withRawQuery hfront hroot]
    exact ht
  constructor
  · rintro ⟨t', ht', hpath', hperm⟩
    obtain rfl : t = t' := Option.some.inj (htarget.symm.trans ht')
    exact ⟨hescaped.symm.trans hpath', hquery ▸ hperm⟩
  · rintro ⟨rfl, hperm⟩
    exact ⟨t, htarget, hescaped, hquery ▸ hperm⟩

theorem lands_iff {node : NodeURL} (transport : Transport) (hbase : relayBaseURL node = some base)
    (h : Located path query) :
    transport.Lands base path query ↔ (transport = .http → Direct base path query) := by
  cases transport with
  | webSocket => exact iff_of_true (lands_webSocket h) (fun h => by cases h)
  | http =>
      have hmark : bytes "?" = [63] := by decide
      obtain ⟨front, decoded, hfront, hroot, rfl | rfl⟩ := relayBaseURL_eq_some hbase
      · rw [lands_http_iff h hfront hroot]
        constructor
        · exact fun hplain _ => .inl hplain
        · intro hdirect
          refine (hdirect rfl).resolve_right ?_
          rintro ⟨front', rfl, -⟩
          refine notMem_of_encodes hfront (List.mem_append_right _ ?_)
          rw [hmark]
          exact List.mem_cons_self
      · rw [lands_http_mark_iff h hfront hroot]
        constructor
        · exact fun hnamed _ => .inr ⟨front, rfl, hnamed⟩
        · intro hdirect
          have hmarked : front ++ bytes "?" ≠ [] := List.append_ne_nil_of_right_ne_nil _ (by decide)
          obtain ⟨front', hsame, hnamed⟩ := (hdirect rfl).resolve_left fun hplain => hmarked hplain.1
          obtain rfl : front = front' := List.append_cancel_right hsame
          exact hnamed

end Lands

/-! ## Sender and receiver -/

/-- What arrives is written by the sender if it lands where it was meant. -/
theorem deliver_written {d : Delivery} {source : EpochSource} {epoch : UInt64}
    (transport : Transport) (base : Bytes) (hd : d.Sound)
    (hepoch : currentEpoch source = .ok epoch) :
    ∃ sent : Request, transport.deliver base d.sender source d.request d.seconds d.nonce =
        (transport.target base d.request.forwardedPath d.request.forwardedQuery).map
          sent.readAt ∧
      ∀ t : Target, t.path.escapedPath = d.request.forwardedPath →
        (parseQuery t.rawQuery).Perm d.request.forwardedQuery →
        Written d.sender epoch d.seconds d.nonce (sent.readAt t) := by
  obtain ⟨sent, hsent, hwritten, hpath, hquery⟩ :=
    @write_written d.sender source d.request epoch d.seconds d.nonce transport hepoch hd.configured
      hd.nonce.2
  refine ⟨sent, ?_, fun t hsame hperm => ?_⟩
  · rw [Transport.deliver, hsent, ← hpath, ← hquery]
    rfl
  · rw [Request.readAt, hsame, ← hpath]
    exact hwritten.readdress (hquery ▸ Values.encode_perm (proper_parseQuery _) hperm)

theorem Delivery.Agrees.lands {d : Delivery} {transport : Transport} {names : Bytes → Bytes}
    {node : NodeURL} {base : Bytes} {sender receiver : EpochSource} {epoch : UInt64}
    (h : d.Agrees transport names node base sender receiver) (hd : d.Sound)
    (hsender : currentEpoch sender = .ok epoch) :
    transport.Lands base d.request.forwardedPath d.request.forwardedQuery := by
  obtain ⟨sent, hdeliver, -⟩ := deliver_written transport base hd hsender
  obtain ⟨-, r, hr, -, hsame, hperm⟩ := h
  obtain ⟨t, ht, rfl⟩ := Option.map_eq_some_iff.mp (hdeliver ▸ hr)
  exact ⟨t, ht, hsame, hperm⟩

/-- A request of the sender is accepted and read as it was meant if and only if over HTTP the
address leaves its path alone, over a WebSocket the address has a port and a name that needs no
rewriting, and the receiver does not hold its nonce. -/
theorem sender_receiver_agree_iff (transport : Transport) (names : Bytes → Bytes) (node : NodeURL)
    (base : Bytes) (d : Delivery) (sender receiver : EpochSource) (epoch : UInt64)
    (hbase : relayBaseURL node = some base) (hclient : d.request.Parsed) (hd : d.Sound)
    (hsender : currentEpoch sender = .ok epoch) (hreceiver : currentEpoch receiver = .ok epoch) :
    d.Agrees transport names node base sender receiver ↔
      (transport = .webSocket → Dialable names node) ∧
        (transport = .http → Direct base d.request.forwardedPath d.request.forwardedQuery) ∧
        d.Unused := by
  rw [← connects_iff transport names node, ← lands_iff transport hbase hclient.located]
  obtain ⟨sent, hdeliver, hwritten⟩ := deliver_written transport base hd hsender
  constructor
  · intro hagrees
    refine ⟨hagrees.1, hagrees.lands hd hsender, ?_⟩
    obtain ⟨-, r, hr, haccepted, hsame, hperm⟩ := hagrees
    obtain ⟨t, ht, rfl⟩ := Option.map_eq_some_iff.mp (hdeliver ▸ hr)
    exact ((hwritten t hsame hperm).accepted_iff hd hreceiver).mp haccepted
  · rintro ⟨hconnects, ⟨t, ht, hsame, hperm⟩, hunused⟩
    have haccepted := ((hwritten t hsame hperm).accepted_iff hd hreceiver).mpr hunused
    exact ⟨hconnects, _, hdeliver.trans (congrArg (Option.map _) ht), haccepted, hsame, hperm⟩

/-! ## A node behind a path -/

theorem randomRelayNonce_sound (nanoseconds : Int) (pid : Nat) :
    randomRelayNonce nanoseconds pid ≠ [] ∧
      ∀ c ∈ randomRelayNonce nanoseconds pid, isPrintable c = true := by
  have hhyphen : ∀ c ∈ bytes "-", isPrintable c = true := by decide +kernel
  refine ⟨List.append_ne_nil_of_right_ne_nil _ (formatUint_ne_nil _), fun c hc => ?_⟩
  rw [randomRelayNonce, List.mem_append, List.mem_append] at hc
  obtain (hc | hc) | hc := hc
  · exact formatInt_printable _ c hc
  · exact hhyphen c hc
  · exact formatUint_printable _ c hc

/-- The first request of the dashboard to a node. -/
def dashboardDelivery (nanoseconds : Int) (pid : Nat) : Delivery where
  sender := relaySender
  receiver := ⟨relayReceiver, []⟩
  request := dashboardRequest
  seconds := 1700000000
  nonce := randomRelayNonce nanoseconds pid
  sinceReading := atSecond 1700000001
  untilReading := atSecond 1700000001
  lockReading := atSecond 1700000001

theorem dashboardDelivery_sound (nanoseconds : Int) (pid : Nat) :
    (dashboardDelivery nanoseconds pid).Sound := by
  have hnamed : trimSpace relaySender.nodeID ≠ [] ∧
      ∀ c ∈ relaySender.nodeID, isControl c = false := by decide +kernel
  have hother : trimSpace relaySender.nodeID ≠ relayReceiver.nodeID := by decide +kernel
  have hlate : (atSecond 1700000001).sub (.unix 1700000000) ≤ relayClockSkew := by decide +kernel
  have hearly : (Time.unix 1700000000).sub (atSecond 1700000001) ≤ relayClockSkew := by
    decide +kernel
  have hconfigured : relaySender.secret ≠ [] := by decide +kernel
  have hshared : relayReceiver.secret = relaySender.secret := rfl
  have hrange : (-2 ^ 63 : Int) ≤ 1700000000 ∧ (1700000000 : Int) < 2 ^ 63 := by decide
  exact ⟨hshared, hconfigured, hnamed, hother, randomRelayNonce_sound nanoseconds pid,
    ⟨hlate, hearly⟩, hrange⟩

theorem dashboardRequest_parsed : dashboardRequest.Parsed := by
  have hread : parseTarget (bytes "/api/v2/dashboard") =
      some ⟨⟨bytes "/api/v2/dashboard", []⟩, []⟩ := by decide +kernel
  exact ⟨_, .inl ⟨_, hread⟩, by decide +kernel, rfl⟩

/-- A node at its root, with a port. -/
def nodeAtPort : NodeURL :=
  ⟨false, bytes "node-b", some (bytes "8080"), [], false, .inl rfl⟩

/-- A node behind a path, without a port. -/
def nodeBehindPath : NodeURL :=
  ⟨false, bytes "node-b", none, bytes "/workmesh", false, .inr (by decide +kernel)⟩

theorem dashboard_agrees :
    (dashboardDelivery 1700000000000000000 4242).Agrees .http id nodeAtPort [] (atEpoch 1)
        (atEpoch 1) ∧
      (dashboardDelivery 1700000000000000000 4242).Agrees .webSocket id nodeAtPort [] (atEpoch 1)
        (atEpoch 1) := by
  have hunused : (dashboardDelivery 1700000000000000000 4242).Unused :=
    fun _ hmem => absurd hmem List.not_mem_nil
  have hbase : relayBaseURL nodeAtPort = some [] := by decide +kernel
  have hdialable : Dialable id nodeAtPort := ⟨by decide +kernel, rfl⟩
  have hdirect : Direct [] dashboardRequest.forwardedPath dashboardRequest.forwardedQuery :=
    .inl ⟨rfl, ne_star_of_head? (by decide +kernel)⟩
  exact ⟨(sender_receiver_agree_iff .http id nodeAtPort [] _ (atEpoch 1) (atEpoch 1) 1 hbase
      dashboardRequest_parsed (dashboardDelivery_sound _ _) rfl rfl).mpr
        ⟨fun h => absurd h (by decide), fun _ => hdirect, hunused⟩,
    (sender_receiver_agree_iff .webSocket id nodeAtPort [] _ (atEpoch 1) (atEpoch 1) 1 hbase
      dashboardRequest_parsed (dashboardDelivery_sound _ _) rfl rfl).mpr
        ⟨fun _ => hdialable, fun h => absurd h (by decide), hunused⟩⟩

/-- Behind `http://node-b/workmesh` the receiver finds another path than the one that was signed,
and a handshake does not come to it for want of a port. -/
theorem dashboard_behind_path :
    relayBaseURL nodeBehindPath = some (bytes "/workmesh") ∧
      ¬(dashboardDelivery 1700000000000000000 4242).Agrees .http id nodeBehindPath
        (bytes "/workmesh") (atEpoch 1) (atEpoch 1) ∧
      ¬(dashboardDelivery 1700000000000000000 4242).Agrees .webSocket id nodeBehindPath
        (bytes "/workmesh") (atEpoch 1) (atEpoch 1) := by
  have hbase : Encodes (bytes "/workmesh") (bytes "/workmesh") :=
    ⟨by decide +kernel, by decide +kernel⟩
  refine ⟨by decide +kernel, fun hagrees => ?_, fun hagrees => ?_⟩
  · have hlands := hagrees.lands (dashboardDelivery_sound _ _) rfl
    have hempty := ((lands_http_iff dashboardRequest_parsed.located hbase
      (.inr (by decide +kernel))).mp hlands).1
    exact absurd hempty (by decide +kernel)
  · cases hagrees.1

end WorkMesh.Relay
