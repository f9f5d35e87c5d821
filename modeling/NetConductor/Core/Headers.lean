import NetConductor.Core.Proxy

/-! Which headers cross the proxy: `stripHop` on any header, and on the requests
and responses that `ProxyHandler` passes on, down to the header lines that
`net/http` writes for them, some of which are its own. -/
namespace NetConductor
open GoText GoNet Deadline

namespace Header

/-- A deleted header is gone under its canonical key, the others stay. -/
theorem lookup_del (h : Header) (key name : String) :
    (h.del key).lookup name = if canonicalKey key = name then none else h.lookup name := by
  unfold del
  split_ifs with hKey
  · rw [hKey, AList.lookup_erase]
  · exact AList.lookup_erase_ne (Ne.symm hKey)

/-- Deleting some keys leaves every other key with its values. -/
theorem lookup_foldl_del (keys : List String) (h : Header) (name : String) :
    (keys.foldl del h).lookup name =
      if name ∈ keys.map canonicalKey then none else h.lookup name := by
  induction keys generalizing h with
  | nil => rfl
  | cons key rest ih =>
      rw [List.foldl_cons, ih, lookup_del]
      by_cases hRest : name ∈ rest.map canonicalKey
      · simp [hRest]
      · by_cases hKey : canonicalKey key = name
        · simp [hKey]
        · simp [hRest, hKey, Ne.symm hKey]

end Header

/-- The keys that `stripHop` deletes: its own list, and those that an element of
a Connection value names, trimmed and canonicalised. -/
def hopKeys (h : Header) : List String := (connectionHeaders h ++ hopHeaders).map canonicalKey

/-- A key is named by an element of a Connection value. -/
def NamedByConnection (h : Header) (key : String) : Prop :=
  ∃ value ∈ h.values "Connection", ∃ element ∈ value.toList.splitOn ',',
    canonicalKey (String.ofList (trimSpace element)) = key

/-- A key that `stripHop` is to delete. -/
def Hop (h : Header) (key : String) : Prop :=
  key ∈ hopHeaders.map canonicalKey ∨ NamedByConnection h key

/-- The keys that are deleted are those of the connection's own fields and of the ones
it nominates. -/
theorem mem_hopKeys {h : Header} {key : String} : key ∈ hopKeys h ↔ Hop h key := by
  have hNamed : key ∈ (connectionHeaders h).map canonicalKey ↔ NamedByConnection h key := by
    simp only [connectionHeaders, List.mem_map, List.mem_flatMap]
    constructor
    · rintro ⟨name, ⟨value, hValue, element, hElement, rfl⟩, hKey⟩
      exact ⟨value, hValue, element, hElement, hKey⟩
    · rintro ⟨value, hValue, element, hElement, hKey⟩
      exact ⟨_, ⟨value, hValue, element, hElement, rfl⟩, hKey⟩
  rw [hopKeys, List.map_append, List.mem_append, hNamed, or_comm]
  rfl

/-- Exactly the hop keys are gone. -/
theorem lookup_stripHop (h : Header) (key : String) :
    (stripHop h).lookup key = if key ∈ hopKeys h then none else h.lookup key := by
  rw [stripHop, Header.lookup_foldl_del, Header.lookup_foldl_del, hopKeys, List.map_append]
  by_cases hHop : key ∈ hopHeaders.map canonicalKey
  · simp only [hHop, if_true, List.mem_append, or_true]
  · simp only [hHop, if_false, List.mem_append, or_false]

/-- Of the deleted keys nothing is left, whatever is looked up. -/
theorem values_stripHop {h : Header} {key : String} (hKey : canonicalKey key ∈ hopKeys h) :
    (stripHop h).values key = [] := by
  rw [Header.values, lookup_stripHop, if_pos hKey]
  rfl

theorem connection_mem_hopKeys (h : Header) : canonicalKey "Connection" ∈ hopKeys h := by
  refine mem_hopKeys.mpr (.inl (List.mem_map_of_mem ?_))
  decide +kernel

/-- A stripped header has no Connection value, so that only the list is left to
delete, and that is gone. -/
theorem stripHop_stripHop (h : Header) (key : String) :
    (stripHop (stripHop h)).lookup key = (stripHop h).lookup key := by
  have hNone : connectionHeaders (stripHop h) = [] := by
    rw [connectionHeaders, values_stripHop (connection_mem_hopKeys h)]
    rfl
  rw [lookup_stripHop (stripHop h)]
  split_ifs with hHop
  · rw [hopKeys, hNone, List.nil_append] at hHop
    rw [lookup_stripHop, if_pos (mem_hopKeys.mpr (.inl hHop))]
  · rfl

theorem not_mem_stripHop {h : Header} {key : String} (hHop : Hop h key) : key ∉ stripHop h := by
  rw [← AList.lookup_eq_none, lookup_stripHop, if_pos (mem_hopKeys.mpr hHop)]

variable {Trace Conn : Type}

/-- A response that comes through is one of the exchange, stripped. -/
theorem response_of_proxyHandler {lib : Stdlib Conn}
    {authorize : ProxyRequest → Except String (DialFunc Trace Conn)} {r : ProxyRequest} {c : Conn}
    {resp : ProxyResponse} (h : (proxyHandler lib authorize r).reply = .response c resp) :
    ∃ raw, (lib.exchange c (outgoing r)).result = .ok raw ∧
      resp = { raw with header := stripHop raw.header } := by
  unfold proxyHandler at h
  split at h
  · cases h
  · next dial hDial =>
      split_ifs at h with hConnect hURL
      · unfold serveConnect at h
        split at h
        · cases h
        · dsimp only at h
          split at h
          · cases h
          · split_ifs at h
      · cases h
      · unfold servePlain at h
        split at h
        · cases h
        · dsimp only at h
          split at h
          · cases h
          · next conn hConn =>
              split at h
              · cases h
              · next raw hRaw =>
                  obtain ⟨rfl, rfl⟩ := ProxyReply.response.inj h
                  exact ⟨raw, hRaw, rfl⟩

/-! ### The lines that `net/http` writes -/

/-- The header lines of a message, a key with a value each. -/
abbrev Lines := List (String × String)

/-- `Header.WriteSubset`, but for the order of the keys. -/
def Header.lines (h : Header) (exclude : List String) : Lines :=
  h.entries.flatMap fun e => if e.1 ∈ exclude then [] else e.2.map fun v => (e.1, v)

/-- What a transfer writer says of the body it is about to write. -/
structure RequestFraming where
  contentLength : Option Nat
  chunked : Bool
  trailer : List String

def RequestFraming.lines (f : RequestFraming) : Lines :=
  (match f.contentLength with
    | some n => [("Content-Length", toString n)]
    | none => if f.chunked then [("Transfer-Encoding", "chunked")] else []) ++
  if f.trailer = [] then [] else [("Trailer", ",".intercalate f.trailer)]

def reqWriteExcludeHeader : List String :=
  ["Host", "User-Agent", "Content-Length", "Transfer-Encoding", "Trailer"]

def defaultUserAgent : String := "Go-http-client/1.1"

def requestHost (r : ProxyRequest) : String := if r.host = "" then r.urlHost else r.host

/-- A blank User-Agent is not sent, and where there is none the default is. -/
def userAgentLines (h : Header) : Lines :=
  if "User-Agent" ∈ h then
    if h.get "User-Agent" = "" then [] else [("User-Agent", h.get "User-Agent")]
  else [("User-Agent", defaultUserAgent)]

/-- The transport asks for compression where the request leaves that open. -/
def acceptEncodingLines (r : ProxyRequest) : Lines :=
  if r.header.get "Accept-Encoding" = "" ∧ r.header.get "Range" = "" ∧ r.method ≠ "HEAD" then
    [("Accept-Encoding", "gzip")]
  else []

/-- What a transport that keeps no connections writes for a request without
Connection and Upgrade headers: it always asks to close the connection. -/
def requestLines (f : RequestFraming) (r : ProxyRequest) : Lines :=
  [("Host", requestHost r)] ++ userAgentLines r.header ++ f.lines ++
    r.header.lines reqWriteExcludeHeader ++ acceptEncodingLines r ++ [("Connection", "close")]

inductive ConnectionOption where
  | close
  | keepAlive

def ConnectionOption.text : ConnectionOption → String
  | close => "close"
  | keepAlive => "keep-alive"

/-- `extraHeader`: what the server adds to the header of a response. -/
structure ExtraHeader where
  date : Option String
  contentLength : Option Nat
  contentType : Option String
  connection : Option ConnectionOption
  chunked : Bool

def ExtraHeader.lines (x : ExtraHeader) : Lines :=
  (x.date.toList.map fun v => ("Date", v)) ++
  (x.contentLength.toList.map fun n => ("Content-Length", toString n)) ++
  (x.contentType.toList.map fun v => ("Content-Type", v)) ++
  (x.connection.toList.map fun v => ("Connection", v.text)) ++
  if x.chunked then [("Transfer-Encoding", "chunked")] else []

/-- The header of `http.Error`. -/
def errorHeader (h : Header) : Header :=
  ((h.del "Content-Length").set "Content-Type" "text/plain; charset=utf-8").set
    "X-Content-Type-Options" "nosniff"

/-- What the client of the proxy receives, the server leaving out some keys and
adding lines of its own. A tunnel is announced without header lines. -/
def replyLines (exclude : List String) (x : ExtraHeader) : ProxyReply Conn → Lines
  | .error _ header _ => (errorHeader header).lines exclude ++ x.lines
  | .response _ r => r.header.lines exclude ++ x.lines
  | .tunnel _ | .dropped => []

/-- A line of the request that `net/http` writes of itself, whatever the client
of the proxy has sent under that key. -/
inductive OwnRequestLine (r : ProxyRequest) (f : RequestFraming) : String × String → Prop where
  | host : OwnRequestLine r f ("Host", requestHost r)
  | userAgent : OwnRequestLine r f ("User-Agent", defaultUserAgent)
  | acceptEncoding : OwnRequestLine r f ("Accept-Encoding", "gzip")
  | connection : OwnRequestLine r f ("Connection", "close")
  | framing {line : String × String} (h : line ∈ f.lines) : OwnRequestLine r f line

/-- What the destination of a request receives of the keys that `stripHop` is to
delete. -/
structure CleanRequest (r : ProxyRequest) (f : RequestFraming) (lines : Lines) : Prop where
  credentials : ∀ line ∈ lines, line.1 ≠ "Proxy-Authorization" ∧ line.1 ≠ "Proxy-Authenticate"
  connection : ∀ line ∈ lines, line.1 = "Connection" → line.2 = "close"
  own : ∀ line ∈ lines, Hop r.header line.1 → OwnRequestLine r f line

/-- What the client receives of them with a response. -/
structure CleanResponse (raw : Header) (x : ExtraHeader) (lines : Lines) : Prop where
  credentials : ∀ line ∈ lines, line.1 ≠ "Proxy-Authorization" ∧ line.1 ≠ "Proxy-Authenticate"
  connection : ∀ line ∈ lines, line.1 = "Connection" → line.2 = "close" ∨ line.2 = "keep-alive"
  own : ∀ line ∈ lines, Hop raw line.1 → line ∈ x.lines

/-- What the client receives of them with an error of the proxy itself. -/
structure CleanError (status : Nat) (lines : Lines) : Prop where
  credentials : ∀ line ∈ lines, line.1 ≠ "Proxy-Authorization"
  challenge : ∀ line ∈ lines, line.1 = "Proxy-Authenticate" →
    status = 407 ∧ line.2 = "Basic realm=NetConductor"
  connection : ∀ line ∈ lines, line.1 = "Connection" → line.2 = "close" ∨ line.2 = "keep-alive"

/-- A line of a header is a value of one of its entries. -/
theorem entry_of_mem_lines {h : Header} {exclude : List String} {line : String × String}
    (hLine : line ∈ h.lines exclude) : ∃ e ∈ h.entries, e.1 = line.1 ∧ line.2 ∈ e.2 := by
  obtain ⟨e, he, hLine⟩ := List.mem_flatMap.mp hLine
  split at hLine
  · cases hLine
  · obtain ⟨v, hv, rfl⟩ := List.mem_map.mp hLine
    exact ⟨e, he, rfl, hv⟩

theorem mem_of_mem_lines {h : Header} {exclude : List String} {line : String × String}
    (hLine : line ∈ h.lines exclude) : line.1 ∈ h := by
  obtain ⟨e, he, hKey, -⟩ := entry_of_mem_lines hLine
  exact AList.mem_keys.mpr (hKey ▸ List.mem_map_of_mem he)

/-- The keys of the extra lines, and the two values of Connection. -/
theorem extra_key {x : ExtraHeader} {line : String × String} (h : line ∈ x.lines) :
    line.1 ∈ ["Date", "Content-Length", "Content-Type", "Connection", "Transfer-Encoding"] ∧
      (line.1 = "Connection" → line.2 = "close" ∨ line.2 = "keep-alive") := by
  simp only [ExtraHeader.lines, List.mem_append, List.mem_map] at h
  rcases h with (((⟨v, -, rfl⟩ | ⟨n, -, rfl⟩) | ⟨v, -, rfl⟩) | ⟨v, -, rfl⟩) | hChunked
  · simp
  · simp
  · simp
  · cases v <;> simp [ConnectionOption.text]
  · split_ifs at hChunked with hFlag
    · obtain rfl := List.mem_singleton.mp hChunked
      simp
    · cases hChunked

/-- The framing lines have one of three keys. -/
theorem framing_key {f : RequestFraming} {line : String × String} (h : line ∈ f.lines) :
    line.1 ∈ ["Content-Length", "Transfer-Encoding", "Trailer"] := by
  rcases List.mem_append.mp h with hBody | hTrailer
  · split at hBody
    · obtain rfl := List.mem_singleton.mp hBody
      simp
    · split_ifs at hBody
      · obtain rfl := List.mem_singleton.mp hBody
        simp
      · cases hBody
  · split_ifs at hTrailer
    · cases hTrailer
    · obtain rfl := List.mem_singleton.mp hTrailer
      simp

/-- A line of the request comes from its header, or it is one that `net/http`
writes of itself. -/
theorem request_line {f : RequestFraming} {r : ProxyRequest} {line : String × String}
    (h : line ∈ requestLines f r) : line.1 ∈ r.header ∨ OwnRequestLine r f line := by
  simp only [requestLines, List.mem_append, List.mem_singleton] at h
  rcases h with ((((rfl | hAgent) | hFraming) | hHeader) | hEncoding) | rfl
  · exact .inr .host
  · unfold userAgentLines at hAgent
    split_ifs at hAgent with hHas hBlank
    · cases hAgent
    · obtain rfl := List.mem_singleton.mp hAgent
      exact .inl hHas
    · obtain rfl := List.mem_singleton.mp hAgent
      exact .inr .userAgent
  · exact .inr (.framing hFraming)
  · exact .inl (mem_of_mem_lines hHeader)
  · unfold acceptEncodingLines at hEncoding
    split_ifs at hEncoding
    · obtain rfl := List.mem_singleton.mp hEncoding
      exact .inr .acceptEncoding
    · cases hEncoding
  · exact .inr .connection

/-- What the transport writes itself is no credential, and of the connection it says
only that it closes. -/
theorem own_key {r : ProxyRequest} {f : RequestFraming} {line : String × String}
    (h : OwnRequestLine r f line) :
    line.1 ≠ "Proxy-Authorization" ∧ line.1 ≠ "Proxy-Authenticate" ∧
      (line.1 = "Connection" → line.2 = "close") := by
  cases h with
  | host | userAgent | acceptEncoding | connection => simp
  | framing hLine =>
      have hKey := framing_key hLine
      simp only [List.mem_cons, List.not_mem_nil, or_false] at hKey
      rcases hKey with hKey | hKey | hKey <;> simp [hKey]

/-- The listed keys are hop-by-hop keys of every header. -/
theorem hop_listed (h : Header) {key : String}
    (hKey : key ∈ ["Proxy-Authorization", "Proxy-Authenticate", "Connection"]) : Hop h key := by
  have hListed : ∀ key ∈ ["Proxy-Authorization", "Proxy-Authenticate", "Connection"],
      key ∈ hopHeaders.map canonicalKey := by decide +kernel
  exact .inl (hListed key hKey)

/-- The request on the wire. -/
theorem cleanRequest (f : RequestFraming) (r : ProxyRequest) :
    CleanRequest r f (requestLines f (outgoing r)) := by
  have hOwn : ∀ line ∈ requestLines f (outgoing r), Hop r.header line.1 →
      OwnRequestLine r f line := by
    intro line hLine hHop
    rcases request_line hLine with hHeader | hOwn
    · exact absurd hHeader (not_mem_stripHop hHop)
    · cases hOwn with
      | host => exact .host
      | userAgent => exact .userAgent
      | acceptEncoding => exact .acceptEncoding
      | connection => exact .connection
      | framing h => exact .framing h
  refine ⟨fun line hLine => ⟨fun hKey => ?_, fun hKey => ?_⟩, fun line hLine hKey => ?_, hOwn⟩
  · exact (own_key (hOwn line hLine (hop_listed _ (by simp [hKey])))).1 hKey
  · exact (own_key (hOwn line hLine (hop_listed _ (by simp [hKey])))).2.1 hKey
  · exact (own_key (hOwn line hLine (hop_listed _ (by simp [hKey])))).2.2 hKey

/-- The lines of a response, from its stripped header. -/
theorem cleanResponse (raw : Header) (exclude : List String) (x : ExtraHeader) :
    CleanResponse raw x ((stripHop raw).lines exclude ++ x.lines) := by
  have hOwn : ∀ line ∈ (stripHop raw).lines exclude ++ x.lines, Hop raw line.1 →
      line ∈ x.lines := by
    intro line hLine hHop
    rcases List.mem_append.mp hLine with hHeader | hExtra
    · exact absurd (mem_of_mem_lines hHeader) (not_mem_stripHop hHop)
    · exact hExtra
  refine ⟨fun line hLine => ⟨fun hKey => ?_, fun hKey => ?_⟩, fun line hLine hKey => ?_, hOwn⟩
  · have hExtra := extra_key (hOwn line hLine (hop_listed _ (by simp [hKey])))
    simp [hKey] at hExtra
  · have hExtra := extra_key (hOwn line hLine (hop_listed _ (by simp [hKey])))
    simp [hKey] at hExtra
  · exact (extra_key (hOwn line hLine (hop_listed _ (by simp [hKey])))).2 hKey

/-- The errors of the proxy: only the one without credentials has a header. -/
theorem error_of_proxyHandler {lib : Stdlib Conn}
    {authorize : ProxyRequest → Except String (DialFunc Trace Conn)} {r : ProxyRequest}
    {status : Nat} {header : Header} {text : String}
    (h : (proxyHandler lib authorize r).reply = .error status header text) :
    header = ∅ ∨
      status = 407 ∧ header = Header.set ∅ "Proxy-Authenticate" "Basic realm=NetConductor" := by
  have hEmpty : ∀ (s : Nat) (t : String), (.error s ∅ t : ProxyReply Conn) = .error status header text →
      header = ∅ := fun s t hSame => (ProxyReply.error.inj hSame).2.1.symm
  unfold proxyHandler at h
  split at h
  · obtain ⟨rfl, rfl, -⟩ := ProxyReply.error.inj h
    exact .inr ⟨rfl, rfl⟩
  · left
    split_ifs at h with hConnect hURL
    · unfold serveConnect at h
      split at h
      · exact hEmpty _ _ h
      · dsimp only at h
        split at h
        · exact hEmpty _ _ h
        · split_ifs at h
    · exact hEmpty _ _ h
    · unfold servePlain at h
      split at h
      · exact hEmpty _ _ h
      · dsimp only at h
        split at h
        · exact hEmpty _ _ h
        · split at h
          · exact hEmpty _ _ h
          · cases h

/-- The lines of an error of the proxy. -/
theorem cleanError (exclude : List String) (x : ExtraHeader) {lib : Stdlib Conn}
    {authorize : ProxyRequest → Except String (DialFunc Trace Conn)} {r : ProxyRequest}
    {status : Nat} {header : Header} {text : String}
    (h : (proxyHandler lib authorize r).reply = .error status header text) :
    CleanError status ((errorHeader header).lines exclude ++ x.lines) := by
  have hPlain : ∀ e ∈ (errorHeader ∅).entries,
      e.1 ∈ ["Content-Type", "X-Content-Type-Options"] := by decide +kernel
  have hChallenge : ∀ e ∈ (errorHeader (Header.set ∅ "Proxy-Authenticate"
      "Basic realm=NetConductor")).entries, e.1 ∈ ["Content-Type", "X-Content-Type-Options"] ∨
        e.1 = "Proxy-Authenticate" ∧ e.2 = ["Basic realm=NetConductor"] := by decide +kernel
  have hLine : ∀ line ∈ (errorHeader header).lines exclude ++ x.lines,
      (line.1 ∈ ["Content-Type", "X-Content-Type-Options"] ∨ line ∈ x.lines) ∨
        status = 407 ∧ line.1 = "Proxy-Authenticate" ∧ line.2 = "Basic realm=NetConductor" := by
    intro line hLine
    rcases List.mem_append.mp hLine with hHeader | hExtra
    · obtain ⟨e, he, hKey, hValue⟩ := entry_of_mem_lines hHeader
      rcases error_of_proxyHandler h with rfl | ⟨hStatus, rfl⟩
      · exact .inl (.inl (hKey ▸ hPlain e he))
      · rcases hChallenge e he with hOther | ⟨hOwn, hText⟩
        · exact .inl (.inl (hKey ▸ hOther))
        · rw [hText, List.mem_singleton] at hValue
          exact .inr ⟨hStatus, hKey.symm.trans hOwn, hValue⟩
    · exact .inl (.inr hExtra)
  refine ⟨fun line hMem hKey => ?_, fun line hMem hKey => ?_, fun line hMem hKey => ?_⟩ <;>
    rcases hLine line hMem with (hOther | hExtra) | ⟨hStatus, hOwn, hText⟩
  · simp [hKey] at hOther
  · have hKeys := extra_key hExtra
    simp [hKey] at hKeys
  · simp [hKey] at hOwn
  · simp [hKey] at hOther
  · have hKeys := extra_key hExtra
    simp [hKey] at hKeys
  · exact ⟨hStatus, hText⟩
  · simp [hKey] at hOther
  · exact (extra_key hExtra).2 hKey
  · simp [hKey] at hOwn

/-- `stripHop` deletes the hop-by-hop headers and nothing else, and once is
enough; so a plain request goes out without them, and a response comes back
without them. What either side still receives under such a key is a line that
`net/http` writes of itself; nobody receives the other side's credentials. -/
theorem hop_headers_stripped :
    (∀ (h : Header) (key : String), (key ∈ stripHop h ↔ key ∈ h ∧ ¬Hop h key) ∧
      (¬Hop h key → (stripHop h).lookup key = h.lookup key) ∧
      (stripHop (stripHop h)).lookup key = (stripHop h).lookup key) ∧
    ∀ (lib : Stdlib Conn) (authorize : ProxyRequest → Except String (DialFunc Trace Conn))
      (r : ProxyRequest) (f : RequestFraming) (exclude : List String) (x : ExtraHeader),
      (∀ key, Hop r.header key → key ∉ (outgoing r).header) ∧
      CleanRequest r f (requestLines f (outgoing r)) ∧
      (∀ c resp, (proxyHandler lib authorize r).reply = .response c resp →
        ∃ raw, (lib.exchange c (outgoing r)).result = .ok raw ∧
          (∀ key, Hop raw.header key → key ∉ resp.header) ∧
          CleanResponse raw.header x (replyLines exclude x (.response c resp))) ∧
      ∀ status header text, (proxyHandler lib authorize r).reply = .error status header text →
        CleanError status (replyLines exclude x (.error status header text : ProxyReply Conn)) := by
  have hKept : ∀ (h : Header) (key : String), ¬Hop h key → (stripHop h).lookup key = h.lookup key := by
    intro h key hHop
    rw [lookup_stripHop, if_neg fun hMem => hHop (mem_hopKeys.mp hMem)]
  refine ⟨fun h key => ⟨?_, hKept h key, stripHop_stripHop h key⟩,
    fun lib authorize r f exclude x => ⟨fun key hHop => not_mem_stripHop hHop, cleanRequest f r,
      ?_, fun status header text hReply => cleanError exclude x hReply⟩⟩
  · by_cases hHop : Hop h key
    · simp [not_mem_stripHop hHop, hHop]
    · rw [← AList.lookup_isSome, hKept h key hHop, AList.lookup_isSome]
      simp [hHop]
  · intro c resp hReply
    obtain ⟨raw, hRaw, rfl⟩ := response_of_proxyHandler hReply
    exact ⟨raw, hRaw, fun key hHop => not_mem_stripHop hHop, cleanResponse raw.header exclude x⟩

/-- A server that takes every request and answers nothing but 200. -/
def plainHTTP : Stdlib Unit where
  parseURL _ := .error "invalid URL"
  urlString u := u.host
  target r := .ok r.urlHost
  exchange _ _ := ⟨.ok ⟨200, ∅, []⟩, 0⟩
  readRequest _ := none
  hijack _ := false

/-- A request whose Connection header names the destination and its own keys. -/
def nominatingRequest : ProxyRequest where
  method := "GET"
  host := "hub.example"
  urlScheme := "http"
  urlHost := "hub.example"
  header := Header.set ∅ "Connection" "connection, host"

/-- It is passed on, and its destination receives lines with both keys. -/
theorem own_lines_received :
    ¬∀ (lib : Stdlib Unit) (authorize : ProxyRequest → Except String (DialFunc Unit Unit))
      (r : ProxyRequest) (f : RequestFraming) (c : Unit) (resp : ProxyResponse),
      (proxyHandler lib authorize r).reply = .response c resp →
        ∀ line ∈ requestLines f (outgoing r),
          line.1 ≠ "Proxy-Authorization" ∧ line.1 ≠ "Proxy-Authenticate" ∧
            line.1 ≠ "Connection" ∧ ¬NamedByConnection r.header line.1 := by
  intro hAll
  have hClose := hAll plainHTTP (fun _ => .ok fun _ _ => ⟨(), .ok (), 0⟩) nominatingRequest
    ⟨none, false, []⟩ () ⟨200, stripHop ∅, []⟩ rfl ("Connection", "close") (by simp [requestLines])
  exact hClose.2.2.1 rfl

/-- A Connection value that names itself and the credentials. -/
example : (stripHop (Header.set (Header.set (Header.set ∅ "Connection" "connection, X-Key") "x-key" "1")
    "Accept" "*/*")).keys = ["Accept"] := by decide +kernel

end NetConductor
