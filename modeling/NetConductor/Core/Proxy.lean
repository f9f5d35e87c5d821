import NetConductor.Core.Model
import NetConductor.Semantics.Deadline

/-! Outgoing connections and the HTTP proxy: `DialDirect`, `DialVia` and
`ProxyHandler`. A dial is a task that can be cut off at the deadline of its
context; what it meets on the way out is a parameter. -/
namespace NetConductor
open GoText GoNet Deadline

/-! ### Headers -/

/-- `http.Header`, by canonical key. -/
abbrev Header := GoMap (List String)

def validHeaderFieldByte (c : Char) : Bool :=
  ('a' ≤ c && c ≤ 'z') || ('A' ≤ c && c ≤ 'Z') || isDigit c || c ∈ "!#$%&'*+-.^_`|~".toList

def isLower (c : Char) : Bool := 'a' ≤ c && c ≤ 'z'
def isUpper (c : Char) : Bool := 'A' ≤ c && c ≤ 'Z'

/-- A letter at the start or after a hyphen is written in upper case, any other
in lower case. -/
def canonicalFrom : Bool → Chars → Chars
  | _, [] => []
  | upper, c :: rest =>
      (if upper && isLower c then Char.ofNat (c.toNat - 32)
       else if !upper && isUpper c then Char.ofNat (c.toNat + 32)
       else c) :: canonicalFrom (c = '-') rest

/-- `textproto.CanonicalMIMEHeaderKey`. -/
def canonicalKey (key : String) : String :=
  if key.toList.all validHeaderFieldByte then String.ofList (canonicalFrom true key.toList) else key

namespace Header

def values (h : Header) (key : String) : List String := (h.lookup (canonicalKey key)).getD []
def get (h : Header) (key : String) : String := ((h.values key).head?).getD ""
def set (h : Header) (key value : String) : Header := h.insert (canonicalKey key) [value]
def del (h : Header) (key : String) : Header := h.erase (canonicalKey key)

end Header

def hopHeaders : List String :=
  ["Proxy-Authorization", "Proxy-Authenticate", "Connection", "Keep-Alive", "TE", "Trailer",
    "Transfer-Encoding", "Upgrade"]

/-- The headers that the Connection header lists. -/
def connectionHeaders (h : Header) : List String :=
  (h.values "Connection").flatMap fun v =>
    (v.toList.splitOn ',').map fun k => String.ofList (trimSpace k)

def stripHop (h : Header) : Header :=
  hopHeaders.foldl Header.del ((connectionHeaders h).foldl Header.del h)

/-! ### Requests and credentials -/

/-- `http.Request`, as far as the proxy looks at it. -/
structure ProxyRequest where
  method : String
  host : String
  urlScheme : String
  urlHost : String
  header : Header

structure ProxyResponse where
  status : Nat
  header : Header
  body : List UInt8

/-- `user:password` in Base64, as the client of a proxy sends it. -/
def basicCredentials (user password : String) : String :=
  "Basic " ++ String.ofList (Base64.encode (user ++ ":" ++ password).toUTF8.data.toList)

/-- The two texts of the Basic credentials. Bytes that are no UTF-8 text equal
no id and no token, so that they count as no credentials. -/
def proxyCredentials (r : ProxyRequest) : Option (String × String) := do
  let h := trimPrefix "Basic ".toList (r.header.get "Proxy-Authorization").toList
  let bytes ← Base64.decodeString h
  let text ← String.fromUTF8? ⟨bytes.toArray⟩
  let (u, p) ← cut ':' text.toList
  some (String.ofList u, String.ofList p)

/-- The request that `DialVia` writes. -/
def connectRequest (user : Option (String × String)) (address : String) : ProxyRequest where
  method := "CONNECT"
  host := address
  urlScheme := ""
  urlHost := address
  header :=
    match user with
    | none => ∅
    | some (u, p) => Header.set ∅ "Proxy-Authorization" (basicCredentials u p)

/-! ### Dialing -/

/-- `url.URL`, as far as `DialVia` looks at it. -/
structure URL where
  scheme : String
  user : Option (String × String)
  host : String
deriving DecidableEq

/-- What a dial meets at an address: how the TCP connection comes about, the
status with which an HTTP proxy there answers a request, and what a SOCKS5
client makes of the proxy there. -/
structure Far (Conn : Type) where
  conn : Conn
  connect : Timed String Unit
  answer : ProxyRequest → Timed String Nat
  socks : Option (String × String) → String → Timed String Unit

/-- The outside world in one dial, by TCP address. -/
abbrev Network (Conn : Type) := String → Far Conn

/-- What the code leaves to `net/url` and `net/http`: reading and writing an
address, the address that a transport dials for a request (or why it dials
none), the exchange over the connection it gets, the request that the bytes of
a connection carry, and whether a handler gets the connection itself. -/
structure Stdlib (Conn : Type) where
  parseURL : String → Except String URL
  urlString : URL → String
  target : ProxyRequest → Except String String
  exchange : Conn → ProxyRequest → Timed String ProxyResponse
  readRequest : List UInt8 → Option ProxyRequest
  hijack : ProxyRequest → Bool

variable {Conn : Type}

def timeoutError : String := "i/o timeout"

/-- The TCP connection that the `net.Dialer` of both dials makes. -/
def connectTCP (net : Network Conn) (address : String) : Task String Unit :=
  within (8 * second) (wait timeoutError (net address).connect)

def dialDirect (net : Network Conn) (address : String) : Task String Conn :=
  map (fun _ => (net address).conn) (connectTCP net address)

/-- Only status 200 opens the way. -/
def accepted (status : Nat) : Task String Unit :=
  if status = 200 then wait timeoutError ⟨.ok (), 0⟩
  else fail s!"upstream CONNECT returned {status}"

/-- What follows on the connection to an HTTP proxy; its own limit begins here. -/
def requestTunnel (far : Far Conn) (r : ProxyRequest) : Task String Unit :=
  within (10 * second) (andThen (wait timeoutError (far.answer r)) accepted)

def dialVia (lib : Stdlib Conn) (net : Network Conn) (upstream address : String) :
    Task String Conn :=
  match lib.parseURL upstream with
  | .error e => fail e
  | .ok u =>
      if u.scheme = "socks5" then
        map (fun _ => (net u.host).conn)
          (andThen (connectTCP net u.host) fun _ =>
            wait timeoutError ((net u.host).socks u.user address))
      else if u.scheme ≠ "http" then fail "unsupported proxy scheme"
      else
        andThen (dialDirect net u.host) fun c =>
          map (fun _ => c) (requestTunnel (net u.host) (connectRequest u.user address))

/-! ### The HTTP proxy -/

/-- One call of a `DialFunc`: what it left behind on the way, and its outcome. -/
structure DialRun (Trace Conn : Type) where
  trace : Trace
  outcome : Timed String Conn

abbrev DialFunc (Trace Conn : Type) := String → Left → DialRun Trace Conn

/-- What the client of the proxy gets: an error, a tunnel over a connection, a
response that came over a connection, or a closed connection. -/
inductive ProxyReply (Conn : Type) where
  | error (status : Nat) (header : Header) (text : String)
  | tunnel (conn : Conn)
  | response (conn : Conn) (r : ProxyResponse)
  | dropped

/-- A request served: the dials made for it, the reply, and the time until then. -/
structure Served (Trace Conn : Type) where
  dials : List (DialRun Trace Conn)
  reply : ProxyReply Conn
  elapsed : Nat

variable {Trace : Type}

def refuse (status : Nat) (text : String) : Served Trace Conn := ⟨[], .error status ∅ text, 0⟩

/-- The method CONNECT: the dial has twenty seconds. -/
def serveConnect (lib : Stdlib Conn) (dial : DialFunc Trace Conn) (r : ProxyRequest) :
    Served Trace Conn :=
  match splitHostPort r.host.toList with
  | none => refuse 400 "invalid destination"
  | some _ =>
      let d := dial r.host (some (20 * second))
      match d.outcome.result with
      | .error _ => ⟨[d], .error 502 ∅ "all configured exits unavailable", d.outcome.elapsed⟩
      | .ok dest => ⟨[d], if lib.hijack r then .tunnel dest else .dropped, d.outcome.elapsed⟩

/-- The clone of the request that goes out. -/
def outgoing (r : ProxyRequest) : ProxyRequest := { r with header := stripHop r.header }

/-- A request with an absolute URL. The transport keeps no connections, and so
dials once for it at most; nothing limits that dial but its own parts. -/
def servePlain (lib : Stdlib Conn) (dial : DialFunc Trace Conn) (r : ProxyRequest) :
    Served Trace Conn :=
  match lib.target (outgoing r) with
  | .error _ => refuse 502 "all configured exits unavailable"
  | .ok address =>
      let d := dial address none
      match d.outcome.result with
      | .error _ => ⟨[d], .error 502 ∅ "all configured exits unavailable", d.outcome.elapsed⟩
      | .ok c =>
          let resp := lib.exchange c (outgoing r)
          match resp.result with
          | .error _ =>
              ⟨[d], .error 502 ∅ "all configured exits unavailable",
                d.outcome.elapsed + resp.elapsed⟩
          | .ok resp' =>
              ⟨[d], .response c { resp' with header := stripHop resp'.header },
                d.outcome.elapsed + resp.elapsed⟩

def proxyHandler (lib : Stdlib Conn) (authorize : ProxyRequest → Except String (DialFunc Trace Conn))
    (r : ProxyRequest) : Served Trace Conn :=
  match authorize r with
  | .error _ =>
      ⟨[], .error 407 (Header.set ∅ "Proxy-Authenticate" "Basic realm=NetConductor")
        "proxy authentication required", 0⟩
  | .ok dial =>
      if r.method = "CONNECT" then serveConnect lib dial r
      else if r.urlScheme ≠ "http" ∨ r.urlHost = "" then
        refuse 400 "HTTP proxy requires absolute URL"
      else servePlain lib dial r

/-! ### What they do -/

theorem cancels_connectTCP (net : Network Conn) (address : String) :
    Cancels (connectTCP net address) := (cancels_wait _ _).within _

theorem cancels_dialDirect (net : Network Conn) (address : String) :
    Cancels (dialDirect net address) := (cancels_connectTCP net address).map _

theorem cancels_accepted (status : Nat) : Cancels (accepted status) := by
  unfold accepted
  split
  · exact cancels_wait _ _
  · exact cancels_fail _

theorem cancels_requestTunnel (far : Far Conn) (r : ProxyRequest) :
    Cancels (requestTunnel far r) :=
  ((cancels_wait _ _).andThen cancels_accepted).within _

/-- A dial through a proxy ends with its deadline. -/
theorem cancels_dialVia (lib : Stdlib Conn) (net : Network Conn) (upstream address : String) :
    Cancels (dialVia lib net upstream address) := by
  unfold dialVia
  split
  · exact cancels_fail _
  · split
    · exact ((cancels_connectTCP net _).andThen fun _ => cancels_wait _ _).map _
    · split
      · exact cancels_fail _
      · exact (cancels_dialDirect net _).andThen fun _ => (cancels_requestTunnel _ _).map _

theorem Header.get_set (h : Header) (key value : String) : (h.set key value).get key = value := by
  simp [Header.get, Header.values, Header.set]

theorem fromUTF8_toUTF8 (s : String) : String.fromUTF8? ⟨s.toUTF8.data⟩ = some s :=
  dif_pos s.isValidUTF8

/-- Credentials written for a user without a colon are read back. -/
theorem proxyCredentials_connectRequest {user : String} (hUser : ':' ∉ user.toList)
    (password address : String) :
    proxyCredentials (connectRequest (some (user, password)) address) = some (user, password) := by
  have hHeader : (connectRequest (some (user, password)) address).header.get "Proxy-Authorization" =
      basicCredentials user password := Header.get_set ..
  have hPrefix : trimPrefix "Basic ".toList (basicCredentials user password).toList =
      Base64.encode (user ++ ":" ++ password).toUTF8.data.toList := by
    simp [basicCredentials, trimPrefix]
  have hText : (user ++ ":" ++ password).toList = user.toList ++ ':' :: password.toList := by simp
  simp only [proxyCredentials, hHeader, hPrefix, Base64.decodeString_encode, Option.bind_eq_bind,
    Option.bind_some, Array.toArray_toList, fromUTF8_toUTF8, hText, cut_append hUser,
    String.ofList_toList]

/-! ### What passes through -/

/-- An entry seen from outside: the dials made for it, the connection whose
bytes reach the client, and whether the client is told that the dial failed. -/
structure Passed (Trace Conn : Type) where
  dials : List (DialRun Trace Conn)
  conn : Option Conn
  refused : Bool

def ProxyReply.conn : ProxyReply Conn → Option Conn
  | .tunnel c => some c
  | .response c _ => some c
  | _ => none

/-- What the client of a proxy reads as the status of its answer. -/
def ProxyReply.status : ProxyReply Conn → Except String Nat
  | .error status _ _ => .ok status
  | .tunnel _ => .ok 200
  | .response _ r => .ok r.status
  | .dropped => .error "EOF"

def ProxyReply.isBadGateway : ProxyReply Conn → Bool
  | .error 502 _ _ => true
  | _ => false

def Served.passed (s : Served Trace Conn) : Passed Trace Conn :=
  ⟨s.dials, s.reply.conn, s.reply.isBadGateway⟩

/-- Where a request wants to go. -/
def requestDestination (lib : Stdlib Conn) (r : ProxyRequest) : Option String :=
  if r.method = "CONNECT" then (splitHostPort r.host.toList).map fun _ => r.host
  else if r.urlScheme ≠ "http" ∨ r.urlHost = "" then none
  else (lib.target (outgoing r)).toOption

/-- Without a destination nothing is dialed. With one it is dialed once, only
the connection of that dial reaches the client, and its failure is told. -/
def Passes (dial : DialFunc Trace Conn) (destination : Option String) (p : Passed Trace Conn) :
    Prop :=
  match destination with
  | none => p.dials = [] ∧ p.conn = none
  | some address => ∃ left, p.dials = [dial address left] ∧
      (∀ c, p.conn = some c → (dial address left).outcome.result = .ok c) ∧
      ((dial address left).outcome.Fails → p.refused = true)

/-- Without authorization nothing is dialled and nothing is connected. -/
theorem proxyHandler_unauthorized {lib : Stdlib Conn} {r : ProxyRequest}
    {authorize : ProxyRequest → Except String (DialFunc Trace Conn)} {e : String}
    (h : authorize r = .error e) :
    (proxyHandler lib authorize r).dials = [] ∧ (proxyHandler lib authorize r).reply.conn = none := by
  simp [proxyHandler, h, ProxyReply.conn]

/-- A tunnel dials the host of its request line, if that has a port. -/
theorem serveConnect_passes (lib : Stdlib Conn) (dial : DialFunc Trace Conn) (r : ProxyRequest) :
    Passes dial ((splitHostPort r.host.toList).map fun _ => r.host)
      (serveConnect lib dial r).passed := by
  unfold serveConnect
  cases splitHostPort r.host.toList with
  | none => exact ⟨rfl, rfl⟩
  | some hp =>
      refine ⟨some (20 * second), ?_⟩
      cases hDial : (dial r.host (some (20 * second))).outcome.result with
      | error e => simp [hDial, Served.passed, ProxyReply.conn, ProxyReply.isBadGateway]
      | ok c =>
          refine ⟨by simp [hDial, Served.passed], fun c' hc => ?_, fun hFails => absurd hDial (hFails c)⟩
          cases hHijack : lib.hijack r <;>
            simp [hDial, hHijack, Served.passed, ProxyReply.conn] at hc
          exact congrArg Except.ok hc

/-- A plain request dials the host and port of its target. -/
theorem servePlain_passes (lib : Stdlib Conn) (dial : DialFunc Trace Conn) (r : ProxyRequest) :
    Passes dial (lib.target (outgoing r)).toOption (servePlain lib dial r).passed := by
  unfold servePlain
  cases lib.target (outgoing r) with
  | error e => exact ⟨rfl, rfl⟩
  | ok address =>
      refine ⟨none, ?_⟩
      cases hDial : (dial address none).outcome.result with
      | error e => simp [hDial, Served.passed, ProxyReply.conn, ProxyReply.isBadGateway]
      | ok c =>
          cases hExchange : (lib.exchange c (outgoing r)).result with
          | error e =>
              refine ⟨by simp [hDial, hExchange, Served.passed], fun c' hc => ?_,
                fun hFails => absurd hDial (hFails c)⟩
              simp [hDial, hExchange, Served.passed, ProxyReply.conn] at hc
          | ok resp =>
              refine ⟨by simp [hDial, hExchange, Served.passed], fun c' hc => ?_,
                fun hFails => absurd hDial (hFails c)⟩
              simp only [hDial, hExchange, Served.passed, ProxyReply.conn, Option.some.injEq] at hc
              exact congrArg Except.ok hc

/-- A request that is let through dials its own destination and nothing else. -/
theorem proxyHandler_passes {lib : Stdlib Conn} {r : ProxyRequest}
    {authorize : ProxyRequest → Except String (DialFunc Trace Conn)} {dial : DialFunc Trace Conn}
    (h : authorize r = .ok dial) :
    Passes dial (requestDestination lib r) (proxyHandler lib authorize r).passed := by
  simp only [proxyHandler, h, requestDestination]
  split
  · exact serveConnect_passes lib dial r
  · split
    · exact ⟨rfl, rfl⟩
    · exact servePlain_passes lib dial r

end NetConductor
