import NetConductor.Server.Dial
import NetConductor.Server.Runs

/-! The agent's proxy, which asks the hub for every connection, and the time
that the two machines leave to a policy. -/
namespace NetConductor
open GoText GoNet Deadline

variable {Conn Conn' : Type}

namespace Agent

/-- The hub's proxy as the agent addresses it, with the device's credentials. -/
def hubURL (c : AgentConfig) : URL := ⟨"http", some (c.id, c.token), c.hubProxy⟩

def dialHub (lib : Stdlib Conn) (net : Network Conn) (c : AgentConfig) : DialFunc Unit Conn :=
  fun address left =>
    ⟨(), if c.id = "" ∨ c.hubProxy = "" then fail "not enrolled" left
      else dialVia lib net (lib.urlString (hubURL c)) address left⟩

/-- The proxy on the device asks for no credentials. -/
def proxyHandler (lib : Stdlib Conn) (net : Network Conn) (c : AgentConfig) (r : ProxyRequest) :
    Served Unit Conn :=
  NetConductor.proxyHandler lib (fun _ => .ok (dialHub lib net c)) r

end Agent

/-- The way between an agent and the hub: how the connection comes about, and
what the request and its answer need on the way. -/
structure HubLink (Conn : Type) where
  conn : Conn
  connect : Timed String Unit
  lag : Nat

/-- The hub as an agent meets it. -/
def hubFar (link : HubLink Conn) (serve : ProxyRequest → Served (PolicyDial Conn') Conn') :
    Far Conn where
  conn := link.conn
  connect := link.connect
  answer r := ⟨(serve r).reply.status, link.lag + (serve r).elapsed⟩
  socks _ _ := ⟨.error "unexpected protocol version", link.lag⟩

/-- What a client on the device gets for its request. -/
def throughAgent (lib : Stdlib Conn) (lib' : Stdlib Conn') (net : Nat → Network Conn') (s : Server)
    (c : AgentConfig) (link : HubLink Conn) (r : ProxyRequest) : Served Unit Conn :=
  Agent.proxyHandler lib (fun _ => hubFar link (s.proxyHandler lib' net)) c r

/-- A request for a tunnel to an address. -/
structure IsConnect (lib : Stdlib Conn) (r : ProxyRequest) : Prop where
  method : r.method = "CONNECT"
  destination : (splitHostPort r.host.toList).isSome = true
  hijack : lib.hijack r = true

/-- An enrolled agent whose device is on the hub's record, over a link on which
the connection itself is made in time. -/
structure Enrolled (lib : Stdlib Conn) (s : Server) (c : AgentConfig) (link : HubLink Conn) :
    Prop where
  id : c.id ≠ ""
  plain : ':' ∉ c.id.toList
  hubProxy : c.hubProxy ≠ ""
  device : (s.device c.id).any (fun d => equal d.token c.token) = true
  url : lib.parseURL (lib.urlString (Agent.hubURL c)) = .ok (Agent.hubURL c)
  connects : link.connect.result = .ok ()
  inTime : link.connect.elapsed < 8 * second

/-- A client has its tunnel. -/
def Succeeds {Trace : Type} (served : Served Trace Conn) : Prop := ∃ c, served.reply = .tunnel c

def AcceptsWithin (prompt : Nat) (r : Timed String Conn) : Prop := ∃ c t, r = ⟨.ok c, t⟩ ∧ t ≤ prompt

/-- Some exit would accept promptly when tried, or, where all exits fail and the
policy allows it, the direct dial. -/
def WouldAccept (prompt : Nat) (lib : Stdlib Conn) (net : Nat → Network Conn) (s : Server)
    (id address : String) : Prop :=
  (∃ r ∈ exitAttempts lib net s id address, AcceptsWithin prompt r) ∨
    ((∀ r ∈ exitAttempts lib net s id address, r.Fails) ∧
      ∃ r ∈ directAttempt net s id address, AcceptsWithin prompt r)

/-- The attempts up to the first that is accepted, and the way there, take less
than a given time. -/
def AcceptedBefore (limit lag : Nat) (lib : Stdlib Conn) (net : Nat → Network Conn) (s : Server)
    (id address : String) : Prop :=
  ∃ t ∈ acceptTime (attempts lib net s id address), lag + t < limit

section
variable {lib : Stdlib Conn} {net : Nat → Network Conn} {s : Server} {r : ProxyRequest} {id : String}

theorem proxyHandler_eq (hSource : s.proxySource r = some id) (hr : IsConnect lib r) :
    s.proxyHandler lib net r = serveConnect lib (s.dialPolicy lib net id) r := by
  simp only [Server.proxyHandler, proxyHandler, Server.authorizeProxy, hSource, hr.method, if_true]

/-- The hub leaves a tunnel request twenty seconds. -/
theorem hub_succeeds_iff (hSource : s.proxySource r = some id) (hr : IsConnect lib r) {t : Nat} :
    (Succeeds (s.proxyHandler lib net r) ∧ (s.proxyHandler lib net r).elapsed = t) ↔
      acceptTime (attempts lib net s id r.host) = some t ∧ t < 20 * second := by
  obtain ⟨hp, hSplit⟩ := Option.isSome_iff_exists.mp hr.destination
  rw [proxyHandler_eq hSource hr, ← dialPolicy_ok_iff]
  rcases hDial : (s.dialPolicy lib net id r.host (some (20 * second))).outcome with ⟨e | c, u⟩
  · simp [serveConnect, hSplit, hDial, Succeeds]
  · simp [serveConnect, hSplit, hDial, Succeeds, hr.hijack]

/-- Only a tunnel is answered with status 200. -/
theorem hub_status (hSource : s.proxySource r = some id) (hr : IsConnect lib r) :
    (s.proxyHandler lib net r).reply.status = .ok 200 ↔ Succeeds (s.proxyHandler lib net r) := by
  obtain ⟨hp, hSplit⟩ := Option.isSome_iff_exists.mp hr.destination
  rw [proxyHandler_eq hSource hr]
  rcases hDial : (s.dialPolicy lib net id r.host (some (20 * second))).outcome with ⟨e | c, u⟩
  · simp [serveConnect, hSplit, hDial, Succeeds, ProxyReply.status]
  · simp [serveConnect, hSplit, hDial, Succeeds, hr.hijack, ProxyReply.status]

end

/-- The tunnel request to an HTTP proxy is granted when its answer, with status
200, comes within ten seconds. -/
theorem requestTunnel_ok_iff {far : Far Conn} {r : ProxyRequest} {l : Nat} (hl : 10 * second ≤ l) :
    (requestTunnel far r (some l)).result = .ok () ↔
      (far.answer r).result = .ok 200 ∧ (far.answer r).elapsed < 10 * second := by
  have hLimit : requestTunnel far r (some l) =
      andThen (wait timeoutError (far.answer r)) accepted (some (10 * second)) := by
    have hMin : earlier (some l) (10 * second) = some (10 * second) := by
      simp only [earlier, Option.elim_some, Option.some.injEq]
      exact Nat.min_eq_left hl
    rw [requestTunnel, within, hMin]
  have hCancels : Cancels (andThen (wait timeoutError (far.answer r)) accepted) :=
    (cancels_wait _ _).andThen cancels_accepted
  have hFull : ∀ t, andThen (wait timeoutError (far.answer r)) accepted none = ⟨.ok (), t⟩ ↔
      (far.answer r).result = .ok 200 ∧ (far.answer r).elapsed = t := by
    intro t
    rcases hAnswer : far.answer r with ⟨e | status, u⟩
    · simp [andThen, wait]
    · by_cases hStatus : status = 200
      · simp [andThen, wait, accepted, hStatus]
      · simp [andThen, wait, accepted, hStatus, fail]
  rw [hLimit]
  constructor
  · intro hOk
    obtain ⟨hNone, hLess⟩ := (hCancels.ok_iff (t := _)).mp (by rw [← hOk])
    obtain ⟨hStatus, hElapsed⟩ := (hFull _).mp hNone
    exact ⟨hStatus, by rwa [hElapsed]⟩
  · rintro ⟨hStatus, hLess⟩
    rw [hCancels.ok_iff.mpr ⟨(hFull _).mpr ⟨hStatus, rfl⟩, hLess⟩]

section
variable {lib : Stdlib Conn} {lib' : Stdlib Conn'} {net : Nat → Network Conn'} {s : Server}
  {c : AgentConfig} {link : HubLink Conn} {r : ProxyRequest}

/-- The hub knows the agent's requests by their credentials. -/
theorem Enrolled.proxySource (h : Enrolled lib s c link) (address : String) :
    s.proxySource (connectRequest (some (c.id, c.token)) address) = some c.id := by
  simp only [Server.proxySource, proxyCredentials_connectRequest h.plain, h.device, if_true]

/-- Over the link of an enrolled agent a dial to the hub waits for the answer. -/
theorem dialHub_ok_iff (h : Enrolled lib s c link) {serve : ProxyRequest → Served (PolicyDial Conn') Conn'}
    {address : String} :
    (∃ c', (Agent.dialHub lib (fun _ => hubFar link serve) c address
        (some (20 * second))).outcome.result = .ok c') ↔
      (serve (connectRequest (some (c.id, c.token)) address)).reply.status = .ok 200 ∧
        link.lag + (serve (connectRequest (some (c.id, c.token)) address)).elapsed <
          10 * second := by
  have hFull : dialDirect (fun _ => hubFar link serve) c.hubProxy none =
      ⟨.ok link.conn, link.connect.elapsed⟩ := by
    have hWait : wait timeoutError link.connect (some (8 * second)) = link.connect :=
      if_pos h.inTime
    simp only [dialDirect, map, connectTCP, within, earlier, Option.elim_none, hubFar, hWait,
      h.connects, Except.map]
  have hConnect : dialDirect (fun _ => hubFar link serve) c.hubProxy (some (20 * second)) =
      ⟨.ok link.conn, link.connect.elapsed⟩ :=
    (cancels_dialDirect _ _).ok_iff.mpr ⟨hFull, by have := h.inTime; omega⟩
  have hVia : Agent.dialHub lib (fun _ => hubFar link serve) c address (some (20 * second)) =
      ⟨(), andThen (dialDirect (fun _ => hubFar link serve) c.hubProxy) (fun c' => map (fun _ => c')
        (requestTunnel (hubFar link serve) (connectRequest (some (c.id, c.token)) address)))
        (some (20 * second))⟩ := by
    simp only [Agent.dialHub, h.id, h.hubProxy, or_self, if_false, dialVia, h.url]
    simp [Agent.hubURL]
  rw [hVia, andThen_ok hConnect, Option.map_some]
  have hRest : 10 * second ≤ 20 * second - link.connect.elapsed :=
    Nat.le_sub_of_add_le (by have := h.inTime; omega)
  rw [show link.lag + (serve (connectRequest (some (c.id, c.token)) address)).elapsed =
      ((hubFar link serve).answer (connectRequest (some (c.id, c.token)) address)).elapsed from rfl,
    show (serve (connectRequest (some (c.id, c.token)) address)).reply.status =
      ((hubFar link serve).answer (connectRequest (some (c.id, c.token)) address)).result from rfl,
    ← requestTunnel_ok_iff hRest]
  rcases hResult : (requestTunnel (hubFar link serve)
      (connectRequest (some (c.id, c.token)) address)
      (some (20 * second - link.connect.elapsed))).result with e | ⟨⟩
  · simp [map, hResult, Except.map]
  · simp [map, hResult, Except.map]

/-- The agent gives the hub ten seconds for its answer. -/
theorem agent_succeeds_iff (h : Enrolled lib s c link) (hr : IsConnect lib r)
    (hHub : IsConnect lib' (connectRequest (some (c.id, c.token)) r.host)) :
    Succeeds (throughAgent lib lib' net s c link r) ↔
      AcceptedBefore (10 * second) link.lag lib' net s c.id r.host := by
  obtain ⟨hp, hSplit⟩ := Option.isSome_iff_exists.mp hr.destination
  have hSource := h.proxySource r.host
  have hServed : throughAgent lib lib' net s c link r =
      serveConnect lib (Agent.dialHub lib (fun _ => hubFar link (s.proxyHandler lib' net)) c) r := by
    simp only [throughAgent, Agent.proxyHandler, proxyHandler, hr.method, if_true]
  have hDial : Succeeds (throughAgent lib lib' net s c link r) ↔
      ∃ c', (Agent.dialHub lib (fun _ => hubFar link (s.proxyHandler lib' net)) c r.host
        (some (20 * second))).outcome.result = .ok c' := by
    rw [hServed]
    rcases hOutcome : (Agent.dialHub lib (fun _ => hubFar link (s.proxyHandler lib' net)) c r.host
        (some (20 * second))).outcome.result with e | c'
    · simp [serveConnect, hSplit, hOutcome, Succeeds]
    · simp [serveConnect, hSplit, hOutcome, Succeeds, hr.hijack]
  rw [hDial, dialHub_ok_iff h, hub_status hSource hHub]
  constructor
  · rintro ⟨hOk, hLess⟩
    obtain ⟨hAccept, -⟩ := (hub_succeeds_iff hSource hHub).mp ⟨hOk, rfl⟩
    exact ⟨_, hAccept, hLess⟩
  · rintro ⟨t, hAccept, hLess⟩
    have hInTime : acceptTime (attempts lib' net s c.id r.host) = some t ∧ t < 20 * second :=
      ⟨hAccept, by omega⟩
    obtain ⟨hOk, hElapsed⟩ := (hub_succeeds_iff hSource hHub).mpr hInTime
    exact ⟨hOk, by rwa [hElapsed]⟩

end

/-- A policy keeps its promise, at the hub and through an agent, exactly when
the first attempt that is accepted is accepted within the time that each of the
two leaves: twenty seconds at the hub, ten, with the way there, at the agent. -/
theorem failover_in_time_iff {lib : Stdlib Conn} {lib' : Stdlib Conn'} {net : Nat → Network Conn'}
    {s : Server} {c : AgentConfig} {link : HubLink Conn} (h : Enrolled lib s c link) (prompt : Nat) :
    (∀ r id, s.proxySource r = some id → IsConnect lib' r →
      ((WouldAccept prompt lib' net s id r.host → Succeeds (s.proxyHandler lib' net r)) ↔
        ¬WouldAccept prompt lib' net s id r.host ∨
          AcceptedBefore (20 * second) 0 lib' net s id r.host)) ∧
    ∀ r, IsConnect lib r → IsConnect lib' (connectRequest (some (c.id, c.token)) r.host) →
      ((WouldAccept prompt lib' net s c.id r.host →
          Succeeds (throughAgent lib lib' net s c link r)) ↔
        ¬WouldAccept prompt lib' net s c.id r.host ∨
          AcceptedBefore (10 * second) link.lag lib' net s c.id r.host) := by
  refine ⟨fun r id hSource hr => ?_, fun r hr hHub => ?_⟩
  · have hAtHub : Succeeds (s.proxyHandler lib' net r) ↔
        AcceptedBefore (20 * second) 0 lib' net s id r.host := by
      constructor
      · intro hOk
        obtain ⟨hAccept, hLess⟩ := (hub_succeeds_iff hSource hr).mp ⟨hOk, rfl⟩
        exact ⟨_, hAccept, by rwa [Nat.zero_add]⟩
      · rintro ⟨t, hAccept, hLess⟩
        rw [Nat.zero_add] at hLess
        exact ((hub_succeeds_iff hSource hr).mpr ⟨hAccept, hLess⟩).1
    rw [hAtHub, imp_iff_not_or]
  · rw [agent_succeeds_iff h hr hHub, imp_iff_not_or]

/-! ### Hanging exits -/

/-- Addresses without anything that has to be escaped. -/
def plainURL : Stdlib Unit where
  parseURL text :=
    match cut ':' text.toList with
    | some (scheme, '/' :: '/' :: rest) =>
        match cut '@' rest with
        | none => .ok ⟨String.ofList scheme, none, String.ofList rest⟩
        | some (user, host) =>
            .ok ⟨String.ofList scheme,
              (cut ':' user).map fun up => (String.ofList up.1, String.ofList up.2),
              String.ofList host⟩
    | _ => .error "missing protocol scheme"
  urlString u :=
    u.scheme ++ "://" ++ (u.user.elim "" fun up => up.1 ++ ":" ++ up.2 ++ "@") ++ u.host
  target _ := .error "unsupported"
  exchange _ _ := ⟨.error "EOF", 0⟩
  readRequest _ := none
  hijack _ := true

/-- The first dials hang, all later ones are accepted at once. -/
def hangingNet (hanging : Nat) : Nat → Network Unit := fun n _ =>
  ⟨(), ⟨.ok (), if n < hanging then hour else 0⟩, fun _ => ⟨.ok 200, 0⟩, fun _ _ => ⟨.ok (), 0⟩⟩

def exitDevice (id : String) : Device :=
  { Device.zero with id := id, ip := "10.77.0.9", proxyType := "socks5", proxyPort := 1080 }

/-- A hub with a laptop and three exits on record. -/
def exitsServer : Server :=
  newServer sampleConfig ⟨{ exitDevice "laptop" with token := sampleToken 't' } ::
    ["exit1", "exit2", "exit3"].map exitDevice, [], [], []⟩

def laptop : AgentConfig := ⟨"laptop", sampleToken 't', "10.77.0.1:18090"⟩

def promptLink : HubLink Unit := ⟨(), ⟨.ok (), 0⟩, 0⟩

/-- What a request to store the laptop's policy leaves. -/
def withPolicy (exits : List String) : Server × Answer :=
  (Server.putPolicy (sampleEnv 'a' 'b') "laptop" (.ok ⟨"", exits, "block", ""⟩) exitsServer).result true

def siteRequest : ProxyRequest := connectRequest none "example.com:443"

theorem laptop_enrolled (exits : List String)
    (hDevice : ((withPolicy exits).1.device "laptop").any
      (fun d => equal d.token (sampleToken 't')) = true) :
    Enrolled plainURL (withPolicy exits).1 laptop promptLink :=
  ⟨by decide, by decide, by decide, hDevice, by decide +kernel, rfl, by decide⟩

theorem failover_after_a_hanging_exit :
    Succeeds (throughAgent plainURL plainURL (hangingNet 1) (withPolicy ["exit1", "exit2"]).1 laptop
      promptLink siteRequest) := by
  have hPromise := (@failover_in_time_iff _ _ plainURL plainURL (hangingNet 1) _ _ _
    (laptop_enrolled ["exit1", "exit2"] (by decide +kernel)) 0).2 siteRequest
    ⟨rfl, by decide +kernel, rfl⟩ ⟨rfl, by decide +kernel, rfl⟩
  refine hPromise.mpr (.inr ⟨6 * second, by decide +kernel, by decide⟩) (.inl ?_)
  exact ⟨⟨.ok (), 0⟩, by decide +kernel, (), 0, rfl, Nat.le_refl 0⟩

/-- With two exits that hang, the hub reaches the third after twelve seconds, and
the agent has given up by then. -/
theorem two_hanging_exits :
    ¬∀ (lib lib' : Stdlib Unit) (net : Nat → Network Unit) (s : Server) (env : Env) (p p' : Policy)
        (c : AgentConfig) (link : HubLink Unit) (r : ProxyRequest),
      ((s.putPolicy env c.id (.ok p)).result true).2.reply = .json (.policy p') →
      Enrolled lib ((s.putPolicy env c.id (.ok p)).result true).1 c link →
      IsConnect lib r → IsConnect lib' (connectRequest (some (c.id, c.token)) r.host) →
      WouldAccept 0 lib' net ((s.putPolicy env c.id (.ok p)).result true).1 c.id r.host →
      Succeeds (throughAgent lib lib' net ((s.putPolicy env c.id (.ok p)).result true).1 c link r) := by
  intro hAll
  have hEnrolled := laptop_enrolled ["exit1", "exit2", "exit3"] (by decide +kernel)
  have hReply : (withPolicy ["exit1", "exit2", "exit3"]).2.reply =
      .json (.policy ⟨"laptop", ["exit1", "exit2", "exit3"], "block", ""⟩) := by decide +kernel
  have hOk := hAll plainURL plainURL (hangingNet 2) exitsServer (sampleEnv 'a' 'b')
    ⟨"", ["exit1", "exit2", "exit3"], "block", ""⟩ _ laptop promptLink siteRequest hReply hEnrolled
    ⟨rfl, by decide +kernel, rfl⟩ ⟨rfl, by decide +kernel, rfl⟩
    (.inl ⟨⟨.ok (), 0⟩, by decide +kernel, (), 0, rfl, Nat.le_refl 0⟩)
  obtain ⟨t, hAccept, hLess⟩ := (agent_succeeds_iff hEnrolled ⟨rfl, by decide +kernel, rfl⟩
    ⟨rfl, by decide +kernel, rfl⟩).mp hOk
  have hTwelve : acceptTime (attempts plainURL (hangingNet 2)
      (withPolicy ["exit1", "exit2", "exit3"]).1 "laptop" "example.com:443") =
      some (12 * second) := by decide +kernel
  cases hTwelve.symm.trans hAccept
  exact absurd hLess (by decide)

end NetConductor
