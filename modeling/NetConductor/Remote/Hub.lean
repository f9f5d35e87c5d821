import NetConductor.Remote.Offer
import NetConductor.Remote.Handle
import NetConductor.Server.Devices

/-! The remote hub: any number of agent connections and browser requests, each
handled by a goroutine of its own, and the sessions at the far end of the agent
connections. Every step is one critical section, one send, or what a goroutine
does between two of them. -/
namespace NetConductor

structure Message where
  sid : String
  type : String
  data : Option Json

/-- A websocket is named by the connection or request it belongs to. -/
inductive WebSocket where
  | agent (n : Nat)
  | browser (b : Nat)
deriving DecidableEq

/-- An entry of the hub's map: the request that registered, and its device. -/
structure RemoteBrowser where
  conn : Nat
  device : String

/-- What `remoteAgent` has checked before it upgrades. -/
structure Credentials where
  device : Device
  bearer : String
  valid : equal bearer device.token = true
  notCloud : device.id ≠ "cloud"

/-- Where `remoteAgent` is. -/
inductive AgentPhase where
  | connected
  | replacing (old : Option Nat)
  | reading
  | ponging
  | forwarding (m : Message)
  | delivering (m : Message) (b : RemoteBrowser)
  | leaving
  | cleaning
  | done

/-- An agent connection. `sent` are all messages written to it, each with the
browser request whose handler wrote it, and the device has read the first
`read` of them. The device's map points into the sessions it ever created. -/
structure AgentConn where
  credentials : Credentials
  cfg : RemoteConfig
  phase : AgentPhase
  sent : List (Option Nat × Message)
  read : Nat
  sessions : GoMap Nat
  created : List (String × Access)
  ended : Bool

def AgentConn.device (c : AgentConn) : String := c.credentials.device.id

/-- Where `remoteBrowser` is. -/
inductive BrowserPhase where
  | answered (r : Reply)
  | looked
  | admitted
  | upgraded
  | opened
  | serving
  | forwarding (m : Message)
  | leaving
  | unregistering
  | ending
  | closing
  | done

/-- A browser request; the last session made in the server's own process is its
`local`. -/
structure Browser where
  id : String
  mode : String
  dev : Device
  agent : Option Nat
  sid : Option String
  phase : BrowserPhase
  offered : Bool
  made : List Access
  panicked : Bool

/-- A message written to a browser, and the agent connection it came from; the
server's own have none. -/
structure Received where
  browser : Nat
  source : Option Nat
  message : Message

structure Hub where
  server : Server
  agents : GoMap Nat
  browsers : GoMap RemoteBrowser
  conns : List AgentConn
  handlers : List Browser
  closed : List WebSocket
  received : List Received

/-- The other handlers may leave the server's memory as they like at any time. -/
inductive AgentAct where
  | register
  | closeOld
  | read (m : Message)
  | fails
  | pong (ok : Bool)
  | lookUp
  | deliver (ok : Bool)
  | close
  | cleanUp

inductive FarAct where
  | receive (failure : Option String)
  | leave
  | handle (i : Nat) (t : Outside × RemoteRequest)

inductive BrowserAct where
  | count
  | upgrade (token : Option String)
  | insert
  | auditOpen (now : Time)
  | read (m : Message) (admin : Bool) (failure : Option String)
  | fails
  | forward (ok : Bool)
  | handle (i : Nat) (t : Outside × RemoteRequest)
  | signal (kind : String) (data : Json)
  | expire
  | sendClose (ok : Bool)
  | remove
  | auditClose (now : Time)
  | close

inductive HubLabel where
  | server (s : Server)
  | connect (id bearer user key fingerprint : String)
  | agent (n : Nat) (a : AgentAct)
  | far (n : Nat) (a : FarAct)
  | open_ (id mode : String)
  | browser (b : Nat) (a : BrowserAct)

variable {S : Type}

/-- `remote.New`, as far as it decides; `failure` is the error of a WebRTC call,
if one fails. -/
def remoteNew (cfg : RemoteConfig) (mode : String) (failure : Option String) :
    Except String Access :=
  if mode ≠ "ssh" ∧ mode ≠ "files" ∧ mode ≠ "desktop" then .error "invalid remote mode"
  else if mode = "desktop" ∧ cfg.desktop = false then
    .error "remote desktop requires a logged-in Windows client"
  else
    match failure with
    | some e => .error e
    | none => .ok (Access.new cfg mode)

/-! ### The device's end of a connection -/

namespace AgentConn

/-- What the device answers to a refused offer goes back like any message of
its own. -/
def receiveOffer (C : SDPCodec S) (m : Message) (failure : Option String) (c : AgentConn) : AgentConn :=
  if (c.sessions.lookup m.sid).isSome = true ∨ 8 ≤ c.sessions.entries.length then c
  else
    match Offer.unmarshal C m.data with
    | none => c
    | some offer =>
        match remoteNew c.cfg offer.mode failure with
        | .error _ => c
        | .ok session => { c with
            sessions := c.sessions.insert m.sid c.created.length
            created := c.created ++ [(m.sid, session)] }

def receive (C : SDPCodec S) (m : Message) (failure : Option String) (c : AgentConn) : AgentConn :=
  match m.type with
  | "offer" => c.receiveOffer C m failure
  | "close" => { c with sessions := c.sessions.erase m.sid }
  | _ => c

def farStep (C : SDPCodec S) (c : AgentConn) : FarAct → Option AgentConn
  | .receive failure =>
      if c.ended then none
      else c.sent[c.read]?.map fun e => { c with read := c.read + 1 }.receive C e.2 failure
  | .leave => if c.ended then none else some { c with ended := true, sessions := ∅ }
  | .handle i t => c.created[i]?.map fun s => { c with created := c.created.set i (s.1, s.2.after t) }

end AgentConn

/-! ### One message of a browser -/

/-- The sessions the server makes have no desktop. -/
def cloudRemoteConfig (cfg : ServerConfig) (dev : Device) : RemoteConfig :=
  ⟨hostPort dev.ip dev.sshPort, dev.sshUser, cfg.sshKey, dev.sshFingerprint, false⟩

def pong : Message := ⟨"", "pong", none⟩

namespace Browser

def closeMessage (w : Browser) : Message := ⟨w.sid.getD "", "close", none⟩

def leave (w : Browser) : Browser := { w with phase := .leaving }

/-- The first offer: the mode in it is replaced by the request's. -/
def readOffer (C : SDPCodec S) (cfg : ServerConfig) (m : Message) (failure : Option String)
    (w : Browser) : Browser × List Message :=
  match Offer.unmarshal C m.data with
  | none => ({ w with offered := true }.leave, [])
  | some offer =>
      if w.id = "cloud" then
        match remoteNew (cloudRemoteConfig cfg w.dev) w.mode failure with
        | .error e => ({ w with offered := true }.leave, [⟨"", "error", some (.str e)⟩])
        | .ok session => ({ w with offered := true, made := w.made ++ [session] }, [])
      else
        ({ w with
            offered := true
            phase := .forwarding ⟨w.sid.getD "", m.type,
              some (Offer.marshal C { offer with mode := w.mode })⟩ }, [])

/-- What the loop does with a message, and what it answers itself. A relayed
request for a session of this process only joins that session's queue. -/
def read (C : SDPCodec S) (cfg : ServerConfig) (m : Message) (admin : Bool)
    (failure : Option String) (w : Browser) : Browser × List Message :=
  if admin = false then (w.leave, [])
  else
    match m.type with
    | "offer" => if w.offered then (w.leave, []) else w.readOffer C cfg m failure
    | "relay" =>
        if w.offered = false then (w.leave, [])
        else if w.made.isEmpty = false then (w, [])
        else ({ w with phase := .forwarding { m with sid := w.sid.getD "" } }, [])
    | "ping" => (w, [pong])
    | _ => (w.leave, [])

end Browser

/-! ### Steps -/

namespace Hub

def setBrowser (h : Hub) (b : Nat) (w : Browser) : Hub := { h with handlers := h.handlers.set b w }

def setConn (h : Hub) (n : Nat) (c : AgentConn) : Hub := { h with conns := h.conns.set n c }

/-- A write to an agent connection. -/
def send (h : Hub) (n : Nat) (sender : Option Nat) (m : Message) : Hub :=
  { h with conns := h.conns.modify n fun c => { c with sent := c.sent ++ [(sender, m)] } }

def shut (h : Hub) (ws : List WebSocket) : Hub := { h with closed := h.closed ++ ws }

def tell (h : Hub) (b : Nat) (ms : List Message) : Hub :=
  { h with received := h.received ++ ms.map fun m => ⟨b, none, m⟩ }

/-- A write to a websocket that this process has closed fails; any other may. -/
def mayWrite (h : Hub) (ws : WebSocket) (ok : Bool) : Bool := !ok || ws ∉ h.closed

/-- The device is still the one that authenticated. -/
def stillValid (h : Hub) (c : AgentConn) : Bool :=
  (h.server.device c.device).any fun d => equal c.credentials.bearer d.token

/-- What `remoteAgent` checks of a connection that a device opens. -/
def credentials (h : Hub) (id bearer : String) : Option Credentials :=
  match h.server.device id with
  | some d =>
      if hValid : equal bearer d.token = true ∧ d.id ≠ "cloud" then
        some ⟨d, bearer, hValid.1, hValid.2⟩
      else none
  | none => none

/-- The sockets that the cleanup of a device's connection closes. -/
def browsersOf (h : Hub) (id : String) : List WebSocket :=
  (h.browsers.entries.filter fun e => e.2.device = id).map fun e => .browser e.2.conn

def agentStep (h : Hub) (n : Nat) (c : AgentConn) (a : AgentAct) : Option Hub :=
  match c.phase, a with
  | .connected, .register =>
      some { h.setConn n { c with phase := .replacing (h.agents.lookup c.device) } with
        agents := h.agents.insert c.device n }
  | .replacing old, .closeOld =>
      some ((h.setConn n { c with phase := .reading }).shut (old.toList.map .agent))
  | .reading, .read m =>
      if h.stillValid c = false then some (h.setConn n { c with phase := .leaving })
      else if m.type = "ping" then some (h.setConn n { c with phase := .ponging })
      else if m.type ≠ "answer" ∧ m.type ≠ "relay" ∧ m.type ≠ "error" then some h
      else some (h.setConn n { c with phase := .forwarding m })
  | .reading, .fails => some (h.setConn n { c with phase := .leaving })
  | .ponging, .pong ok =>
      if h.mayWrite (.agent n) ok = false then none
      else if ok then some ((h.setConn n { c with phase := .reading }).send n none pong)
      else some (h.setConn n { c with phase := .reading })
  | .forwarding m, .lookUp =>
      match h.browsers.lookup m.sid with
      | some b =>
          if b.device = c.device then some (h.setConn n { c with phase := .delivering m b })
          else some (h.setConn n { c with phase := .reading })
      | none => some (h.setConn n { c with phase := .reading })
  | .delivering m b, .deliver ok =>
      if h.mayWrite (.browser b.conn) ok = false then none
      else if ok then
        some { h.setConn n { c with phase := .reading } with
          received := h.received ++ [⟨b.conn, some n, m⟩] }
      else some ((h.setConn n { c with phase := .reading }).shut [.browser b.conn])
  | .leaving, .close => some ((h.setConn n { c with phase := .cleaning }).shut [.agent n])
  | .cleaning, .cleanUp =>
      if h.agents.lookup c.device = some n then
        some ({ h.setConn n { c with phase := .done } with
          agents := h.agents.erase c.device }.shut (h.browsersOf c.device))
      else some (h.setConn n { c with phase := .done })
  | _, _ => none

/-- The checks that `remoteBrowser` makes on its own. -/
def openRequest (h : Hub) (id mode : String) : Browser :=
  let w : Browser := ⟨id, mode, Device.zero, none, none, .looked, false, [], false⟩
  if mode ≠ "ssh" ∧ mode ≠ "files" ∧ mode ≠ "desktop" then
    { w with phase := .answered (.fail 400 "invalid mode") }
  else
    match h.server.device id with
    | none => { w with phase := .answered (.fail 404 "404 page not found") }
    | some d =>
        if mode = "desktop" ∧ d.os ≠ "windows" then
          { w with dev := d, phase := .answered (.fail 400 "Windows desktop only") }
        else { w with dev := d }

/-- The agent and the number of sessions are read in one critical section. -/
def count (h : Hub) (w : Browser) : Browser :=
  if 32 ≤ h.browsers.entries.length then
    { w with phase := .answered (.fail 429 "too many sessions") }
  else if w.id ≠ "cloud" ∧ h.agents.lookup w.id = none then
    { w with phase := .answered (.fail 503 "device client is offline or needs upgrading") }
  else { w with agent := h.agents.lookup w.id, phase := .admitted }

def auditText (w : Browser) : String := w.dev.name ++ " / " ++ w.mode

def browserStep (C : SDPCodec S) (h : Hub) (b : Nat) (w : Browser) (a : BrowserAct) : Option Hub :=
  match w.phase, a with
  | .looked, .count => some (h.setBrowser b (h.count w))
  | .admitted, .upgrade none => some (h.setBrowser b { w with phase := .done })
  | .admitted, .upgrade (some token) =>
      if ∀ v ∈ h.handlers, v.sid ≠ some token then
        some (h.setBrowser b { w with sid := some token, phase := .upgraded })
      else none
  | .upgraded, .insert =>
      some { h.setBrowser b { w with phase := .opened } with
        browsers := h.browsers.insert (w.sid.getD "") ⟨b, w.id⟩ }
  | .opened, .auditOpen now =>
      some { h.setBrowser b { w with phase := .serving } with
        server := h.server.audit now "remote.open" (auditText w) }
  | .serving, .read m admin failure =>
      some ((h.setBrowser b (w.read C h.server.cfg m admin failure).1).tell b
        (w.read C h.server.cfg m admin failure).2)
  | .serving, .fails => some (h.setBrowser b w.leave)
  | .forwarding m, .forward ok =>
      match w.agent with
      | none => some (h.setBrowser b { w.leave with panicked := true })
      | some n =>
          if h.mayWrite (.agent n) ok = false then none
          else if ok then some ((h.setBrowser b { w with phase := .serving }).send n (some b) m)
          else some (h.setBrowser b w.leave)
  | .leaving, .sendClose ok =>
      match w.agent with
      | none => some (h.setBrowser b { w with phase := .unregistering })
      | some n =>
          if h.mayWrite (.agent n) ok = false then none
          else if ok then
            some ((h.setBrowser b { w with phase := .unregistering }).send n (some b) w.closeMessage)
          else some (h.setBrowser b { w with phase := .unregistering })
  | .unregistering, .remove =>
      some { h.setBrowser b { w with phase := .ending } with
        browsers := h.browsers.erase (w.sid.getD "") }
  | .ending, .auditClose now =>
      some { h.setBrowser b { w with phase := .closing } with
        server := h.server.audit now "remote.close" (auditText w) }
  | .closing, .close => some ((h.setBrowser b { w with phase := .done }).shut [.browser b])
  | .serving, .expire | .forwarding _, .expire => some (h.shut [.browser b])
  | _, .handle i t =>
      w.made[i]?.map fun s => h.setBrowser b { w with made := w.made.set i (s.after t) }
  | _, .signal kind data =>
      if w.made.isEmpty then none else some (h.tell b [⟨"", kind, some data⟩])
  | _, _ => none

def step (C : SDPCodec S) (h : Hub) : HubLabel → Option Hub
  | .server s => some { h with server := s }
  | .connect id bearer user key fingerprint =>
      (h.credentials id bearer).map fun credentials =>
        { h with conns := h.conns ++ [⟨credentials, ⟨"127.0.0.1:22", user, key, fingerprint, true⟩,
          .connected, [], 0, ∅, [], false⟩] }
  | .agent n a => h.conns[n]?.bind fun c => h.agentStep n c a
  | .far n a => h.conns[n]?.bind fun c => (c.farStep C a).map fun c' => h.setConn n c'
  | .open_ id mode => some { h with handlers := h.handlers ++ [h.openRequest id mode] }
  | .browser b a => h.handlers[b]?.bind fun w => h.browserStep C b w a

/-- The hub of a server that has just started. -/
def start (server : Server) : Hub := ⟨server, ∅, ∅, [], [], [], []⟩

/-- All runs of the hub, from any memory of the server, of the steps that the
guard allows. -/
def system (C : SDPCodec S) (allowed : Hub → HubLabel → Prop) :
    Transition.System Hub HubLabel where
  initial h := ∃ server, h = start server
  step h l t := allowed h l ∧ h.step C l = some t

end Hub
end NetConductor
