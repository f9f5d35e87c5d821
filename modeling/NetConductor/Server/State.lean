import NetConductor.Core.Model
import NetConductor.Semantics.FirstMatch

/-! The server's memory, its answers and the helpers every handler uses. -/
namespace NetConductor

structure Enrollment where
  expires : Time
  ip : String
deriving DecidableEq

/-- A listening socket of the server's own process. UDP and TCP ports do not
collide with each other; TCP and HTTP mappings listen on the same kind. -/
structure Socket where
  udp : Bool
  port : Int
deriving DecidableEq

/-- A stop function in `forwards` is named by the socket it closes. -/
structure Server where
  cfg : ServerConfig
  state : State
  sessions : GoMap Time
  codes : GoMap Enrollment
  loginAttempts : GoMap (List Time)
  forwards : GoMap Socket

/-- The bodies of successful replies. -/
inductive Body where
  | ok
  | code (code : String) (expiresIn : Nat)
  | joined (device : Device) (serverPublicKey endpoint network proxy : String) (adopted : Bool)
  | heartbeat (policy : Policy) (time : Time) (rx tx handshake : Int) (exitName : String)
  | policy (p : Policy)
  | mapping (m : Mapping)
deriving DecidableEq

/-- What a handler writes; `done` is the end of a task nobody waits for. -/
inductive Reply where
  | fail (status : Nat) (error : String)
  | json (body : Body)
  | done
deriving DecidableEq

def Reply.isError : Reply → Bool
  | .fail _ _ => true
  | _ => false

/-- The request body as `core.Decode` leaves it: a value or its error text. -/
abbrev Decoded (α : Type) := Except String α

namespace Server

def device (s : Server) (id : String) : Option Device :=
  s.state.devices.find? fun d => d.id = id

/-- Change the record that `device` points to. -/
def setDevice (s : Server) (id : String) (f : Device → Device) : Server :=
  { s with state.devices := FirstMatch.update (fun d => d.id = id) f s.state.devices }

/-- The log keeps its last 200 events. -/
def recent (events : List LogEvent) : List LogEvent := events.drop (events.length - 200)

def audit (s : Server) (now : Time) (action detail : String) : Server :=
  { s with state.events := recent (s.state.events ++ [⟨now, action, detail⟩]) }

@[simp] theorem audit_devices (s : Server) (now : Time) (action detail : String) :
    (s.audit now action detail).state.devices = s.state.devices := by simp only [audit]
@[simp] theorem audit_policies (s : Server) (now : Time) (action detail : String) :
    (s.audit now action detail).state.policies = s.state.policies := by simp only [audit]
@[simp] theorem audit_mappings (s : Server) (now : Time) (action detail : String) :
    (s.audit now action detail).state.mappings = s.state.mappings := by simp only [audit]
@[simp] theorem audit_cfg (s : Server) (now : Time) (action detail : String) :
    (s.audit now action detail).cfg = s.cfg := by simp only [audit]
@[simp] theorem audit_codes (s : Server) (now : Time) (action detail : String) :
    (s.audit now action detail).codes = s.codes := by simp only [audit]
@[simp] theorem audit_forwards (s : Server) (now : Time) (action detail : String) :
    (s.audit now action detail).forwards = s.forwards := by simp only [audit]

@[simp] theorem setDevice_policies (s : Server) (id : String) (f : Device → Device) :
    (s.setDevice id f).state.policies = s.state.policies := rfl
@[simp] theorem setDevice_mappings (s : Server) (id : String) (f : Device → Device) :
    (s.setDevice id f).state.mappings = s.state.mappings := rfl
@[simp] theorem setDevice_cfg (s : Server) (id : String) (f : Device → Device) :
    (s.setDevice id f).cfg = s.cfg := rfl
@[simp] theorem setDevice_codes (s : Server) (id : String) (f : Device → Device) :
    (s.setDevice id f).codes = s.codes := rfl
@[simp] theorem setDevice_forwards (s : Server) (id : String) (f : Device → Device) :
    (s.setDevice id f).forwards = s.forwards := rfl

theorem device_mem {s : Server} {id : String} {d : Device} (h : s.device id = some d) :
    d ∈ s.state.devices ∧ d.id = id := by
  have hFound := List.find?_some h
  exact ⟨List.mem_of_find?_eq_some h, by simpa using hFound⟩

end Server

/-- The checks of `New` on its configuration. -/
def validConfig (cfg : ServerConfig) : Bool :=
  safeName cfg.iface && (parseIPString cfg.serverIP).isSome && 24 ≤ cfg.adminToken.utf8ByteSize

/-- The device that stands for the server itself. -/
def cloudDevice (cfg : ServerConfig) (token : String) : Device :=
  { Device.zero with
    id := "cloud", name := "公网服务器", ip := cfg.serverIP, os := "linux", token := token,
    sshPort := 22, status := "online" }

/-- What `New` makes of a loaded state; only a state without devices is changed
(and then saved). -/
def loaded (cfg : ServerConfig) (token : String) (st : State) : State :=
  if st.devices = [] then { st with devices := [cloudDevice cfg token] } else st

/-- The memory that `New` starts with. -/
def newServer (cfg : ServerConfig) (st : State) : Server where
  cfg := cfg
  state := st
  sessions := ∅
  codes := ∅
  loginAttempts := ∅
  forwards := ∅

/-- The state of a first start, on an empty state file. -/
def firstState (cfg : ServerConfig) (token : String) : State := loaded cfg token ⟨[], [], [], []⟩

@[simp] theorem firstState_devices (cfg : ServerConfig) (token : String) :
    (firstState cfg token).devices = [cloudDevice cfg token] := rfl

end NetConductor
