import NetConductor.Server.Devices
import NetConductor.Server.Forward

/-! The runs of the server: every request and background task, in any order,
with any answers from outside, any failing save and any crash. -/
namespace NetConductor
open Durable Transition

/-! ### What most handlers leave alone -/

/-- What makes a device the device it is. -/
structure Identity where
  id : String
  ip : String
  publicKey : String
deriving DecidableEq

def Device.identity (d : Device) : Identity := ⟨d.id, d.ip, d.publicKey⟩

/-- The configured part of a device; the rest is telemetry. -/
structure DeviceConfig where
  id : String
  name : String
  ip : String
  publicKey : String
  token : String
  proxyPort : Int
  proxyType : String
deriving DecidableEq

def Device.config (d : Device) : DeviceConfig :=
  ⟨d.id, d.name, d.ip, d.publicKey, d.token, d.proxyPort, d.proxyType⟩

theorem identity_of_config {d e : Device} (h : d.config = e.config) : d.identity = e.identity := by
  simp only [Device.config, DeviceConfig.mk.injEq] at h
  simp only [Device.identity, h.1, h.2.2.1, h.2.2.2.1]

/-- The identity of the device that stands for the server. -/
def cloudIdentity (cfg : ServerConfig) : Identity := ⟨"cloud", cfg.serverIP, ""⟩

namespace Server

def identities (s : Server) : List Identity := s.state.devices.map Device.identity

/-- Only telemetry, settings and policies differ. -/
structure Keeps (s t : Server) : Prop where
  cfg : t.cfg = s.cfg
  identities : t.identities = s.identities
  codes : t.codes = s.codes
  mappings : t.state.mappings = s.state.mappings
  forwards : t.forwards = s.forwards

theorem Keeps.refl (s : Server) : Keeps s s := ⟨rfl, rfl, rfl, rfl, rfl⟩

theorem Keeps.trans {s t u : Server} (first : Keeps s t) (second : Keeps t u) : Keeps s u where
  cfg := second.cfg.trans first.cfg
  identities := second.identities.trans first.identities
  codes := second.codes.trans first.codes
  mappings := second.mappings.trans first.mappings
  forwards := second.forwards.trans first.forwards

@[simp] theorem identities_audit (s : Server) (now : Time) (action detail : String) :
    (s.audit now action detail).identities = s.identities := by simp [identities]

@[simp] theorem identities_addDevice (env : Env) (d : Device) (s : Server) :
    (s.addDevice env d).identities = s.identities ++ [d.identity] := by simp [identities]

theorem Keeps.audit (s : Server) (now : Time) (action detail : String) :
    Keeps s (s.audit now action detail) := by
  constructor <;> simp

/-- A change that keeps the identities keeps the others. -/
theorem Keeps.setDevice (s : Server) (id : String) (f : Device → Device)
    (hf : ∀ d, (f d).identity = d.identity) : Keeps s (s.setDevice id f) where
  cfg := rfl
  identities := FirstMatch.map_update hf s.state.devices
  codes := rfl
  mappings := rfl
  forwards := rfl

theorem Keeps.policies (s : Server) (rows : List Policy) :
    Keeps s { s with state.policies := rows } := ⟨rfl, rfl, rfl, rfl, rfl⟩

/-- Taking an update of a device back restores the device list. -/
theorem setDevice_restore {s : Server} {id : String} {old : Device} {f : Device → Device}
    (hOld : s.device id = some old) (hf : ∀ d, (f d).id = d.id) :
    FirstMatch.update (fun d => decide (d.id = id)) (fun _ => old)
      (s.setDevice id f).state.devices = s.state.devices :=
  FirstMatch.update_restore hOld fun d hd => by simpa [hf d] using hd

/-- A heartbeat changes the telemetry of one device, so it keeps whatever such
changes keep. -/
theorem heartbeat_holds {I : Server → Prop}
    (hSet : ∀ s id f, (∀ d : Device, (f d).config = d.config) → I s → I (s.setDevice id f))
    (env : Env) (authorization : String) (body : Decoded HeartbeatRequest) {s : Server} (h : I s) :
    (s.heartbeat env authorization body).Holds I I := by
  cases body with
  | error e => exact h
  | ok v =>
      have hSeen := hSet s v.id (markSeen env.now) (fun _ => rfl) h
      have hFilled := hSet _ v.id (fillSSH v) (fun _ => rfl) hSeen
      have hReported := hSet _ v.id (report v) (fun _ => rfl) hFilled
      unfold heartbeat
      dsimp only
      split
      · exact h
      · split_ifs
        · exact h
        · exact h
        · exact ⟨hFilled, hReported, hReported⟩
        · exact hSet _ v.id (report v) (fun _ => rfl) hSeen

theorem heartbeat_keeps (env : Env) (authorization : String) (body : Decoded HeartbeatRequest)
    (s : Server) : (s.heartbeat env authorization body).Holds (Keeps s) (Keeps s) :=
  heartbeat_holds (fun t id f hf ht => ht.trans (Keeps.setDevice t id f fun d =>
    identity_of_config (hf d))) env authorization body (Keeps.refl s)

/-- Settings change no device's identity. -/
theorem updateDevice_keeps (env : Env) (id : String) (body : Decoded DeviceSettings)
    (s : Server) : (s.updateDevice env id body).Holds (Keeps s) (Keeps s) := by
  cases body with
  | error e => exact Keeps.refl s
  | ok v =>
      have hNew : Keeps s ((s.setDevice id (applySettings v)).audit env.now
          "device.update" v.name) :=
        (Keeps.setDevice s id (applySettings v) fun _ => rfl).trans (Keeps.audit _ _ _ _)
      unfold updateDevice
      dsimp only
      split_ifs
      · exact Keeps.refl s
      · exact Keeps.refl s
      · split
        · exact Keeps.refl s
        · next old hOld =>
            refine ⟨hNew, hNew, ⟨hNew.cfg, ?_, hNew.codes, hNew.mappings, hNew.forwards⟩⟩
            have hDevices := setDevice_restore (f := applySettings v) hOld fun _ => rfl
            simp only [identities, Server.setDevice, audit] at hDevices ⊢
            rw [hDevices]

/-- Policies change no device at all. -/
theorem putPolicy_keeps (env : Env) (id : String) (body : Decoded Policy) (s : Server) :
    (s.putPolicy env id body).Holds (Keeps s) (Keeps s) := by
  cases body with
  | error e => exact Keeps.refl s
  | ok v =>
      unfold putPolicy
      dsimp only
      split_ifs
      · exact Keeps.refl s
      · exact Keeps.refl s
      · exact Keeps.refl s
      · have hNew := (Keeps.policies s (storePolicy { v with source := id, active := "" }
          s.state.policies)).trans (Keeps.audit _ env.now "policy.update" id)
        exact ⟨hNew, hNew, hNew.trans (Keeps.policies _ _)⟩

theorem setActive_keeps (id active : String) (s : Server) : Keeps s (s.setActive id active) :=
  Keeps.policies s _

theorem writeProbe_keeps (id : String) (r : ProbeResult) (s : Server) :
    Keeps s (s.writeProbe id r) := Keeps.setDevice s id (recordProbe r) fun _ => rfl

theorem auditSession_keeps (env : Env) (action detail : String) (s : Server) :
    (s.auditSession env action detail).Holds (Keeps s) (Keeps s) :=
  ⟨Keeps.audit s _ _ _, Keeps.audit s _ _ _, Keeps.audit s _ _ _⟩

end Server

/-! ### Requests and tasks -/

/-- Every critical section of the server, with what it reads from outside.
`setActive` is the end of a `dialPolicy`, and `writeProbe` the end of a probe
goroutine; both carry what an older snapshot led to, so they come at any time
with any values. -/
inductive Op where
  | createCode (env : Env) (body : Decoded String)
  | join (env : Env) (body : Decoded Server.JoinRequest)
  | heartbeat (env : Env) (authorization : String) (body : Decoded Server.HeartbeatRequest)
  | updateDevice (env : Env) (id : String) (body : Decoded Server.DeviceSettings)
  | putPolicy (env : Env) (id : String) (body : Decoded Policy)
  | setActive (id active : String)
  | writeProbe (id : String) (result : Server.ProbeResult)
  | saveProbe
  | auditSession (env : Env) (action detail : String)
  | putMapping (env : Env) (body : Decoded Mapping)
  | openMapping (listen : Listen)
  | commitMapping (env : Env)
  | deleteMapping (env : Env) (id : String)
  | restoreMappings
  | restoreNext (listen : Listen)
  | restoreMark

namespace Process

/-- A handler that needs no more than the state's mutex. -/
def onServer (p : Process) (sec : Section Server Answer) : Option (Section Process Answer) :=
  some (sec.map fun s => { p with server := s })

def exec (p : Process) : Op → Option (Section Process Answer)
  | .createCode env body =>
      let out := p.server.createCode env body
      p.onServer (.answer out.1 ⟨out.2, []⟩)
  | .join env body => p.onServer (p.server.join env body)
  | .heartbeat env authorization body => p.onServer (p.server.heartbeat env authorization body)
  | .updateDevice env id body => p.onServer (p.server.updateDevice env id body)
  | .putPolicy env id body => p.onServer (p.server.putPolicy env id body)
  | .setActive id active => p.onServer (.answer (p.server.setActive id active) ⟨.done, []⟩)
  | .writeProbe id result => p.onServer (.answer (p.server.writeProbe id result) ⟨.done, []⟩)
  | .saveProbe => p.onServer (.persist p.server (p.server, ⟨.done, []⟩) (p.server, ⟨.done, []⟩))
  | .auditSession env action detail => p.onServer (p.server.auditSession env action detail)
  | .putMapping env body => p.putMapping env body
  | .openMapping listen => p.openMapping listen
  | .commitMapping env => p.commitMapping env
  | .deleteMapping env id => p.deleteMapping env id
  | .restoreMappings => p.restoreMappings
  | .restoreNext listen => p.restoreNext listen
  | .restoreMark => p.restoreMark

end Process

/-- The requests and tasks after which the devices, the codes and the mappings
are what they were. -/
def Op.quiet : Op → Bool
  | .heartbeat .. | .updateDevice .. | .putPolicy .. | .setActive .. | .writeProbe .. |
    .saveProbe | .auditSession .. => true
  | _ => false

/-- The critical sections of the mapping handlers. -/
def Op.forwarding : Op → Bool
  | .putMapping .. | .openMapping .. | .commitMapping .. | .deleteMapping .. |
    .restoreMappings | .restoreNext .. | .restoreMark => true
  | _ => false

namespace Process

/-- Only what `Server.Keeps` allows differs. -/
def Quiet (p q : Process) : Prop := ∃ s, p.server.Keeps s ∧ q = { p with server := s }

/-- After the quiet sections devices, codes and mappings are as before. -/
theorem exec_quiet {p : Process} {op : Op} {sec : Section Process Answer}
    (hOp : op.quiet = true) (h : p.exec op = some sec) :
    sec.Holds p.Quiet p.Quiet := by
  have hOn : ∀ sec' : Section Server Answer, sec'.Holds p.server.Keeps p.server.Keeps →
      p.onServer sec' = some sec → sec.Holds p.Quiet p.Quiet := by
    rintro sec' hKeeps hSec
    obtain rfl := Option.some.inj hSec
    rw [Section.holds_map]
    exact hKeeps.mono (fun s hs => ⟨s, hs, rfl⟩) (fun s hs => ⟨s, hs, rfl⟩)
  cases op with
  | heartbeat env authorization body => exact hOn _ (Server.heartbeat_keeps env authorization body _) h
  | updateDevice env id body => exact hOn _ (Server.updateDevice_keeps env id body _) h
  | putPolicy env id body => exact hOn _ (Server.putPolicy_keeps env id body _) h
  | setActive id active =>
      exact hOn (.answer _ _) (Server.setActive_keeps id active p.server) h
  | writeProbe id result =>
      exact hOn (.answer _ _) (Server.writeProbe_keeps id result p.server) h
  | saveProbe =>
      have hSelf := Server.Keeps.refl p.server
      exact hOn (.persist _ _ _) ⟨hSelf, hSelf, hSelf⟩ h
  | auditSession env action detail => exact hOn _ (Server.auditSession_keeps env action detail _) h
  | createCode | join | putMapping | openMapping | commitMapping | deleteMapping
  | restoreMappings | restoreNext | restoreMark => simp [Op.quiet] at hOp

/-- The devices, the codes and the configuration are the same. -/
structure SameDevices (p q : Process) : Prop where
  cfg : q.server.cfg = p.server.cfg
  identities : q.server.identities = p.server.identities
  codes : q.server.codes = p.server.codes

/-- The sections of the mapping handlers leave the devices and the codes. -/
theorem exec_forwarding {p : Process} {op : Op} {sec : Section Process Answer}
    (hOp : op.forwarding = true) (h : p.exec op = some sec) :
    sec.Holds p.SameDevices p.SameDevices := by
  have hSame : ∀ {q : Process}, q.server.cfg = p.server.cfg →
      q.server.state.devices = p.server.state.devices → q.server.codes = p.server.codes →
      p.SameDevices q :=
    fun hCfg hDevices hCodes => ⟨hCfg, by rw [Server.identities, hDevices]; rfl, hCodes⟩
  cases op with
  | putMapping env body =>
      rcases putMapping_cases h with ⟨status, e, rfl⟩ | ⟨m, -, -, -, -, rfl⟩ <;>
        exact hSame rfl rfl rfl
  | openMapping listen =>
      obtain ⟨m, -, ⟨e, rfl⟩ | ⟨l, -, rfl⟩⟩ := openMapping_cases h <;> exact hSame rfl rfl rfl
  | commitMapping env =>
      obtain ⟨m, stop, -, rfl⟩ := commitMapping_cases h
      exact ⟨hSame (by simp) (by simp) (by simp), hSame (by simp) (by simp) (by simp),
        hSame (by simp) (by simp) (by simp)⟩
  | deleteMapping env id =>
      obtain ⟨-, rfl | ⟨-, rfl⟩⟩ := deleteMapping_cases h
      · exact hSame rfl rfl rfl
      · exact ⟨hSame (by simp) (by simp) (by simp), hSame (by simp) (by simp) (by simp),
          hSame (by simp) (by simp) (by simp)⟩
  | restoreMappings =>
      obtain ⟨-, -, rfl⟩ := restoreMappings_cases h
      exact hSame rfl rfl rfl
  | restoreNext listen =>
      rcases restoreNext_cases h with ⟨-, rfl⟩ |
        ⟨m, todo, -, ⟨-, rfl⟩ | ⟨-, e, -, rfl⟩ | ⟨-, l, -, rfl⟩⟩ <;> exact hSame rfl rfl rfl
  | restoreMark =>
      obtain ⟨id, error, todo, -, rfl⟩ := restoreMark_cases h
      exact hSame rfl rfl rfl
  | createCode | join | heartbeat | updateDevice | putPolicy | setActive | writeProbe | saveProbe
  | auditSession => simp [Op.forwarding] at hOp

/-- The mapping handlers leave the device list alone. -/
theorem forwarding_devices {p : Process} {op : Op} {sec : Section Process Answer}
    (hOp : op.forwarding = true) (h : p.exec op = some sec) :
    sec.Holds (fun q => q.server.state.devices = p.server.state.devices)
      (fun q => q.server.state.devices = p.server.state.devices) := by
  cases op with
  | putMapping env body =>
      rcases putMapping_cases h with ⟨status, e, rfl⟩ | ⟨m, -, -, -, -, rfl⟩ <;> rfl
  | openMapping listen =>
      obtain ⟨m, -, ⟨e, rfl⟩ | ⟨l, -, rfl⟩⟩ := openMapping_cases h <;> rfl
  | commitMapping env =>
      obtain ⟨m, stop, -, rfl⟩ := commitMapping_cases h
      exact ⟨by simp, by simp, by simp⟩
  | deleteMapping env id =>
      obtain ⟨-, rfl | ⟨-, rfl⟩⟩ := deleteMapping_cases h
      · rfl
      · exact ⟨by simp, by simp, by simp⟩
  | restoreMappings =>
      obtain ⟨-, -, rfl⟩ := restoreMappings_cases h
      rfl
  | restoreNext listen =>
      rcases restoreNext_cases h with ⟨-, rfl⟩ |
        ⟨m, todo, -, ⟨-, rfl⟩ | ⟨-, e, -, rfl⟩ | ⟨-, l, -, rfl⟩⟩ <;> rfl
  | restoreMark =>
      obtain ⟨id, error, todo, -, rfl⟩ := restoreMark_cases h
      rfl
  | createCode | join | heartbeat | updateDevice | putPolicy | setActive | writeProbe | saveProbe
  | auditSession => simp [Op.forwarding] at hOp

end Process

/-! ### Runs -/

/-- `New` after a crash; its file has devices, so `loaded` leaves it alone. -/
def service (cfg : ServerConfig) : Service Process State Op Answer where
  boot st := .ofServer (newServer cfg st)
  content p := p.server.state
  exec := Process.exec

/-- `Token()` returns fresh values: no id cut from one is in use, and no code
is handed out twice. -/
def FreshTokens (p : Process) : Op → Prop
  | .createCode env _ => IsToken env.token ∧ p.server.codes.lookup env.token = none
  | .join env _ => IsToken env.token ∧ ∀ i ∈ p.server.identities, i.id ≠ idOf env.token
  | .putMapping env _ =>
      IsToken env.token ∧ ∀ m ∈ p.server.state.mappings, m.id ≠ idOf env.token
  | _ => True

instance (p : Process) (op : Op) : Decidable (FreshTokens p op) := by
  cases op <;> simp only [FreshTokens] <;> infer_instance

/-- What `New` starts with on an empty state file. -/
def firstProcess (cfg : ServerConfig) (token : String) : Process :=
  .ofServer (newServer cfg (firstState cfg token))

/-- All runs from an empty state file; `token` is the cloud device's. -/
def runs (cfg : ServerConfig) (token : String) :
    System (Machine Process State Op Answer) (Label Op) :=
  (service cfg).system (firstProcess cfg token) (firstState cfg token) FreshTokens

/-- The runs in which every request meets a condition on the state it finds. -/
def runsWhere (cfg : ServerConfig) (token : String) (guard : Process → Op → Prop) :
    System (Machine Process State Op Answer) (Label Op) :=
  (service cfg).system (firstProcess cfg token) (firstState cfg token)
    fun p op => FreshTokens p op ∧ guard p op

/-- The runs in which every step meets a condition on the state it finds and on
how its save ends. -/
def runsWhen (cfg : ServerConfig) (token : String) (guard : Process → Label Op → Prop) :
    System (Machine Process State Op Answer) (Label Op) :=
  (service cfg).systemWhen (firstProcess cfg token) (firstState cfg token)
    fun p l => (∀ op ∈ l.op, FreshTokens p op) ∧ guard p l

/-- A device that is there stays, as the device it is. -/
theorem exec_identity {p : Process} {op : Op} {sec : Section Process Answer} {i : Identity}
    (h : i ∈ p.server.identities) (hSec : p.exec op = some sec) :
    sec.Holds (fun q => i ∈ q.server.identities)
      (fun q => i ∈ q.server.state.devices.map Device.identity) := by
  by_cases hQuiet : op.quiet = true
  · have hKeeps : ∀ q, p.Quiet q → i ∈ q.server.identities := by
      rintro q ⟨s, hs, rfl⟩
      rw [hs.identities]
      exact h
    exact (Process.exec_quiet hQuiet hSec).mono hKeeps hKeeps
  by_cases hForwarding : op.forwarding = true
  · have hKeeps : ∀ q, p.SameDevices q → i ∈ q.server.identities := fun q hq =>
      hq.identities ▸ h
    exact (Process.exec_forwarding hForwarding hSec).mono hKeeps hKeeps
  cases op with
  | createCode env body =>
      obtain ⟨codes, hResult, -⟩ := Server.createCode_cases env body p.server
      obtain rfl := Option.some.inj hSec
      rw [Section.holds_map, hResult]
      exact h
  | join env body =>
      obtain rfl := Option.some.inj hSec
      rw [Section.holds_map]
      rcases Server.join_cases env body p.server with ⟨status, e, wg, hJoin⟩ |
        ⟨req, plan, rfl, hPlan, hJoin⟩
      · rw [hJoin]
        exact h
      · have hAdded : i ∈ (p.server.addDevice env (Server.joinedDevice req env plan.ip)).identities := by
          rw [Server.identities_addDevice]
          exact List.mem_append_left _ h
        rw [hJoin]
        refine ⟨hAdded, hAdded, ?_⟩
        simpa [Server.identities] using h
  | heartbeat | updateDevice | putPolicy | setActive | writeProbe | saveProbe | auditSession =>
      exact absurd rfl hQuiet
  | putMapping | openMapping | commitMapping | deleteMapping | restoreMappings | restoreNext
  | restoreMark => exact absurd rfl hForwarding

/-- Follow the steps from an empty state file and look at the process. -/
def observe {α : Type} (cfg : ServerConfig) (token : String) (allowed : Process → Op → Prop)
    [∀ p op, Decidable (allowed p op)] (labels : List (Label Op)) (view : Process → α) : Option α :=
  (follow ((service cfg).allowedStep allowed)
    ⟨some (firstProcess cfg token), firstState cfg token, []⟩ labels).bind fun s => s.mem.map view

theorem exists_runs {α : Type} (cfg : ServerConfig) (token : String) (labels : List (Label Op))
    (view : Process → α) (v : α) (h : observe cfg token FreshTokens labels view = some v) :
    ∃ s p, Reachable (runs cfg token) s ∧ s.mem = some p ∧ view p = v :=
  Service.exists_reachable FreshTokens labels view v h

theorem exists_runsWhere {α : Type} (cfg : ServerConfig) (token : String)
    (guard : Process → Op → Prop) [∀ p op, Decidable (guard p op)] (labels : List (Label Op))
    (view : Process → α) (v : α)
    (h : observe cfg token (fun p op => FreshTokens p op ∧ guard p op) labels view = some v) :
    ∃ s p, Reachable (runsWhere cfg token guard) s ∧ s.mem = some p ∧ view p = v :=
  Service.exists_reachable _ labels view v h

theorem exists_runsWhen {α : Type} (cfg : ServerConfig) (token : String)
    (guard : Process → Label Op → Prop) [∀ p l, Decidable (guard p l)] (labels : List (Label Op))
    (view : Process → α) (v : α)
    (h : ((follow ((service cfg).stepWhen fun p l => (∀ op ∈ l.op, FreshTokens p op) ∧ guard p l)
      ⟨some (firstProcess cfg token), firstState cfg token, []⟩ labels).bind
        fun s => s.mem.map view) = some v) :
    ∃ s p, Reachable (runsWhen cfg token guard) s ∧ s.mem = some p ∧ view p = v :=
  Service.exists_reachableWhen _ labels view v h

/-! ### Sample requests -/

def sampleConfig : ServerConfig :=
  initServerConfig "203.0.113.7" "0123456789abcdef01234567" "/var/lib/netconductor"

/-- One hexadecimal digit, as often as a token has digits. -/
def sampleToken (digit : Char) : String := String.ofList (List.replicate 64 digit)

/-- The key of 32 zero bytes. -/
def sampleKey : String := "AAAAAAAAAAAAAAAAAAAAAAAAAAAAAAAAAAAAAAAAAAA="

/-- Every command of `wg` succeeds, on an empty peer table. -/
def sampleEnv (token token' : Char) : Env where
  now := 0
  token := sampleToken token
  token' := sampleToken token'
  wg := ⟨some "server key", .ok "", true, true⟩
  saveError := "no space left on device"

def freePort : Listen := ⟨none, "bind: address already in use", by decide⟩
def takenPort : Listen := ⟨freePort.inUse, freePort.inUse⟩

/-- An enabled TCP mapping to the server itself, as a request carries it. -/
def sampleMapping (listenPort targetPort : Int) : Mapping :=
  ⟨"", "web", "tcp", listenPort, "cloud", targetPort, "", true, ""⟩

/-- All of `putMapping`, with nothing in between. -/
def addition (token : Char) (m : Mapping) : List (Label Op) :=
  [.run (.putMapping (sampleEnv token token) (.ok m)) true, .run (.openMapping freePort) true,
   .run (.commitMapping (sampleEnv token token)) true]

end NetConductor
