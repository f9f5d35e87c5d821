import NetConductor.Server.Enrollment

/-! The handlers that report on devices and configure them, and the policy
table: `heartbeat`, `updateDevice`, `putPolicy`, `setActive`, and the two
halves of `probe`. -/
namespace NetConductor
open GoText GoNet Durable

/-- `core.Bearer` of the Authorization header. -/
def bearer (authorization : String) : String :=
  String.ofList (trimPrefix "Bearer ".toList authorization.toList)

namespace Server

/-! ### Heartbeat -/

structure HeartbeatRequest where
  sshUser : String
  sshFingerprint : String
  id : String
  version : String
  latencyMs : Int
  diagnostics : List Check
deriving DecidableEq

/-- The stored policy of a source: the last row wins, and without one `default`
stands. -/
def policyFor (s : Server) (id : String) (default : Policy) : Policy :=
  s.state.policies.foldl (fun p x => if x.source = id then x else p) default

def exitName (s : Server) (active : String) : String :=
  if active = "DIRECT" then "直接连接"
  else match s.device active with
    | some exit => exit.name
    | none => "暂无成功出口"

/-- The SSH account a device reports is filled in once, while none is set. -/
def fillsSSH (d : Device) (v : HeartbeatRequest) : Bool :=
  d.sshUser = "" && 0 < v.sshUser.utf8ByteSize && v.sshUser.utf8ByteSize ≤ 80 &&
    "SHA256:".toList.isPrefixOf v.sshFingerprint.toList && v.sshFingerprint.utf8ByteSize < 100

def markSeen (now : Time) (d : Device) : Device := { d with lastSeen := now }

def fillSSH (v : HeartbeatRequest) (d : Device) : Device :=
  { d with sshUser := v.sshUser, sshFingerprint := v.sshFingerprint, sshPort := 22 }

def report (v : HeartbeatRequest) (d : Device) : Device :=
  { d with latencyMs := v.latencyMs, agentVersion := v.version, diagnostics := v.diagnostics }

def heartbeatReply (s : Server) (env : Env) (id : String) : Reply :=
  let d := (s.device id).getD Device.zero
  let p := s.policyFor id ⟨id, [], "block", ""⟩
  .json (.heartbeat p env.now d.tx d.rx d.handshake (s.exitName p.active))

def heartbeat (env : Env) (authorization : String) (body : Decoded HeartbeatRequest) (s : Server) :
    Section Server Answer :=
  match body with
  | .error e => .answer s ⟨.fail 400 e, []⟩
  | .ok v =>
      match s.device v.id with
      | none => .answer s ⟨.fail 401 "设备认证失败", []⟩
      | some d =>
          if equal d.token (bearer authorization) = false then
            .answer s ⟨.fail 401 "设备认证失败", []⟩
          else if 20 < v.diagnostics.length then .answer s ⟨.fail 400 "too many checks", []⟩
          else
            let seen := s.setDevice v.id (markSeen env.now)
            if fillsSSH d v then
              let filled := seen.setDevice v.id (fillSSH v)
              let s' := filled.setDevice v.id (report v)
              -- the outcome of this save is not looked at
              .persist filled (s', ⟨heartbeatReply s' env v.id, []⟩)
                (s', ⟨heartbeatReply s' env v.id, []⟩)
            else
              let s' := seen.setDevice v.id (report v)
              .answer s' ⟨heartbeatReply s' env v.id, []⟩

theorem setDevice_setDevice (s : Server) {id : String} (f : Device → Device) {g : Device → Device}
    (hg : ∀ d, (g d).id = d.id) : (s.setDevice id g).setDevice id f = s.setDevice id (f ∘ g) := by
  simp only [setDevice]
  rw [FirstMatch.update_update fun d hd => by simpa [hg d] using hd]

/-- `heartbeat` refuses and changes nothing, or it changes the record of the
device that the request authenticates as, and saves when it fills in the SSH
account. -/
theorem heartbeat_cases (env : Env) (authorization : String) (body : Decoded HeartbeatRequest)
    (s : Server) :
    (∃ status e, s.heartbeat env authorization body = .answer s ⟨.fail status e, []⟩) ∨
    ∃ v d ans, body = .ok v ∧ s.device v.id = some d ∧ equal d.token (bearer authorization) = true ∧
      v.diagnostics.length ≤ 20 ∧
      ((fillsSSH d v = true ∧
        s.heartbeat env authorization body =
          .persist (s.setDevice v.id (fillSSH v ∘ markSeen env.now))
            (s.setDevice v.id (report v ∘ fillSSH v ∘ markSeen env.now), ans)
            (s.setDevice v.id (report v ∘ fillSSH v ∘ markSeen env.now), ans)) ∨
       (fillsSSH d v = false ∧
        s.heartbeat env authorization body =
          .answer (s.setDevice v.id (report v ∘ markSeen env.now)) ans)) := by
  cases body with
  | error e => exact .inl ⟨400, e, rfl⟩
  | ok v =>
      have hFilled : (s.setDevice v.id (markSeen env.now)).setDevice v.id (fillSSH v) =
          s.setDevice v.id (fillSSH v ∘ markSeen env.now) := setDevice_setDevice s _ fun _ => rfl
      cases hDevice : s.device v.id with
      | none => exact .inl ⟨401, _, by simp only [heartbeat, hDevice]; rfl⟩
      | some d =>
          unfold heartbeat
          simp only [hDevice]
          split_ifs with hToken hMany hFills
          · exact .inl ⟨401, _, rfl⟩
          · exact .inl ⟨400, _, rfl⟩
          · let s' := s.setDevice v.id (report v ∘ fillSSH v ∘ markSeen env.now)
            refine .inr ⟨v, d, ⟨s'.heartbeatReply env v.id, []⟩, rfl, hDevice, by simpa using hToken,
              not_lt.mp hMany, .inl ⟨hFills, ?_⟩⟩
            rw [hFilled, setDevice_setDevice s (report v) (g := fillSSH v ∘ markSeen env.now)
              fun _ => rfl]
          · let s' := s.setDevice v.id (report v ∘ markSeen env.now)
            refine .inr ⟨v, d, ⟨s'.heartbeatReply env v.id, []⟩, rfl, hDevice, by simpa using hToken,
              not_lt.mp hMany, .inr ⟨by simpa using hFills, ?_⟩⟩
            rw [setDevice_setDevice s (report v) (g := markSeen env.now) fun _ => rfl]

/-! ### Device settings -/

structure DeviceSettings where
  name : String
  proxyPort : Int
  proxyType : String
  sshUser : String
  sshFingerprint : String
  sshPort : Int
deriving DecidableEq

def validSettings (v : DeviceSettings) : Bool :=
  !(v.name.utf8ByteSize = 0 || 80 < v.name.utf8ByteSize ||
    (v.proxyPort ≠ 0 && !port v.proxyPort) || !port v.sshPort ||
    (v.proxyType ≠ "http" && v.proxyType ≠ "socks5") ||
    80 < v.sshUser.utf8ByteSize || 100 < v.sshFingerprint.utf8ByteSize)

def applySettings (v : DeviceSettings) (d : Device) : Device :=
  { d with name := v.name, proxyPort := v.proxyPort, proxyType := v.proxyType,
           sshUser := v.sshUser, sshFingerprint := v.sshFingerprint, sshPort := v.sshPort }

def updateDevice (env : Env) (id : String) (body : Decoded DeviceSettings) (s : Server) :
    Section Server Answer :=
  match body with
  | .error e => .answer s ⟨.fail 400 e, []⟩
  | .ok v =>
      if validSettings v = false then .answer s ⟨.fail 400 "设备参数不合法", []⟩
      else if v.proxyPort = 17891 ∨ v.proxyPort = 18090 then
        .answer s ⟨.fail 400 "不能把受管代理入口再次配置为出口，避免循环", []⟩
      else match s.device id with
        | none => .answer s ⟨.fail 404 "设备不存在", []⟩
        | some old =>
            let s' := (s.setDevice id (applySettings v)).audit env.now "device.update" v.name
            .persist s' (s', ⟨.json .ok, []⟩)
              (s'.setDevice id fun _ => old, ⟨.fail 500 env.saveError, []⟩)

/-- The memory with the settings applied, as `updateDevice` saves it. -/
def withSettings (env : Env) (id : String) (v : DeviceSettings) (s : Server) : Server :=
  (s.setDevice id (applySettings v)).audit env.now "device.update" v.name

/-- `updateDevice` refuses and changes nothing, or it applies settings that
passed the checks and saves. -/
theorem updateDevice_cases (env : Env) (id : String) (body : Decoded DeviceSettings) (s : Server) :
    (∃ status e, s.updateDevice env id body = .answer s ⟨.fail status e, []⟩) ∨
    ∃ v old, body = .ok v ∧ validSettings v = true ∧ s.device id = some old ∧
      s.updateDevice env id body = .persist (s.withSettings env id v)
        (s.withSettings env id v, ⟨.json .ok, []⟩)
        ((s.withSettings env id v).setDevice id fun _ => old, ⟨.fail 500 env.saveError, []⟩) := by
  cases body with
  | error e => exact .inl ⟨400, e, rfl⟩
  | ok v =>
      unfold updateDevice
      dsimp only
      split_ifs with hValid hManaged
      · exact .inl ⟨_, _, rfl⟩
      · exact .inl ⟨_, _, rfl⟩
      · split
        · exact .inl ⟨_, _, rfl⟩
        · next old hOld => exact .inr ⟨v, old, rfl, by simpa using hValid, hOld, rfl⟩

/-! ### Policies -/

/-- The loop over the exits: each one exists, has a proxy, and is new. -/
def exitsAccepted (s : Server) (exits : List String) : Bool :=
  exits.all (fun id => (s.device id).any fun d => d.proxyPort ≠ 0) && decide exits.Nodup

/-- Every row of the source is replaced; without one the policy is appended. -/
def storePolicy (p : Policy) (rows : List Policy) : List Policy :=
  FirstMatch.upsert Policy.source p rows

def putPolicy (env : Env) (id : String) (body : Decoded Policy) (s : Server) :
    Section Server Answer :=
  match body with
  | .error e => .answer s ⟨.fail 400 e, []⟩
  | .ok v =>
      let p := { v with source := id, active := "" }
      if (p.onFailure ≠ "block" ∧ p.onFailure ≠ "direct") ∨ 20 < p.exits.length then
        .answer s ⟨.fail 400 "策略参数不合法", []⟩
      else if s.device p.source = none then .answer s ⟨.fail 404 "来源设备不存在", []⟩
      else if s.exitsAccepted p.exits = false then
        .answer s ⟨.fail 400 "出口不存在、未设置代理或重复", []⟩
      else
        let s' := ({ s with state.policies := storePolicy p s.state.policies }).audit env.now
          "policy.update" p.source
        .persist s' (s', ⟨.json (.policy p), []⟩)
          ({ s' with state.policies := s.state.policies }, ⟨.fail 500 env.saveError, []⟩)

/-- The policy as `putPolicy` stores it: its source is in the path, and no exit
is active. -/
def storedPolicy (id : String) (v : Policy) : Policy := { v with source := id, active := "" }

/-- The memory with the policy stored, as `putPolicy` saves it. -/
def withPolicy (env : Env) (p : Policy) (s : Server) : Server :=
  ({ s with state.policies := storePolicy p s.state.policies }).audit env.now "policy.update" p.source

/-- `putPolicy` refuses and changes nothing, or it stores a policy that passed
the checks and saves. -/
theorem putPolicy_cases (env : Env) (id : String) (body : Decoded Policy) (s : Server) :
    (∃ status e, s.putPolicy env id body = .answer s ⟨.fail status e, []⟩) ∨
    ∃ v, body = .ok v ∧ (v.onFailure = "block" ∨ v.onFailure = "direct") ∧ v.exits.length ≤ 20 ∧
      s.device id ≠ none ∧ s.exitsAccepted v.exits = true ∧
      s.putPolicy env id body = .persist (s.withPolicy env (storedPolicy id v))
        (s.withPolicy env (storedPolicy id v), ⟨.json (.policy (storedPolicy id v)), []⟩)
        ({ s.withPolicy env (storedPolicy id v) with state.policies := s.state.policies },
          ⟨.fail 500 env.saveError, []⟩) := by
  cases body with
  | error e => exact .inl ⟨400, e, rfl⟩
  | ok v =>
      unfold putPolicy
      dsimp only
      split_ifs with hParams hSource hExits
      · exact .inl ⟨_, _, rfl⟩
      · exact .inl ⟨_, _, rfl⟩
      · exact .inl ⟨_, _, rfl⟩
      · refine .inr ⟨v, rfl, ?_, Nat.not_lt.mp (not_or.mp hParams).2, hSource,
          by simpa using hExits, rfl⟩
        have hOnFailure := (not_or.mp hParams).1
        tauto

def setActive (id active : String) (s : Server) : Server :=
  { s with state.policies := s.state.policies.map fun x =>
      if x.source = id then { x with active := active } else x }

/-! ### Probing -/

/-- What one probe goroutine has found out about the device of its snapshot. -/
structure ProbeResult where
  handshake : Int
  rx : Int
  tx : Int
  healthy : Bool
  message : String
deriving DecidableEq

def recordProbe (r : ProbeResult) (d : Device) : Device :=
  { d with handshake := r.handshake, rx := r.rx, tx := r.tx, proxyHealthy := r.healthy,
           proxyError := r.message }

/-- The write-back of one probe goroutine. -/
def writeProbe (id : String) (r : ProbeResult) (s : Server) : Server :=
  s.setDevice id (recordProbe r)

/-- A remote or SSH session writes a line to the audit log when it opens and
when it closes, and saves without looking at the outcome. -/
def auditSession (env : Env) (action detail : String) (s : Server) : Section Server Answer :=
  let s' := s.audit env.now action detail
  .persist s' (s', ⟨.done, []⟩) (s', ⟨.done, []⟩)

end Server
end NetConductor
