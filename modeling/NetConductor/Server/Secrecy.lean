import Mathlib.Logic.Equiv.Basic
import NetConductor.Semantics.Symmetry
import NetConductor.Server.Runs

/-! The device tokens are opaque to the server: it hands one out in the reply
that makes it and compares it with what a heartbeat presents, and no other
answer and no snapshot for the web page depends on it. -/
namespace NetConductor
open GoText Durable Transition

def Device.retoken (f : String → String) (d : Device) : Device := { d with token := f d.token }

def State.retoken (f : String → String) (st : State) : State :=
  { st with devices := st.devices.map (Device.retoken f) }

def Server.retoken (f : String → String) (s : Server) : Server :=
  { s with state := s.state.retoken f }

def Process.retoken (f : String → String) (p : Process) : Process :=
  { p with server := p.server.retoken f }

/-- The token is in the reply to the device that joins. -/
def Reply.retoken (f : String → String) : Reply → Reply
  | .json (.joined d serverPublicKey endpoint network proxy adopted) =>
      .json (.joined (d.retoken f) serverPublicKey endpoint network proxy adopted)
  | r => r

def Answer.retoken (f : String → String) (a : Answer) : Answer :=
  { a with reply := a.reply.retoken f }

/-- A header with another token in the place of the one it presents. -/
def rebearer (f : String → String) (authorization : String) : String :=
  if f (bearer authorization) = bearer authorization then authorization
  else "Bearer " ++ f (bearer authorization)

/-- The same request of a world with other tokens: the token that `join` is to
hand out, and the one that a heartbeat presents. -/
def Op.retoken (f : String → String) : Op → Op
  | .join env body => .join { env with token' := f env.token' } body
  | .heartbeat env authorization body => .heartbeat env (rebearer f authorization) body
  | op => op

theorem trimPrefix_append (pre s : Chars) : trimPrefix pre (pre ++ s) = s := by
  rw [trimPrefix, if_pos (List.isPrefixOf_iff_prefix.mpr (List.prefix_append pre s)),
    List.drop_left]

/-- The renamed header carries the renamed token. -/
@[simp] theorem bearer_rebearer (f : String → String) (authorization : String) :
    bearer (rebearer f authorization) = f (bearer authorization) := by
  unfold rebearer
  split
  · next hSame => exact hSame.symm
  · rw [bearer, String.toList_append, trimPrefix_append, String.ofList_toList]

/-! ### The snapshot for the web page -/

/-- The reply of `getState`. -/
structure Snapshot where
  state : State
  version : String
  serverIP : String
  time : Time
deriving DecidableEq

namespace Server

/-- A device as the page sees it: without its token, and online when it was
heard of in the last 20 seconds. -/
def shown (now : Time) (d : Device) : Device :=
  { d with
    token := ""
    status := if d.id = "cloud" then "online"
      else if d.lastSeen + 20 * second < now then "offline" else "online" }

def getState (version : String) (now : Time) (s : Server) : Snapshot where
  state := { s.state with devices := s.state.devices.map (shown now) }
  version := version
  serverIP := s.cfg.serverIP
  time := now

/-- The state for the page has no token in it. -/
theorem getState_retoken (f : String → String) (version : String) (now : Time) (s : Server) :
    (s.retoken f).getState version now = s.getState version now := by
  have hShown : shown now ∘ Device.retoken f = shown now := rfl
  simp only [getState, retoken, State.retoken, List.map_map, hShown]

/-! ### The handlers carry a renaming over -/

variable (f : String → String) (s : Server)

@[simp] theorem retoken_devices :
    (s.retoken f).state.devices = s.state.devices.map (Device.retoken f) := rfl
@[simp] theorem retoken_policies : (s.retoken f).state.policies = s.state.policies := rfl
@[simp] theorem retoken_mappings : (s.retoken f).state.mappings = s.state.mappings := rfl
@[simp] theorem retoken_cfg : (s.retoken f).cfg = s.cfg := rfl
@[simp] theorem retoken_codes : (s.retoken f).codes = s.codes := rfl
@[simp] theorem retoken_forwards : (s.retoken f).forwards = s.forwards := rfl

/-- A device is looked up by its id. -/
theorem device_retoken (id : String) :
    (s.retoken f).device id = (s.device id).map (Device.retoken f) := by
  simp only [device, retoken_devices, List.find?_map]
  rfl

/-- A change that leaves the token can be made before or after. -/
theorem setDevice_retoken (id : String) {g : Device → Device} {g' : Device → Device}
    (h : ∀ d, (g d).retoken f = g' (d.retoken f)) :
    (s.retoken f).setDevice id g' = (s.setDevice id g).retoken f := by
  have hUpdate : (FirstMatch.update (fun d => decide (d.id = id)) g s.state.devices).map
      (Device.retoken f) = FirstMatch.update (fun d => decide (d.id = id)) g'
        (s.state.devices.map (Device.retoken f)) :=
    @FirstMatch.map_update_comm Device Device (fun d => decide (d.id = id)) g (Device.retoken f)
      (fun d => decide (d.id = id)) g' (fun _ => rfl) h s.state.devices
  simp only [setDevice, retoken, State.retoken, hUpdate]

/-- The log knows no tokens. -/
theorem audit_retoken (now : Time) (action detail : String) :
    (s.retoken f).audit now action detail = (s.audit now action detail).retoken f := by
  simp only [audit, retoken, State.retoken]

/-- A check of all devices that looks at no token does not depend on the tokens. -/
theorem any_retoken {q : Device → Bool} (hq : ∀ d, q (d.retoken f) = q d) :
    (s.state.devices.map (Device.retoken f)).any q = s.state.devices.any q := by
  simp only [List.any_map, Function.comp_def, hq]

/-- A code does not depend on the tokens. -/
theorem createCode_retoken (env : Env) (body : Decoded String) :
    (s.retoken f).createCode env body =
      (((s.createCode env body).1).retoken f, (s.createCode env body).2.retoken f) := by
  cases body with
  | error e => rfl
  | ok ip =>
      unfold createCode
      dsimp only
      rw [retoken_cfg, retoken_codes]
      split_ifs <;> rfl

/-- The address of a join does not depend on the tokens. -/
theorem assigned_retoken (code : Enrollment) (existing : String) :
    (s.retoken f).assigned code existing = s.assigned code existing := by
  have hUsed : ∀ candidate,
      (s.retoken f).addressUsed existing candidate = s.addressUsed existing candidate :=
    fun candidate => by
      unfold addressUsed
      rw [retoken_devices, any_retoken f s fun _ => rfl, retoken_cfg]
  simp only [assigned, allocate, hUsed, retoken_cfg]

/-- The plan of a join does not depend on the tokens. -/
theorem joinPlan_retoken (req : JoinRequest) (env : Env) (token' : String) :
    (s.retoken f).joinPlan req { env with token' := token' } = s.joinPlan req env := by
  have hKnown : ∀ q : Device → Bool, (∀ d, q (d.retoken f) = q d) →
      (s.state.devices.map (Device.retoken f)).any q = s.state.devices.any q :=
    fun q hq => any_retoken f s hq
  simp only [joinPlan, addressPlan, assigned_retoken, retoken_codes, retoken_devices]
  split
  · rfl
  · split
    · rfl
    · rw [hKnown _ fun _ => rfl]

/-- A join hands its own token out, and depends on no other one. -/
theorem join_retoken (env : Env) (body : Decoded JoinRequest) :
    (s.retoken f).join { env with token' := f env.token' } body =
      (s.join env body).rename (retoken f) (Answer.retoken f) := by
  cases body with
  | error e => rfl
  | ok req =>
      simp only [join, joinPlan_retoken]
      cases s.joinPlan req env with
      | error e => rfl
      | ok plan =>
          unfold commitJoin
          dsimp only
          split
          · rfl
          · have hAdd : (s.retoken f).addDevice { env with token' := f env.token' }
                (joinedDevice req { env with token' := f env.token' } plan.ip) =
                (s.addDevice env (joinedDevice req env plan.ip)).retoken f := by
              simp only [addDevice, retoken, State.retoken, audit, List.map_append]
              rfl
            have hFailed : ∀ u : Server,
                { u.retoken f with state.devices := (u.retoken f).state.devices.dropLast } =
                  ({ u with state.devices := u.state.devices.dropLast }).retoken f := fun u => by
              simp only [retoken, State.retoken, List.map_dropLast]
            rw [hAdd, Section.rename_persist]
            simp only [hFailed]
            rfl

theorem policyFor_retoken (id : String) (default : Policy) :
    (s.retoken f).policyFor id default = s.policyFor id default := rfl

/-- The answer to a heartbeat has no token in it. -/
theorem heartbeatReply_retoken (env : Env) (id : String) :
    (s.retoken f).heartbeatReply env id = s.heartbeatReply env id := by
  have hExit : ∀ active, (s.retoken f).exitName active = s.exitName active := fun active => by
    simp only [exitName, device_retoken]
    cases s.device active <;> rfl
  simp only [heartbeatReply, policyFor_retoken, hExit, device_retoken]
  cases s.device id <;> rfl

variable {f}

/-- The comparison of `core.Equal`, for a renaming that takes no token to the
empty text and no two to one. -/
theorem equal_retoken (hf : Function.Injective f) (hEmpty : f "" = "") (a b : String) :
    equal (f a) (f b) = equal a b := by
  have hNone : f a = "" ↔ a = "" := by
    constructor
    · exact fun h => hf (h.trans hEmpty.symm)
    · rintro rfl
      exact hEmpty
  simp only [equal, ne_eq, hNone, hf.eq_iff]

/-- A heartbeat under the renamed token is answered in the same way. -/
theorem heartbeat_retoken (hf : Function.Injective f) (hEmpty : f "" = "") (env : Env)
    (authorization : String) (body : Decoded HeartbeatRequest) :
    (s.retoken f).heartbeat env (rebearer f authorization) body =
      (s.heartbeat env authorization body).rename (retoken f) (Answer.retoken f) := by
  cases body with
  | error e => rfl
  | ok v =>
      have hSeen : ∀ u : Server, (u.retoken f).setDevice v.id (markSeen env.now) =
          (u.setDevice v.id (markSeen env.now)).retoken f :=
        fun u => setDevice_retoken f u v.id fun _ => rfl
      have hFill : ∀ u : Server, (u.retoken f).setDevice v.id (fillSSH v) =
          (u.setDevice v.id (fillSSH v)).retoken f :=
        fun u => setDevice_retoken f u v.id fun _ => rfl
      have hReport : ∀ u : Server, (u.retoken f).setDevice v.id (report v) =
          (u.setDevice v.id (report v)).retoken f :=
        fun u => setDevice_retoken f u v.id fun _ => rfl
      unfold heartbeat
      dsimp only
      rw [device_retoken]
      cases s.device v.id with
      | none => rfl
      | some d =>
          have hToken : equal (d.retoken f).token (bearer (rebearer f authorization)) =
              equal d.token (bearer authorization) := by
            rw [bearer_rebearer]
            exact equal_retoken hf hEmpty d.token (bearer authorization)
          have hFills : fillsSSH (d.retoken f) v = fillsSSH d v := rfl
          dsimp only [Option.map_some]
          rw [hToken, hFills, hSeen, hFill, hReport, hReport, heartbeatReply_retoken,
            heartbeatReply_retoken]
          split_ifs <;> rfl

variable (f)

/-- Settings do not depend on the tokens. -/
theorem updateDevice_retoken (env : Env) (id : String) (body : Decoded DeviceSettings) :
    (s.retoken f).updateDevice env id body =
      (s.updateDevice env id body).rename (retoken f) (Answer.retoken f) := by
  cases body with
  | error e => rfl
  | ok v =>
      unfold updateDevice
      dsimp only
      rw [device_retoken]
      split_ifs
      · rfl
      · rfl
      · cases s.device id with
        | none => rfl
        | some old =>
            have hApply : (s.retoken f).setDevice id (applySettings v) =
                (s.setDevice id (applySettings v)).retoken f :=
              setDevice_retoken f s id fun _ => rfl
            have hRestore : ∀ u : Server, (u.retoken f).setDevice id (fun _ => old.retoken f) =
                (u.setDevice id fun _ => old).retoken f :=
              fun u => setDevice_retoken f u id fun _ => rfl
            dsimp only [Option.map_some]
            rw [hApply, audit_retoken, hRestore]
            rfl

/-- A policy is stored whatever the tokens are. -/
theorem putPolicy_retoken (env : Env) (id : String) (body : Decoded Policy) :
    (s.retoken f).putPolicy env id body =
      (s.putPolicy env id body).rename (retoken f) (Answer.retoken f) := by
  cases body with
  | error e => rfl
  | ok v =>
      have hExits : (s.retoken f).exitsAccepted v.exits = s.exitsAccepted v.exits := by
        simp only [exitsAccepted, device_retoken, Option.any_map]
        rfl
      unfold putPolicy
      dsimp only
      rw [hExits, device_retoken]
      cases s.device id with
      | none =>
          simp only [Option.map_none, if_true]
          split <;> rfl
      | some d =>
          simp only [Option.map_some, reduceCtorEq, if_false]
          split_ifs
          · rfl
          · rfl
          · simp only [audit, retoken, State.retoken, Section.rename_persist]
            rfl

/-- A probe writes back whatever the tokens are. -/
theorem writeProbe_retoken (id : String) (r : ProbeResult) :
    (s.retoken f).writeProbe id r = (s.writeProbe id r).retoken f :=
  setDevice_retoken f s id fun _ => rfl

/-- The line about a session is the same whatever the tokens are. -/
theorem auditSession_retoken (env : Env) (action detail : String) :
    (s.retoken f).auditSession env action detail =
      (s.auditSession env action detail).rename (retoken f) (Answer.retoken f) := by
  unfold auditSession
  dsimp only
  rw [audit_retoken]
  rfl

/-- The check of a mapping looks at no token. -/
theorem validateMapping_retoken (m : Mapping) :
    (s.retoken f).validateMapping m = s.validateMapping m := by
  unfold validateMapping
  rw [device_retoken, retoken_mappings, retoken_cfg]
  cases s.device m.device <;> rfl

end Server

namespace Process
variable (f : String → String) (p : Process)

@[simp] theorem retoken_server : (p.retoken f).server = p.server.retoken f := rfl

/-- A mapping is started whatever the tokens are. -/
theorem startMapping_retoken (listen : Listen) (m : Mapping) :
    (p.retoken f).startMapping listen m = p.startMapping listen m := by
  unfold startMapping
  rw [retoken_server, Server.device_retoken]
  cases p.server.device m.device <;> rfl

/-- A new mapping is accepted or refused whatever the tokens are. -/
theorem putMapping_retoken (env : Env) (body : Decoded Mapping) :
    (p.retoken f).putMapping env body =
      (p.putMapping env body).map (Section.rename (retoken f) (Answer.retoken f)) := by
  cases body with
  | error e => rfl
  | ok m =>
      have hHolder : (p.retoken f).holder = p.holder := rfl
      unfold putMapping
      dsimp only
      rw [retoken_server, Server.validateMapping_retoken, hHolder]
      split_ifs
      · rfl
      · rfl
      · cases p.server.validateMapping m <;> rfl

/-- Its listener is opened whatever the tokens are. -/
theorem openMapping_retoken (listen : Listen) :
    (p.retoken f).openMapping listen =
      (p.openMapping listen).map (Section.rename (retoken f) (Answer.retoken f)) := by
  have hHolder : (p.retoken f).holder = p.holder := rfl
  unfold openMapping
  rw [hHolder]
  split
  · next m hCreating =>
      rw [startMapping_retoken]
      cases p.startMapping listen m <;> rfl
  · rfl

/-- A mapping is stopped whatever the tokens are. -/
theorem stop_retoken (socket : Option Socket) :
    (p.retoken f).stop socket = (p.stop socket).retoken f := by
  cases socket <;> rfl

/-- A new mapping is saved whatever the tokens are. -/
theorem commitMapping_retoken (env : Env) :
    (p.retoken f).commitMapping env =
      (p.commitMapping env).map (Section.rename (retoken f) (Answer.retoken f)) := by
  have hHolder : (p.retoken f).holder = p.holder := rfl
  unfold commitMapping
  rw [hHolder]
  split
  · next m stop hCreated =>
      have hAdd : (p.retoken f).server.addMapping env m =
          (p.server.addMapping env m).retoken f := by
        simp only [retoken_server, Server.addMapping, Server.audit, Server.retoken, State.retoken]
      dsimp only
      rw [hAdd, stop_retoken]
      rfl
  · rfl

/-- A mapping is deleted whatever the tokens are. -/
theorem deleteMapping_retoken (env : Env) (id : String) :
    (p.retoken f).deleteMapping env id =
      (p.deleteMapping env id).map (Section.rename (retoken f) (Answer.retoken f)) := by
  have hHolder : (p.retoken f).holder = p.holder := rfl
  have hRemove : (p.retoken f).server.removeMapping env id =
      (p.server.removeMapping env id).retoken f := by
    simp only [retoken_server, Server.removeMapping, Server.audit, Server.retoken, State.retoken]
  have hMappings : (p.retoken f).server.state.mappings = p.server.state.mappings := rfl
  unfold deleteMapping
  dsimp only
  rw [hRemove, hHolder, hMappings, Server.retoken_forwards, stop_retoken]
  split_ifs <;> rfl

/-- Restoring begins with the same mappings whatever the tokens are. -/
theorem restoreMappings_retoken :
    (p.retoken f).restoreMappings =
      p.restoreMappings.map (Section.rename (retoken f) (Answer.retoken f)) := by
  have hGuard : ((p.retoken f).holder.isSome || (p.retoken f).restored) =
      (p.holder.isSome || p.restored) := rfl
  unfold restoreMappings
  rw [hGuard]
  split_ifs <;> rfl

/-- Each mapping is restored whatever the tokens are. -/
theorem restoreNext_retoken (listen : Listen) :
    (p.retoken f).restoreNext listen =
      (p.restoreNext listen).map (Section.rename (retoken f) (Answer.retoken f)) := by
  have hHolder : (p.retoken f).holder = p.holder := rfl
  unfold restoreNext
  rw [hHolder]
  split
  · rfl
  · next m todo hRestoring =>
      rw [startMapping_retoken]
      split_ifs
      · rfl
      · cases p.startMapping listen m <;> rfl
  · rfl

/-- The error of a mapping is the same whatever the tokens are. -/
theorem restoreMark_retoken :
    (p.retoken f).restoreMark =
      p.restoreMark.map (Section.rename (retoken f) (Answer.retoken f)) := by
  have hHolder : (p.retoken f).holder = p.holder := rfl
  unfold restoreMark
  rw [hHolder]
  split <;> rfl

/-- What the server does under the mutex, the process does. -/
theorem onServer_retoken {sec sec' : Section Server Answer}
    (h : sec' = sec.rename (Server.retoken f) (Answer.retoken f)) :
    (p.retoken f).onServer sec' =
      (p.onServer sec).map (Section.rename (retoken f) (Answer.retoken f)) := by
  have hPart : ∀ s, { p.retoken f with server := s.retoken f } =
      ({ p with server := s } : Process).retoken f := fun _ => rfl
  rw [h, onServer, onServer, Option.map_some, Section.rename_map (Answer.retoken f) hPart]

/-- Every critical section carries the renaming over: one case for each
request and task. -/
theorem exec_retoken {f : String → String} (hf : Function.Injective f) (hEmpty : f "" = "")
    (op : Op) : (p.retoken f).exec (op.retoken f) =
      (p.exec op).map (Section.rename (retoken f) (Answer.retoken f)) := by
  cases op with
  | createCode env body =>
      refine onServer_retoken f p ?_
      rw [retoken_server, Server.createCode_retoken]
      rfl
  | join env body => exact onServer_retoken f p (Server.join_retoken f _ env body)
  | heartbeat env authorization body =>
      exact onServer_retoken f p (Server.heartbeat_retoken _ hf hEmpty env authorization body)
  | updateDevice env id body => exact onServer_retoken f p (Server.updateDevice_retoken f _ env id body)
  | putPolicy env id body => exact onServer_retoken f p (Server.putPolicy_retoken f _ env id body)
  | setActive id active => exact onServer_retoken f p rfl
  | writeProbe id result =>
      refine onServer_retoken f p ?_
      rw [retoken_server, Server.writeProbe_retoken]
      rfl
  | saveProbe => exact onServer_retoken f p rfl
  | auditSession env action detail =>
      exact onServer_retoken f p (Server.auditSession_retoken f _ env action detail)
  | putMapping env body => exact putMapping_retoken f p env body
  | openMapping listen => exact openMapping_retoken f p listen
  | commitMapping env => exact commitMapping_retoken f p env
  | deleteMapping env id => exact deleteMapping_retoken f p env id
  | restoreMappings => exact restoreMappings_retoken f p
  | restoreNext listen => exact restoreNext_retoken f p listen
  | restoreMark => exact restoreMark_retoken f p

end Process

/-! ### Runs -/

/-- A renaming of the tokens is a symmetry of the server. -/
def tokenSymmetry (cfg : ServerConfig) {f : String → String} (hf : Function.Injective f)
    (hEmpty : f "" = "") : Symmetry (service cfg) where
  mem := Process.retoken f
  disk := State.retoken f
  op := Op.retoken f
  ans := Answer.retoken f
  boot _ := rfl
  content _ := rfl
  exec p op := p.exec_retoken hf hEmpty op

/-- The answer to a request, with the token left out of the one that hands it
out; nobody gets an answer of a process that died. -/
def seen : Event Op Answer → Option Answer
  | .answered _ ans => some (ans.retoken fun _ => "")
  | .interrupted _ _ => none

/-- What others see of an event is the same after the renaming. -/
theorem seen_map (f : String → String) (g : Op → Op) (e : Event Op Answer) :
    seen (e.map g (Answer.retoken f)) = seen e := by
  have hBlank : ∀ r : Reply, (r.retoken f).retoken (fun _ => "") = r.retoken fun _ => "" := fun r => by
    match r with
    | .json (.joined ..) | .json .ok | .json (.code ..) | .json (.heartbeat ..) | .json (.policy _)
    | .json (.mapping _) | .fail .. | .done => rfl
  cases e with
  | interrupted op ans => rfl
  | answered op ans => simp only [Event.map, seen, Answer.retoken, hBlank]

/-- In a world with other tokens, where each device presents the one it was
given, every request gets the same answer but for the token in the reply to
`join`, and the web page is shown the same, after every run with its crashes
and restarts. So who is not given a token and does not present it learns
nothing of it. -/
theorem tokens_not_leaked {cfg : ServerConfig} {token : String} {f : String → String}
    (hf : Function.Injective f) (hEmpty : f "" = "") {labels : List (Label Op)}
    {s : Machine Process State Op Answer}
    (h : follow (service cfg).step ⟨some (firstProcess cfg token), firstState cfg token, []⟩ labels =
      some s) :
    ∃ s', follow (service cfg).step
        ⟨some (firstProcess cfg (f token)), firstState cfg (f token), []⟩
        (labels.map (Label.map (Op.retoken f))) = some s' ∧
      s'.history.map seen = s.history.map seen ∧
      ∀ version now, (s'.mem.map fun p => p.server.getState version now) =
        s.mem.map fun p => p.server.getState version now := by
  let σ := tokenSymmetry cfg hf hEmpty
  have hStart : σ.machine ⟨some (firstProcess cfg token), firstState cfg token, []⟩ =
      ⟨some (firstProcess cfg (f token)), firstState cfg (f token), []⟩ := rfl
  refine ⟨σ.machine s, ?_, ?_, fun version now => ?_⟩
  · rw [← hStart]
    exact (σ.follow_map _ labels).trans (congrArg (Option.map σ.machine) h)
  · exact (List.map_map ..).trans (List.map_congr_left fun e _ => seen_map f (Op.retoken f) e)
  · cases hMem : s.mem with
    | none => simp [σ, Symmetry.machine, hMem]
    | some p =>
        simp only [σ, Symmetry.machine, hMem, tokenSymmetry, Option.map_some]
        exact congrArg some (Server.getState_retoken f version now p.server)

/-- A device joins, and presents its token. -/
def joinAndReport : List (Label Op) :=
  [.run (.createCode (sampleEnv 'a' 'a') (.ok "")) true,
   .run (.join (sampleEnv 'c' 'b') (.ok ⟨sampleToken 'a', "laptop", sampleKey⟩)) true,
   .run (.heartbeat (sampleEnv 'd' 'd') ("Bearer " ++ sampleToken 'b')
     (.ok ⟨"", "", idOf (sampleToken 'c'), "1.0", 3, []⟩)) true]

/-- A device joins and reports; with another token for it the answers to the others are
the same. -/
theorem tokens_not_leaked_enrollment :
    ∃ s s', follow (service sampleConfig).step
        ⟨some (firstProcess sampleConfig "secret"), firstState sampleConfig "secret", []⟩
        joinAndReport = some s ∧
      follow (service sampleConfig).step
        ⟨some (firstProcess sampleConfig "secret"), firstState sampleConfig "secret", []⟩
        (joinAndReport.map (Label.map (Op.retoken
          (Equiv.swap (sampleToken 'b') (sampleToken 'e'))))) = some s' ∧
      s'.history.map seen = s.history.map seen := by
  have hFollow : (follow (service sampleConfig).step
      ⟨some (firstProcess sampleConfig "secret"), firstState sampleConfig "secret", []⟩
      joinAndReport).isSome = true := by decide +kernel
  obtain ⟨s, hs⟩ := Option.isSome_iff_exists.mp hFollow
  have hOther : ∀ t, t ≠ sampleToken 'b' → t ≠ sampleToken 'e' →
      Equiv.swap (sampleToken 'b') (sampleToken 'e') t = t :=
    fun _ => Equiv.swap_apply_of_ne_of_ne
  obtain ⟨s', hs', hSeen, -⟩ := tokens_not_leaked
    (Equiv.swap (sampleToken 'b') (sampleToken 'e')).injective
    (hOther "" (by decide) (by decide)) hs
  rw [hOther "secret" (by decide) (by decide)] at hs'
  exact ⟨s, s', hs, hs', hSeen⟩

end NetConductor
