import NetConductor.Core.Save
import NetConductor.Server.Runs

/-! The state file as a store. Handlers change memory in place, save, and take
the change back by hand when the save fails; probes, heartbeats and dials write
telemetry into the same records and save them too. Over all of this the
configured part of the state is a fold of the acknowledged requests. -/
namespace NetConductor
open Durable Transition

/-! ### The configuration -/

structure PolicyConfig where
  source : String
  exits : List String
  onFailure : String
deriving DecidableEq

def Policy.config (p : Policy) : PolicyConfig := ⟨p.source, p.exits, p.onFailure⟩

/-- A mapping without its error. -/
def Mapping.config (m : Mapping) : Mapping := { m with error := "" }

structure Config where
  devices : List DeviceConfig
  policies : List PolicyConfig
  mappings : List Mapping
deriving DecidableEq

def State.config (st : State) : Config where
  devices := st.devices.map Device.config
  policies := st.policies.map Policy.config
  mappings := st.mappings.map Mapping.config

def configure (v : Server.DeviceSettings) (d : DeviceConfig) : DeviceConfig :=
  { d with name := v.name, proxyPort := v.proxyPort, proxyType := v.proxyType }

/-- What an answered request has done to the configuration: an error, a report
or a background task nothing, a success what it was asked for. -/
def effect (op : Op) (ans : Answer) (c : Config) : Config :=
  match op, ans.reply with
  | .join _ _, .json (.joined d _ _ _ _ _) => { c with devices := c.devices ++ [d.config] }
  | .updateDevice _ id (.ok v), .json .ok =>
      { c with devices := FirstMatch.update (fun d => d.id = id) (configure v) c.devices }
  | .putPolicy _ _ _, .json (.policy p) =>
      { c with policies := FirstMatch.upsert PolicyConfig.source p.config c.policies }
  | .commitMapping _, .json (.mapping m) => { c with mappings := c.mappings ++ [m.config] }
  | .deleteMapping _ id, .json .ok =>
      { c with mappings := c.mappings.eraseP fun m => m.id = id }
  | _, _ => c

def Refused (ans : Answer) : Prop := ans.reply.isError = true

/-- A refused operation has no effect. -/
theorem effect_refused (op : Op) {ans : Answer} (h : Refused ans) (c : Config) :
    effect op ans c = c := by
  unfold effect
  split
  all_goals first
    | rfl
    | next hReply => simp [Refused, hReply, Reply.isError] at h

/-- The writers of telemetry: reports, probes, dials and session logs. -/
def Op.telemetry : Op → Bool
  | .heartbeat .. | .setActive .. | .writeProbe .. | .saveProbe | .auditSession .. |
    .restoreMark => true
  | _ => false

theorem effect_telemetry {op : Op} (h : op.telemetry = true) (ans : Answer) (c : Config) :
    effect op ans c = c := by
  cases op <;> first | rfl | simp [Op.telemetry] at h

/-! ### Each handler implements its effect -/

namespace Server

@[simp] theorem config_audit (s : Server) (now : Time) (action detail : String) :
    (s.audit now action detail).state.config = s.state.config := by simp [State.config]

theorem config_setDevice {f : Device → Device} (hf : ∀ d, (f d).config = d.config) (s : Server)
    (id : String) : (s.setDevice id f).state.config = s.state.config := by
  have hDevices := FirstMatch.map_update (p := fun d => decide (d.id = id)) hf s.state.devices
  simpa [State.config, Server.setDevice] using hDevices

theorem config_setActive (id active : String) (s : Server) :
    (s.setActive id active).state.config = s.state.config := by
  simp only [State.config, setActive, List.map_map, Config.mk.injEq, and_true, true_and]
  refine List.map_congr_left fun p _ => ?_
  simp only [Function.comp_apply]
  split <;> rfl

/-- The section does what the effect of its answer says, on the server's part
of the memory. -/
def Implements (s : Server) (op : Op) (sec : Section Server Answer) : Prop :=
  sec.Implements (fun s => s.state.config) (fun s => s.state.config) (effect op) s.state.config

/-- A code is created as the store does it. -/
theorem createCode_implements (env : Env) (body : Decoded String) (s : Server) :
    s.Implements (.createCode env body)
      (.answer (s.createCode env body).1 ⟨(s.createCode env body).2, []⟩) := by
  obtain ⟨codes, hResult, -⟩ := createCode_cases env body s
  refine ⟨?_, rfl⟩
  rw [hResult]

/-- A join saves what the abstract join adds. -/
theorem join_implements (env : Env) (body : Decoded JoinRequest) (s : Server) :
    s.Implements (.join env body) (s.join env body) := by
  unfold Implements
  rcases join_cases env body s with ⟨status, e, wg, hJoin⟩ | ⟨req, plan, -, -, hJoin⟩
  · rw [hJoin]
    exact ⟨rfl, rfl⟩
  · rw [hJoin]
    refine ⟨?_, ?_, ?_, rfl⟩
    · simp [State.config, effect]
    · simp [State.config, effect]
    · simp [State.config]

/-- A heartbeat changes the store as the operation says. -/
theorem heartbeat_implements (env : Env) (authorization : String)
    (body : Decoded HeartbeatRequest) (s : Server) :
    s.Implements (.heartbeat env authorization body) (s.heartbeat env authorization body) := by
  refine Section.Implements.of_holds (heartbeat_holds (fun t id f hf ht => ?_) env authorization
    body rfl) fun _ _ => rfl
  exact (config_setDevice hf t id).trans ht

/-- Settings are saved as the abstract store has them. -/
theorem updateDevice_implements (env : Env) (id : String) (body : Decoded DeviceSettings)
    (s : Server) : s.Implements (.updateDevice env id body) (s.updateDevice env id body) := by
  unfold Implements
  cases body with
  | error e => exact ⟨rfl, rfl⟩
  | ok v =>
      have hNew : ((s.setDevice id (applySettings v)).audit env.now "device.update"
          v.name).state.config =
          { s.state.config with
            devices := FirstMatch.update (fun d => d.id = id) (configure v)
              s.state.config.devices } := by
        rw [config_audit]
        have hDevices : (FirstMatch.update (fun d => d.id = id) (applySettings v)
            s.state.devices).map Device.config =
            FirstMatch.update (fun d => d.id = id) (configure v) s.state.config.devices := by
          apply FirstMatch.map_update_comm <;> exact fun _ => rfl
        simpa [State.config, Server.setDevice] using hDevices
      unfold updateDevice
      dsimp only
      split_ifs
      · exact ⟨rfl, rfl⟩
      · exact ⟨rfl, rfl⟩
      · split
        · exact ⟨rfl, rfl⟩
        · next old hOld =>
            refine ⟨hNew, hNew, ?_, rfl⟩
            have hDevices := setDevice_restore (f := applySettings v) hOld fun _ => rfl
            simp only [State.config, Server.setDevice, audit] at hDevices ⊢
            rw [hDevices]

/-- Policies are saved as the abstract store has them. -/
theorem putPolicy_implements (env : Env) (id : String) (body : Decoded Policy) (s : Server) :
    s.Implements (.putPolicy env id body) (s.putPolicy env id body) := by
  unfold Implements
  cases body with
  | error e => exact ⟨rfl, rfl⟩
  | ok v =>
      unfold putPolicy
      dsimp only
      split_ifs
      · exact ⟨rfl, rfl⟩
      · exact ⟨rfl, rfl⟩
      · exact ⟨rfl, rfl⟩
      · have hStored : ∀ p, (storePolicy p s.state.policies).map Policy.config =
            FirstMatch.upsert PolicyConfig.source p.config (s.state.policies.map Policy.config) := by
          intro p
          apply FirstMatch.map_upsert
          exact fun _ => rfl
        refine ⟨?_, ?_, ?_, rfl⟩
        · simpa [State.config, effect] using hStored _
        · simpa [State.config, effect] using hStored _
        · simp [State.config]

theorem auditSession_implements (env : Env) (action detail : String) (s : Server) :
    s.Implements (.auditSession env action detail) (s.auditSession env action detail) := by
  have hSame := config_audit s env.now action detail
  exact ⟨hSame, hSame, hSame, rfl⟩

end Server

namespace Process

/-- Every request and every task does to the configuration what its answer
says, and saves nothing else. -/
theorem exec_implements {p : Process} {op : Op} {sec : Section Process Answer}
    (h : p.exec op = some sec) :
    sec.Implements (fun q => q.server.state.config) (fun q => q.server.state.config) (effect op)
      p.server.state.config := by
  have hOn : ∀ sec' : Section Server Answer, p.server.Implements op sec' →
      p.onServer sec' = some sec →
      sec.Implements (fun q => q.server.state.config) (fun q => q.server.state.config) (effect op)
        p.server.state.config := by
    rintro sec' hImplements hSec
    obtain rfl := Option.some.inj hSec
    exact (Section.implements_map _ _ _ _ _ _).mpr hImplements
  cases op with
  | createCode env body => exact hOn _ (Server.createCode_implements env body _) h
  | join env body => exact hOn _ (Server.join_implements env body _) h
  | heartbeat env authorization body =>
      exact hOn _ (Server.heartbeat_implements env authorization body _) h
  | updateDevice env id body => exact hOn _ (Server.updateDevice_implements env id body _) h
  | putPolicy env id body => exact hOn _ (Server.putPolicy_implements env id body _) h
  | setActive id active =>
      exact hOn (.answer _ _) ⟨Server.config_setActive id active p.server, rfl⟩ h
  | writeProbe id result =>
      have hSame := Server.config_setDevice (f := Server.recordProbe result) (fun _ => rfl)
        p.server id
      exact hOn (.answer _ _) ⟨hSame, rfl⟩ h
  | saveProbe => exact hOn (.persist _ _ _) ⟨rfl, rfl, rfl, rfl⟩ h
  | auditSession env action detail =>
      exact hOn _ (Server.auditSession_implements env action detail _) h
  | putMapping env body =>
      rcases putMapping_cases h with ⟨status, e, rfl⟩ | ⟨m, -, -, -, -, rfl⟩ <;> exact ⟨rfl, rfl⟩
  | openMapping listen =>
      obtain ⟨m, -, ⟨e, rfl⟩ | ⟨l, -, rfl⟩⟩ := openMapping_cases h <;> exact ⟨rfl, rfl⟩
  | commitMapping env =>
      obtain ⟨m, stop, -, rfl⟩ := commitMapping_cases h
      refine ⟨?_, ?_, ?_, rfl⟩
      · simp [State.config, effect]
      · simp [State.config, effect]
      · simp [State.config]
  | deleteMapping env id =>
      obtain ⟨-, rfl | ⟨-, rfl⟩⟩ := deleteMapping_cases h
      · exact ⟨rfl, rfl⟩
      · have hErased : (p.server.state.mappings.eraseP fun m => m.id = id).map Mapping.config =
            (p.server.state.mappings.map Mapping.config).eraseP fun m => m.id = id := by
          rw [List.eraseP_map]
          rfl
        refine ⟨?_, ?_, ?_, rfl⟩
        · simpa [State.config, effect] using hErased
        · simpa [State.config, effect] using hErased
        · simp [State.config]
  | restoreMappings =>
      obtain ⟨-, -, rfl⟩ := restoreMappings_cases h
      exact ⟨rfl, rfl⟩
  | restoreNext listen =>
      rcases restoreNext_cases h with ⟨-, rfl⟩ |
        ⟨m, todo, -, ⟨-, rfl⟩ | ⟨-, e, -, rfl⟩ | ⟨-, l, -, rfl⟩⟩ <;> exact ⟨rfl, rfl⟩
  | restoreMark =>
      obtain ⟨id, error, todo, -, rfl⟩ := restoreMark_cases h
      refine ⟨?_, rfl⟩
      simp only [State.config, Server.markMapping, List.map_map, Config.mk.injEq, true_and]
      refine List.map_congr_left fun m _ => ?_
      simp only [Function.comp_apply]
      split <;> rfl

/-- A request whose save went through is not answered with an error. -/
theorem exec_honest {p : Process} {op : Op} {sec : Section Process Answer}
    (h : p.exec op = some sec) : sec.Honest Refused := by
  have hOn : ∀ sec' : Section Server Answer, sec'.Honest Refused → p.onServer sec' = some sec →
      sec.Honest Refused := by
    rintro sec' hHonest hSec
    obtain rfl := Option.some.inj hSec
    exact (Section.honest_map _ _ _).mpr hHonest
  have hJson : ∀ body wg, ¬Refused ⟨.json body, wg⟩ := fun body wg => by simp [Refused, Reply.isError]
  have hDone : ∀ wg, ¬Refused ⟨.done, wg⟩ := fun wg => by simp [Refused, Reply.isError]
  cases op with
  | createCode env body => exact hOn (.answer _ _) trivial h
  | join env body =>
      refine hOn _ ?_ h
      rcases Server.join_cases env body p.server with ⟨status, e, wg, hJoin⟩ |
        ⟨req, plan, -, -, hJoin⟩
      · rw [hJoin]
        trivial
      · rw [hJoin]
        exact hJson _ _
  | heartbeat env authorization body =>
      refine hOn _ ?_ h
      unfold Server.heartbeat
      split
      · trivial
      · split
        · trivial
        · dsimp only
          split_ifs <;> first | trivial | exact hJson _ _
  | updateDevice env id body =>
      refine hOn _ ?_ h
      rcases Server.updateDevice_cases env id body p.server with ⟨status, e, hUpdate⟩ |
        ⟨v, old, -, -, -, hUpdate⟩ <;> rw [hUpdate]
      · trivial
      · exact hJson _ _
  | putPolicy env id body =>
      refine hOn _ ?_ h
      rcases Server.putPolicy_cases env id body p.server with ⟨status, e, hPut⟩ |
        ⟨v, -, -, -, -, -, hPut⟩ <;> rw [hPut]
      · trivial
      · exact hJson _ _
  | setActive id active => exact hOn (.answer _ _) trivial h
  | writeProbe id result => exact hOn (.answer _ _) trivial h
  | saveProbe => exact hOn (.persist _ _ _) (by simp [Section.Honest, hDone]) h
  | auditSession env action detail =>
      exact hOn _ (by simp [Server.auditSession, Section.Honest, hDone]) h
  | putMapping env body =>
      rcases putMapping_cases h with ⟨status, e, rfl⟩ | ⟨m, -, -, -, -, rfl⟩ <;> trivial
  | openMapping listen =>
      obtain ⟨m, -, ⟨e, rfl⟩ | ⟨l, -, rfl⟩⟩ := openMapping_cases h <;> trivial
  | commitMapping env =>
      obtain ⟨m, stop, -, rfl⟩ := commitMapping_cases h
      exact hJson _ _
  | deleteMapping env id =>
      obtain ⟨-, rfl | ⟨-, rfl⟩⟩ := deleteMapping_cases h
      · trivial
      · exact hJson _ _
  | restoreMappings =>
      obtain ⟨-, -, rfl⟩ := restoreMappings_cases h
      trivial
  | restoreNext listen =>
      rcases restoreNext_cases h with ⟨-, rfl⟩ |
        ⟨m, todo, -, ⟨-, rfl⟩ | ⟨-, e, -, rfl⟩ | ⟨-, l, -, rfl⟩⟩ <;> trivial
  | restoreMark =>
      obtain ⟨id, error, todo, -, rfl⟩ := restoreMark_cases h
      trivial

end Process

/-! ### Runs with the saves taken apart -/

/-- A process between two requests, or down. -/
abbrev StoreState := Fine Process (SaveDir State) Op Answer (SaveJob State)

/-- All runs from an empty state file, in which every system call of a save may
fail and the process may die between any two of them. -/
def savedRuns (cfg : ServerConfig) (token : String) : System StoreState (FineLabel Op) :=
  (service cfg).fineSystem (saver State) (firstProcess cfg token) ⟨firstState cfg token, 0⟩
    fun _ _ => True

/-- What a stretch of a run from one idle state to another owes the file: its
configuration is explained by the new events, a fold of them where none was
interrupted; refusals and telemetry do not change the configuration, and
refusals alone leave the whole file as it was. -/
def Accounts (s t : StoreState) : Prop :=
  ∃ extra, t.history = s.history ++ extra ∧
    Explains effect s.files.target.config extra t.files.target.config ∧
    (∀ answered : List (Op × Answer), extra = answered.map (fun e => .answered e.1 e.2) →
      t.files.target.config = answered.foldl (fun c e => effect e.1 e.2 c) s.files.target.config) ∧
    ((∀ e ∈ extra, ∃ op ans, e = .answered op ans ∧ (Refused ans ∨ op.telemetry = true)) →
      t.files.target.config = s.files.target.config) ∧
    ((∀ e ∈ extra, ∃ op ans, e = .answered op ans ∧ Refused ans) →
      t.files.target = s.files.target)

/-- An idle store is what the machine has in memory and on disk. -/
theorem abstracts_idle {cfg : ServerConfig} {allowed : Process → Op → Prop} {s : StoreState}
    {m : Machine Process State Op Answer}
    (h : Service.Abstracts (service cfg) (saver State) allowed s m) (hIdle : s.busy = none) :
    m = ⟨s.mem, s.files.target, s.history⟩ := by
  cases h with
  | idle mem files history => rfl
  | saving => cases hIdle
  | answering => cases hIdle

/-- Over a run the file is accounted for by what was answered. -/
theorem accounts_run {cfg : ServerConfig} {token : String}
    {s t : Machine Process State Op Answer} {labels : List (Label Op)}
    (run : Runs ((service cfg).system (firstProcess cfg token) (firstState cfg token)
      fun _ _ => True) s labels t)
    (hView : ∀ p, s.mem = some p → p.server.state.config = s.disk.config) :
    (∀ p, t.mem = some p → p.server.state.config = t.disk.config) ∧
    ∃ extra, t.history = s.history ++ extra ∧ Explains effect s.disk.config extra t.disk.config ∧
      ((∀ e ∈ extra, ∃ op ans, e = .answered op ans ∧ Refused ans) → t.disk = s.disk) := by
  obtain ⟨hEnd, extra, hHistory, hExplains⟩ := Service.explains_run
    (fun p : Process => p.server.state.config) State.config
    (fun _ => rfl) (fun _ _ _ hSec => Process.exec_implements hSec) run hView
  obtain ⟨extra', hHistory', hKept⟩ := Service.refused_run
    (fun _ _ _ hSec => Process.exec_honest hSec) run
  obtain rfl := List.append_cancel_left (hHistory.symm.trans hHistory')
  exact ⟨hEnd, extra, hHistory, hExplains, hKept⟩

/-- The store is atomic and durable: in every reachable idle state the file
holds the configuration that the history explains, memory agrees with it while
the process is up, and every further stretch of the run is accounted for. -/
theorem store_atomic_durable {cfg : ServerConfig} {token : String} {s : StoreState}
    (h : Reachable (savedRuns cfg token) s) (hIdle : s.busy = none) :
    Explains effect (firstState cfg token).config s.history s.files.target.config ∧
    (∀ p, s.mem = some p → p.server.state.config = s.files.target.config) ∧
    ∀ labels t, Runs (savedRuns cfg token) s labels t → t.busy = none → Accounts s t := by
  obtain ⟨start, labels, hStart, run⟩ := h
  let sim := Service.fineSimulation (S := service cfg) (V := saver State) (firstProcess cfg token)
    ⟨firstState cfg token, 0⟩ fun _ _ => True
  obtain ⟨m₀, hm₀, hRelated₀⟩ := sim.initial start hStart
  obtain ⟨above, m, runAbove, hRelated⟩ := sim.runs run hRelated₀
  obtain rfl : m₀ = ⟨some (firstProcess cfg token), firstState cfg token, []⟩ := hm₀
  obtain ⟨hView, extra, hHistory, hExplains, -⟩ :=
    accounts_run runAbove fun p hp => by cases hp; rfl
  have hm := abstracts_idle hRelated hIdle
  subst hm
  obtain rfl : s.history = extra := by simpa using hHistory
  refine ⟨hExplains, hView, fun labels' t run' hIdle' => ?_⟩
  obtain ⟨above', m', runAbove', hRelated'⟩ := sim.runs run' hRelated
  obtain ⟨-, extra', hHistory', hExplains', hKept⟩ := accounts_run runAbove' hView
  have hm' := abstracts_idle hRelated' hIdle'
  subst hm'
  refine ⟨extra', hHistory', hExplains', fun _ hAnswered => hExplains'.fold hAnswered,
    fun hAll => hExplains'.unchanged fun e he => ?_, hKept⟩
  obtain ⟨op, ans, hEvent, hRefused | hTelemetry⟩ := hAll e he
  · exact ⟨op, ans, hEvent, effect_refused op hRefused⟩
  · exact ⟨op, ans, hEvent, effect_telemetry hTelemetry ans⟩

def sampleSettings : Server.DeviceSettings := ⟨"gateway", 0, "http", "", "", 22⟩

/-- The cloud device is renamed, once with a save that fails at its last system
call and once with the process dying just after it. -/
def twoUpdates : List (FineLabel Op) :=
  let request : Op := .updateDevice (sampleEnv 'a' 'b') "cloud" (.ok sampleSettings)
  [.enter request] ++ List.replicate 7 (.advance true) ++ [.advance false, .reply] ++
    [.enter request] ++ List.replicate 8 (.advance true) ++ [.crash, .boot]

/-- Two updates, the second one in the file. -/
theorem store_two_updates :
    ∃ s : StoreState, s.files.target.config.devices.map DeviceConfig.name = ["gateway"] ∧
      s.history.length = 2 ∧
      Explains effect (firstState sampleConfig "").config s.history s.files.target.config := by
  have hRun : (follow ((service sampleConfig).fineStep (saver State))
      ⟨some (firstProcess sampleConfig ""), none, ⟨firstState sampleConfig "", 0⟩, []⟩
      twoUpdates).map (fun s => (s.busy.isNone, s.history.length,
        s.files.target.config.devices.map DeviceConfig.name)) = some (true, 2, ["gateway"]) := by
    decide +kernel
  obtain ⟨s, hFollow, hView⟩ := Option.map_eq_some_iff.mp hRun
  simp only [Prod.mk.injEq, Option.isNone_iff_eq_none] at hView
  obtain ⟨hIdle, hLength, hNames⟩ := hView
  have hReach : Reachable (savedRuns sampleConfig "") s := by
    refine ⟨_, twoUpdates, rfl, runs_of_follow ?_ hFollow⟩
    exact fun _ _ _ hStep => ⟨fun _ _ _ _ => trivial, hStep⟩
  exact ⟨s, hNames, hLength, (store_atomic_durable hReach hIdle).1⟩

end NetConductor
