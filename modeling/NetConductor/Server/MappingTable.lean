import NetConductor.Server.Runs

/-! The mapping table. A row is checked in one critical section and added in
another, with joins and their rollbacks in between; `forwardMu` keeps other
mapping requests away, and nobody removes a device that was there. -/
namespace NetConductor
open Durable Transition

/-- The device a mapping forwards to: the first one with its id. -/
def target (devices : List Identity) (m : Mapping) : Option Identity :=
  devices.find? fun d => d.id = m.device

theorem target_identities (s : Server) (m : Mapping) :
    target s.identities m = (s.device m.device).map Device.identity := by
  simp only [target, Server.identities, Server.device, List.find?_map, Function.comp_def]
  rfl

/-- What the checks promise of one row. -/
structure Mapping.Accepted (cfg : ServerConfig) (devices : List Identity) (m : Mapping) : Prop where
  named : m.id ≠ ""
  listenPort : 1024 ≤ m.listenPort ∧ m.listenPort ≤ 65535
  targetPort : 1 ≤ m.targetPort ∧ m.targetPort ≤ 65535
  protocol : m.protocol = "tcp" ∨ m.protocol = "udp" ∨ m.protocol = "http"
  device : ∃ d, target devices m = some d ∧ (d.ip = cfg.serverIP → m.listenPort ≠ m.targetPort)

/-- The whole table: the rows have ids of their own, and ports of their own
within UDP and within TCP and HTTP. -/
structure MappingTable (cfg : ServerConfig) (devices : List Identity) (rows : List Mapping) :
    Prop where
  ids : (rows.map Mapping.id).Nodup
  sockets : (rows.map Mapping.socket).Nodup
  accepted : ∀ m ∈ rows, m.Accepted cfg devices

/-- A device found first stays the one found when others join behind it. -/
theorem target_append {devices : List Identity} {m : Mapping} {d : Identity}
    (h : target devices m = some d) (more : List Identity) :
    target (devices ++ more) m = some d := by
  simp only [target] at h
  simp [target, List.find?_append, h]

theorem Mapping.Accepted.append {cfg : ServerConfig} {devices : List Identity} {m : Mapping}
    (h : m.Accepted cfg devices) (more : List Identity) : m.Accepted cfg (devices ++ more) := by
  obtain ⟨d, hTarget, hOwn⟩ := h.device
  exact { h with device := ⟨d, target_append hTarget more, hOwn⟩ }

theorem MappingTable.join {cfg : ServerConfig} {devices : List Identity} {rows : List Mapping}
    (h : MappingTable cfg devices rows) (more : List Identity) :
    MappingTable cfg (devices ++ more) rows :=
  { h with accepted := fun m hm => (h.accepted m hm).append more }

theorem MappingTable.sublist {cfg : ServerConfig} {devices : List Identity}
    {rows fewer : List Mapping} (h : MappingTable cfg devices rows) (hFewer : fewer.Sublist rows) :
    MappingTable cfg devices fewer where
  ids := h.ids.sublist (hFewer.map _)
  sockets := h.sockets.sublist (hFewer.map _)
  accepted m hm := h.accepted m (hFewer.subset hm)

/-- A row with an id and a socket of its own can be added. -/
theorem MappingTable.append {cfg : ServerConfig} {devices : List Identity} {rows : List Mapping}
    {m : Mapping} (h : MappingTable cfg devices rows) (hId : ∀ x ∈ rows, x.id ≠ m.id)
    (hSocket : ∀ x ∈ rows, x.socket ≠ m.socket) (hAccepted : m.Accepted cfg devices) :
    MappingTable cfg devices (rows ++ [m]) where
  ids := by
    rw [List.map_append, List.nodup_append]
    exact ⟨h.ids, by simp, by simpa using hId⟩
  sockets := by
    rw [List.map_append, List.nodup_append]
    exact ⟨h.sockets, by simp, by simpa using hSocket⟩
  accepted x hx := by
    rcases List.mem_append.mp hx with hx | hx
    · exact h.accepted x hx
    · obtain rfl := List.mem_singleton.mp hx
      exact hAccepted

/-- The error column is not looked at. -/
theorem MappingTable.map {cfg : ServerConfig} {devices : List Identity} {rows : List Mapping}
    (h : MappingTable cfg devices rows) {f : Mapping → Mapping}
    (hf : ∀ m, ∃ e, f m = { m with error := e }) : MappingTable cfg devices (rows.map f) where
  ids := by
    rw [List.map_map]
    have hId : Mapping.id ∘ f = Mapping.id := by
      funext m
      obtain ⟨e, he⟩ := hf m
      simp [he]
    rw [hId]
    exact h.ids
  sockets := by
    rw [List.map_map]
    have hSocket : Mapping.socket ∘ f = Mapping.socket := by
      funext m
      obtain ⟨e, he⟩ := hf m
      simp [he, Mapping.socket]
    rw [hSocket]
    exact h.sockets
  accepted x hx := by
    obtain ⟨m, hm, rfl⟩ := List.mem_map.mp hx
    obtain ⟨e, he⟩ := hf m
    have hOld := h.accepted m hm
    rw [he]
    exact ⟨hOld.named, hOld.listenPort, hOld.targetPort, hOld.protocol, hOld.device⟩

/-- The row that `putMapping` has checked and not yet added. -/
def Holder.pending : Holder → Option Mapping
  | .creating m | .created m _ => some m
  | .restoring _ | .marking _ _ _ => none

@[simp] theorem pending_accepted (m : Mapping) : (Holder.accepted m).pending = some m := by
  unfold Holder.accepted
  split <;> rfl

/-- What the runs keep: the table is in order, and would be with the pending row. -/
structure TableInvariant (cfg : ServerConfig) (p : Process) : Prop where
  config : p.server.cfg = cfg
  table : MappingTable cfg p.server.identities p.server.state.mappings
  pending : ∀ holder m, p.holder = some holder → holder.pending = some m →
    MappingTable cfg p.server.identities (p.server.state.mappings ++ [m])

/-- The same of a file. -/
def FileTable (cfg : ServerConfig) (st : State) : Prop :=
  MappingTable cfg (st.devices.map Device.identity) st.mappings

/-- The row that the holder of `forwardMu` has checked and not yet added. -/
def Process.ahead (p : Process) : Option Mapping := p.holder.bind Holder.pending

/-- What a critical section can make of the devices, the rows and the row ahead. -/
inductive TableMove (p : Process) : Op → List Identity → List Mapping → Option Mapping → Prop
  | stays {op : Op} {ahead : Option Mapping} (hAhead : ∀ m, ahead = some m → p.ahead = some m) :
      TableMove p op p.server.identities p.server.state.mappings ahead
  | joins {env : Env} {req : Server.JoinRequest} (ip : String) :
      TableMove p (.join env (.ok req))
        (p.server.identities ++ [(Server.joinedDevice req env ip).identity])
        p.server.state.mappings p.ahead
  | accepts {env : Env} {m : Mapping} (hId : m.id = "")
      (hValid : p.server.validateMapping m = none) :
      TableMove p (.putMapping env (.ok m)) p.server.identities p.server.state.mappings
        (some { m with id := idOf env.token, error := "" })
  | adds {op : Op} {m : Mapping} (hAhead : p.ahead = some m) :
      TableMove p op p.server.identities (p.server.state.mappings ++ [m]) none
  | deletes {op : Op} {rows : List Mapping} (hRows : rows.Sublist p.server.state.mappings) :
      TableMove p op p.server.identities rows none
  | marks {op : Op} {f : Mapping → Mapping} (hf : ∀ m, ∃ e, f m = { m with error := e }) :
      TableMove p op p.server.identities (p.server.state.mappings.map f) none

/-- The process after a critical section. -/
structure TableStep (p : Process) (op : Op) (q : Process) : Prop where
  cfg : q.server.cfg = p.server.cfg
  move : TableMove p op q.server.identities q.server.state.mappings q.ahead

/-- The state that a critical section writes. -/
def TableWrite (p : Process) (op : Op) (q : Process) : Prop :=
  ∃ ahead, TableMove p op q.server.identities q.server.state.mappings ahead

theorem TableStep.write {p q : Process} {op : Op} (h : TableStep p op q) : TableWrite p op q :=
  ⟨_, h.move⟩

namespace Process

variable {p q : Process} {op : Op} {sec : Section Process Answer}

theorem tableStep_of_eq (hCfg : q.server.cfg = p.server.cfg)
    (hDevices : q.server.identities = p.server.identities)
    (hRows : q.server.state.mappings = p.server.state.mappings)
    (hAhead : ∀ m, q.ahead = some m → p.ahead = some m) : TableStep p op q := by
  refine ⟨hCfg, ?_⟩
  rw [hDevices, hRows]
  exact .stays hAhead

theorem tableStep_of_holder (hCfg : q.server.cfg = p.server.cfg)
    (hDevices : q.server.identities = p.server.identities)
    (hRows : q.server.state.mappings = p.server.state.mappings) (hHolder : q.holder = p.holder) :
    TableStep p op q :=
  tableStep_of_eq hCfg hDevices hRows fun m hm => by rwa [ahead, hHolder] at hm

theorem tableStep_self : TableStep p op p := tableStep_of_holder rfl rfl rfl rfl

/-- A join adds a device behind the others, and a join that is undone adds none. -/
theorem join_table {env : Env} {body : Decoded Server.JoinRequest}
    (h : p.exec (.join env body) = some sec) :
    sec.Holds (TableStep p (.join env body)) (TableWrite p (.join env body)) := by
  obtain rfl := Option.some.inj h
  rw [Section.holds_map]
  rcases Server.join_cases env body p.server with ⟨status, e, wg, hJoin⟩ |
    ⟨req, plan, rfl, hPlan, hJoin⟩
  · rw [hJoin]
    exact tableStep_self
  · have hAdded : TableStep p (.join env (.ok req))
        { p with server := p.server.addDevice env (Server.joinedDevice req env plan.ip) } := by
      refine ⟨by simp, ?_⟩
      dsimp only
      rw [Server.identities_addDevice, Server.addDevice_mappings]
      exact .joins plan.ip
    rw [hJoin]
    refine ⟨hAdded.write, ⟨hAdded.cfg, hAdded.move⟩, tableStep_of_holder ?_ ?_ ?_ rfl⟩
    · simp
    · simp [Server.identities]
    · simp

/-- Only a checked row comes to be the row ahead, and only that one is added. -/
theorem putMapping_table {env : Env} {body : Decoded Mapping}
    (h : p.exec (.putMapping env body) = some sec) :
    sec.Holds (TableStep p (.putMapping env body)) (TableWrite p (.putMapping env body)) := by
  rcases putMapping_cases h with ⟨status, e, rfl⟩ | ⟨m, rfl, hId, -, hValid, rfl⟩
  · exact tableStep_self
  · refine ⟨rfl, ?_⟩
    simp only [ahead, Option.bind_some, pending_accepted]
    exact .accepts hId hValid

theorem openMapping_table {listen : Listen} (h : p.exec (.openMapping listen) = some sec) :
    sec.Holds (TableStep p (.openMapping listen)) (TableWrite p (.openMapping listen)) := by
  obtain ⟨m, hHolder, ⟨e, rfl⟩ | ⟨l, -, rfl⟩⟩ := openMapping_cases h
  · exact tableStep_of_eq rfl rfl rfl fun m' hNone => by cases hNone
  · refine tableStep_of_eq rfl rfl rfl fun m' hCreated => ?_
    simpa [ahead, hHolder, Holder.pending] using hCreated

/-- The file has the new row, and so has the table unless the file could not be
written. -/
theorem commitMapping_table {env : Env} (h : p.exec (.commitMapping env) = some sec) :
    sec.Holds (TableStep p (.commitMapping env)) (TableWrite p (.commitMapping env)) := by
  obtain ⟨m, stop, hHolder, rfl⟩ := commitMapping_cases h
  have hAhead : p.ahead = some m := by rw [ahead, hHolder]; rfl
  have hAdded : TableMove p (.commitMapping env) (p.server.addMapping env m).identities
      (p.server.addMapping env m).state.mappings none := by
    have hMove : TableMove p (.commitMapping env) p.server.identities
        (p.server.state.mappings ++ [m]) none := .adds hAhead
    simpa [Server.identities] using hMove
  refine ⟨⟨_, hAdded⟩, ⟨?_, hAdded⟩, tableStep_of_eq ?_ ?_ ?_ fun m' hNone => by cases hNone⟩
  · simp
  · simp
  · simp [Server.identities]
  · simp

/-- A deleted row is gone from the file too, unless the file could not be written. -/
theorem deleteMapping_table {env : Env} {id : String}
    (h : p.exec (.deleteMapping env id) = some sec) :
    sec.Holds (TableStep p (.deleteMapping env id)) (TableWrite p (.deleteMapping env id)) := by
  obtain ⟨hHolder, rfl | ⟨-, rfl⟩⟩ := deleteMapping_cases h
  · exact tableStep_self
  · have hNone : p.ahead = none := by rw [ahead, hHolder]; rfl
    have hFewer : TableMove p (.deleteMapping env id) (p.server.removeMapping env id).identities
        (p.server.removeMapping env id).state.mappings p.ahead := by
      have hMove : TableMove p (.deleteMapping env id) p.server.identities
          (p.server.state.mappings.eraseP fun m => m.id = id) none := .deletes List.eraseP_sublist
      rw [hNone]
      simpa [Server.identities] using hMove
    refine ⟨⟨_, hFewer⟩, ⟨?_, ?_⟩, tableStep_of_holder ?_ ?_ ?_ rfl⟩
    · simp
    · rw [ahead, stop_holder]
      exact hFewer
    · simp
    · simp [Server.identities]
    · simp

theorem restoreNext_table {listen : Listen} (h : p.exec (.restoreNext listen) = some sec) :
    sec.Holds (TableStep p (.restoreNext listen)) (TableWrite p (.restoreNext listen)) := by
  rcases restoreNext_cases h with ⟨-, rfl⟩ |
    ⟨m, todo, -, ⟨-, rfl⟩ | ⟨-, e, -, rfl⟩ | ⟨-, l, -, rfl⟩⟩ <;>
    exact tableStep_of_eq rfl rfl rfl fun m' hNone => by cases hNone

/-- The error column is not looked at. -/
theorem restoreMark_table (h : p.exec .restoreMark = some sec) :
    sec.Holds (TableStep p .restoreMark) (TableWrite p .restoreMark) := by
  obtain ⟨id, error, todo, -, rfl⟩ := restoreMark_cases h
  refine ⟨rfl, TableMove.marks fun m => ?_⟩
  split
  · exact ⟨error, rfl⟩
  · exact ⟨m.error, rfl⟩

/-- Every critical section moves the table in one of these ways. -/
theorem exec_table (h : p.exec op = some sec) : sec.Holds (TableStep p op) (TableWrite p op) := by
  by_cases hQuiet : op.quiet = true
  · have hKeeps : ∀ q, p.Quiet q → TableStep p op q := by
      rintro q ⟨s, hs, rfl⟩
      exact tableStep_of_holder hs.cfg hs.identities hs.mappings rfl
    exact (exec_quiet hQuiet h).mono hKeeps fun q hq => (hKeeps q hq).write
  cases op with
  | createCode env body =>
      obtain ⟨codes, hResult, -⟩ := Server.createCode_cases env body p.server
      obtain rfl := Option.some.inj h
      rw [Section.holds_map, hResult]
      exact tableStep_of_holder rfl rfl rfl rfl
  | join => exact join_table h
  | putMapping => exact putMapping_table h
  | openMapping => exact openMapping_table h
  | commitMapping => exact commitMapping_table h
  | deleteMapping => exact deleteMapping_table h
  | restoreMappings =>
      obtain ⟨-, -, rfl⟩ := restoreMappings_cases h
      exact tableStep_of_eq rfl rfl rfl fun m hNone => by cases hNone
  | restoreNext => exact restoreNext_table h
  | restoreMark => exact restoreMark_table h
  | heartbeat | updateDevice | putPolicy | setActive | writeProbe | saveProbe | auditSession =>
      exact absurd rfl hQuiet

end Process

theorem TableInvariant.ahead {cfg : ServerConfig} {p : Process} (h : TableInvariant cfg p)
    {m : Mapping} (hAhead : p.ahead = some m) :
    MappingTable cfg p.server.identities (p.server.state.mappings ++ [m]) := by
  obtain ⟨holder, hHolder, hPending⟩ := Option.bind_eq_some_iff.mp hAhead
  exact h.pending holder m hHolder hPending

/-- The checks of `putMapping` promise what the table needs of a new row. -/
theorem TableInvariant.accept {cfg : ServerConfig} {p : Process} (h : TableInvariant cfg p)
    {env : Env} {m : Mapping} (hToken : IsToken env.token)
    (hFresh : ∀ x ∈ p.server.state.mappings, x.id ≠ idOf env.token) (hId : m.id = "")
    (hValid : p.server.validateMapping m = none) :
    MappingTable cfg p.server.identities
      (p.server.state.mappings ++ [{ m with id := idOf env.token, error := "" }]) := by
  obtain ⟨hListen, hTarget, hProtocol, ⟨d, hDevice, hOwn⟩, hTaken⟩ :=
    Process.validateMapping_none hValid
  refine h.table.append hFresh (fun x hx => hTaken x hx ?_)
    ⟨hToken.id_ne_empty, hListen, hTarget, hProtocol, d.identity, ?_, ?_⟩
  · rw [hId]
    exact (h.table.accepted x hx).named
  · rw [target_identities (m := { m with id := idOf env.token, error := "" }), hDevice]
    rfl
  · intro hIP hSame
    exact hOwn ⟨hIP.trans (by rw [h.config]), hSame⟩

/-- No move breaks the table, nor does the row ahead. -/
theorem TableInvariant.move {cfg : ServerConfig} {p : Process} (h : TableInvariant cfg p) {op : Op}
    {devices : List Identity} {rows : List Mapping} {ahead : Option Mapping}
    (hFresh : FreshTokens p op) (hMove : TableMove p op devices rows ahead) :
    MappingTable cfg devices rows ∧ ∀ m, ahead = some m → MappingTable cfg devices (rows ++ [m]) := by
  cases hMove with
  | stays hAhead => exact ⟨h.table, fun m hm => h.ahead (hAhead m hm)⟩
  | joins ip => exact ⟨h.table.join _, fun m hm => (h.ahead hm).join _⟩
  | accepts hId hValid =>
      refine ⟨h.table, fun m hm => ?_⟩
      obtain rfl := Option.some.inj hm
      exact h.accept hFresh.1 hFresh.2 hId hValid
  | adds hAhead => exact ⟨h.ahead hAhead, fun m hm => by cases hm⟩
  | deletes hRows => exact ⟨h.table.sublist hRows, fun m hm => by cases hm⟩
  | marks hf => exact ⟨h.table.map hf, fun m hm => by cases hm⟩

/-- No request and no task breaks the table. -/
theorem table_exec {cfg : ServerConfig} {p : Process} {op : Op} {sec : Section Process Answer}
    (hFresh : FreshTokens p op) (h : TableInvariant cfg p) (hSec : p.exec op = some sec) :
    sec.Holds (TableInvariant cfg) (fun q => FileTable cfg q.server.state) := by
  refine (Process.exec_table hSec).mono (fun q hq => ?_) fun q ⟨_, hMove⟩ => (h.move hFresh hMove).1
  obtain ⟨hTable, hAhead⟩ := h.move hFresh hq.move
  refine ⟨hq.cfg.trans h.config, hTable, fun holder m hHolder hPending => hAhead m ?_⟩
  exact Option.bind_eq_some_iff.mpr ⟨holder, hHolder, hPending⟩

theorem TableInvariant.boot {cfg : ServerConfig} {st : State} (h : FileTable cfg st) :
    TableInvariant cfg (.ofServer (newServer cfg st)) :=
  ⟨rfl, h, fun holder m hHolder => by cases hHolder⟩

theorem table_first (cfg : ServerConfig) (token : String) : FileTable cfg (firstState cfg token) :=
  ⟨List.nodup_nil, List.nodup_nil, fun m hm => by cases hm⟩

theorem tableInvariant_reachable {cfg : ServerConfig} {token : String}
    {s : Machine Process State Op Answer} (h : Reachable (runs cfg token) s) {p : Process}
    (hUp : s.mem = some p) : TableInvariant cfg p :=
  (Service.invariant (I := TableInvariant cfg) (K := FileTable cfg)
    (.boot (table_first cfg token)) (table_first cfg token) (fun _ hDisk => .boot hDisk)
    (fun _ _ _ hFresh hMem hSec => table_exec hFresh hMem hSec) h).1 p hUp

/-- In every state reached from an empty state file the mapping table is in
order, whatever runs between the check of a row and its addition. -/
theorem mappingTable_reachable {cfg : ServerConfig} {token : String}
    {s : Machine Process State Op Answer} (h : Reachable (runs cfg token) s) {p : Process}
    (hUp : s.mem = some p) : MappingTable cfg p.server.identities p.server.state.mappings :=
  (tableInvariant_reachable h hUp).table

theorem mappingTable_two_rows :
    ∃ p : Process, p.server.state.mappings.map (fun m => (m.id, m.listenPort)) =
        [("aaaaaaaaaaaa", 5000), ("bbbbbbbbbbbb", 6000)] ∧
      MappingTable sampleConfig p.server.identities p.server.state.mappings := by
  obtain ⟨s, p, hReach, hUp, hRows⟩ := exists_runs sampleConfig ""
    (addition 'a' (sampleMapping 5000 80) ++ addition 'b' (sampleMapping 6000 80))
    (fun p => p.server.state.mappings.map fun m => (m.id, m.listenPort))
    [("aaaaaaaaaaaa", 5000), ("bbbbbbbbbbbb", 6000)] (by decide +kernel)
  exact ⟨p, hRows, mappingTable_reachable hReach hUp⟩

end NetConductor
