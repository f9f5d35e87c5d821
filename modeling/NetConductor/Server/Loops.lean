import NetConductor.Semantics.Cycles
import NetConductor.Server.MappingTable

/-! Mappings that lead back to the server. The check on a new row compares its
own two ports; a loop can run over several rows, or over a device that has the
server's address in another spelling. -/
namespace NetConductor
open GoNet Durable Transition Cycles Relation

/-- The port a mapping forwards to, on the target. -/
def Mapping.destination (m : Mapping) : Socket := ⟨m.protocol = "udp", m.targetPort⟩

/-- The mapping's device has the server's address. -/
def ToServer (cfg : ServerConfig) (devices : List Identity) (m : Mapping) : Prop :=
  ∃ d, target devices m = some d ∧ parseIPString d.ip = parseIPString cfg.serverIP

/-- The graph of the enabled rows that lead back to the server. -/
def Forwards (cfg : ServerConfig) (devices : List Identity) (rows : List Mapping)
    (source dest : Socket) : Prop :=
  ∃ m ∈ rows, m.enabled = true ∧ ToServer cfg devices m ∧ source = m.socket ∧ dest = m.destination

/-- No accepted request for an enabled mapping to the server has a target port
from which the rows on record lead back to its own port. -/
def ClosesNoLoop (p : Process) : Op → Prop
  | .putMapping _ (.ok m) =>
      p.server.validateMapping m = none → m.enabled = true →
      ToServer p.server.cfg p.server.identities m →
      ¬ReflTransGen (Forwards p.server.cfg p.server.identities p.server.state.mappings)
        m.destination m.socket
  | _ => True

/-- The rows of the table and the one that `putMapping` is about to add. -/
def Process.rowsAhead (p : Process) : List Mapping :=
  p.server.state.mappings ++ (p.holder.bind Holder.pending).toList

theorem Forwards.mono {cfg : ServerConfig} {devices : List Identity} {rows more : List Mapping}
    (hMore : ∀ m ∈ rows, m ∈ more) {source dest : Socket} (h : Forwards cfg devices rows source dest) :
    Forwards cfg devices more source dest := by
  obtain ⟨m, hm, hEdge⟩ := h
  exact ⟨m, hMore m hm, hEdge⟩

/-- Rows that have their device have the same edges when others join. -/
theorem Forwards.of_join {cfg : ServerConfig} {devices more : List Identity} {rows : List Mapping}
    (hAccepted : ∀ m ∈ rows, m.Accepted cfg devices) {source dest : Socket}
    (h : Forwards cfg (devices ++ more) rows source dest) :
    Forwards cfg devices rows source dest := by
  obtain ⟨m, hm, hEnabled, ⟨d, hTarget, hIP⟩, hEdge⟩ := h
  obtain ⟨d', hTarget', -⟩ := (hAccepted m hm).device
  cases (target_append hTarget' more).symm.trans hTarget
  exact ⟨m, hm, hEnabled, ⟨d, hTarget', hIP⟩, hEdge⟩

/-- A row that closes no loop keeps the graph free of loops. -/
theorem acyclic_add {cfg : ServerConfig} {devices : List Identity} {rows : List Mapping}
    (h : Acyclic (Forwards cfg devices rows)) {m : Mapping}
    (hBack : m.enabled = true → ToServer cfg devices m →
      ¬ReflTransGen (Forwards cfg devices rows) m.destination m.socket) :
    Acyclic (Forwards cfg devices (rows ++ [m])) := by
  by_cases hEdge : m.enabled = true ∧ ToServer cfg devices m
  · refine (h.addEdge (hBack hEdge.1 hEdge.2)).mono fun source dest hForwards => ?_
    obtain ⟨x, hx, hRest⟩ := hForwards
    rcases List.mem_append.mp hx with hx | hx
    · exact .inl ⟨x, hx, hRest⟩
    · obtain rfl := List.mem_singleton.mp hx
      exact .inr ⟨hRest.2.2.1, hRest.2.2.2⟩
  · refine h.mono fun source dest hForwards => ?_
    obtain ⟨x, hx, hEnabled, hServer, hRest⟩ := hForwards
    rcases List.mem_append.mp hx with hx | hx
    · exact ⟨x, hx, hEnabled, hServer, hRest⟩
    · obtain rfl := List.mem_singleton.mp hx
      exact absurd ⟨hEnabled, hServer⟩ hEdge

/-- What the runs keep: no loop, the pending row included. -/
def LoopFree (cfg : ServerConfig) (p : Process) : Prop :=
  Acyclic (Forwards cfg p.server.identities p.rowsAhead)

def FileLoopFree (cfg : ServerConfig) (st : State) : Prop :=
  Acyclic (Forwards cfg (st.devices.map Device.identity) st.mappings)

theorem LoopFree.table {cfg : ServerConfig} {p : Process} (h : LoopFree cfg p) :
    Acyclic (Forwards cfg p.server.identities p.server.state.mappings) :=
  Acyclic.mono h fun _ _ => Forwards.mono fun _ hm => List.mem_append_left _ hm

theorem TableInvariant.ahead_accepted {cfg : ServerConfig} {p : Process}
    (h : TableInvariant cfg p) : ∀ m ∈ p.rowsAhead, m.Accepted cfg p.server.identities := by
  intro m hm
  rcases List.mem_append.mp hm with hm | hm
  · exact h.table.accepted m hm
  · obtain ⟨holder, hHolder, hPending⟩ := Option.bind_eq_some_iff.mp (Option.mem_toList.mp hm)
    exact (h.pending holder m hHolder hPending).accepted m (by simp)

/-- No move closes a loop, with requests as the condition says. -/
theorem LoopFree.move {cfg : ServerConfig} {p : Process} (h : LoopFree cfg p) {op : Op}
    {devices : List Identity} {rows : List Mapping} {ahead : Option Mapping}
    (hGuard : ClosesNoLoop p op) (hTable : TableInvariant cfg p)
    (hMove : TableMove p op devices rows ahead) :
    Acyclic (Forwards cfg devices (rows ++ ahead.toList)) := by
  cases hMove with
  | stays hAhead =>
      refine Acyclic.mono h fun _ _ => Forwards.mono fun m hm => ?_
      rcases List.mem_append.mp hm with hm | hm
      · exact List.mem_append_left _ hm
      · exact List.mem_append_right _ (Option.mem_toList.mpr (hAhead m (Option.mem_toList.mp hm)))
  | joins ip => exact Acyclic.mono h fun _ _ => Forwards.of_join hTable.ahead_accepted
  | accepts hId hValid =>
      simp only [ClosesNoLoop, hTable.config] at hGuard
      exact acyclic_add h.table (hGuard hValid)
  | adds hAhead =>
      have hAdded : Acyclic (Forwards cfg p.server.identities
          (p.server.state.mappings ++ p.ahead.toList)) := h
      rw [hAhead] at hAdded
      simpa using hAdded
  | deletes hRows =>
      exact Acyclic.mono h.table fun _ _ => Forwards.mono fun m hm => hRows.subset (by simpa using hm)
  | marks hf =>
      -- the mark is no part of an edge
      refine Acyclic.mono h.table fun source dest ⟨x, hx, hRest⟩ => ?_
      rw [Option.toList_none, List.append_nil] at hx
      obtain ⟨m, hm, rfl⟩ := List.mem_map.mp hx
      obtain ⟨e, he⟩ := hf m
      rw [he] at hRest
      exact ⟨m, hm, hRest⟩

/-- No request and no task closes a loop, with requests as the condition says. -/
theorem loopFree_exec {cfg : ServerConfig} {p : Process} {op : Op} {sec : Section Process Answer}
    (hGuard : ClosesNoLoop p op) (hTable : TableInvariant cfg p) (h : LoopFree cfg p)
    (hSec : p.exec op = some sec) :
    sec.Holds (LoopFree cfg) (fun q => FileLoopFree cfg q.server.state) :=
  (Process.exec_table hSec).mono (fun _ hq => h.move hGuard hTable hq.move) fun _ ⟨_, hMove⟩ =>
    Acyclic.mono (h.move hGuard hTable hMove) fun _ _ =>
      Forwards.mono fun _ hm => List.mem_append_left _ hm

theorem LoopFree.boot {cfg : ServerConfig} {st : State} (h : FileLoopFree cfg st) :
    LoopFree cfg (.ofServer (newServer cfg st)) := by
  simpa [LoopFree, FileLoopFree, Process.rowsAhead, Process.ofServer, newServer,
    Server.identities] using h

theorem loopFree_first (cfg : ServerConfig) (token : String) :
    FileLoopFree cfg (firstState cfg token) :=
  acyclic_of_empty fun _ _ ⟨_, hm, _⟩ => by cases hm

/-- In every run in which no accepted mapping closes a path of enabled mappings
to the server, the server forwards nothing back to itself for ever. -/
theorem noLoop_reachable {cfg : ServerConfig} {token : String}
    {s : Machine Process State Op Answer}
    (h : Reachable (runsWhere cfg token ClosesNoLoop) s) {p : Process} (hUp : s.mem = some p) :
    Acyclic (Forwards cfg p.server.identities p.server.state.mappings) := by
  have hInvariant := Service.invariant
    (I := fun p => TableInvariant cfg p ∧ LoopFree cfg p)
    (K := fun st => FileTable cfg st ∧ FileLoopFree cfg st)
    ⟨.boot (table_first cfg token), .boot (loopFree_first cfg token)⟩
    ⟨table_first cfg token, loopFree_first cfg token⟩
    (fun _ hFile => ⟨.boot hFile.1, .boot hFile.2⟩)
    (fun _ _ _ hAllowed hMem hSec => (table_exec hAllowed.1 hMem.1 hSec).and
      (loopFree_exec hAllowed.2 hMem.1 hMem.2 hSec)) h
  exact (hInvariant.1 p hUp).2.table

/-- A check that looks at the whole table: no row listens on the new row's
target port, and the row itself does not. -/
def TargetUnused (p : Process) : Op → Prop
  | .putMapping _ (.ok m) =>
      m.socket ≠ m.destination ∧ ∀ x ∈ p.server.state.mappings, x.socket ≠ m.destination
  | _ => True

instance (p : Process) (op : Op) : Decidable (TargetUnused p op) := by
  unfold TargetUnused
  split <;> infer_instance

/-- That check is enough. -/
theorem TargetUnused.closesNoLoop {p : Process} {op : Op} (h : TargetUnused p op) :
    ClosesNoLoop p op := by
  unfold TargetUnused at h
  unfold ClosesNoLoop
  split at h
  · intro _ _ _ hPath
    rcases hPath.cases_head with hSame | ⟨next, ⟨x, hx, -, -, hSource, -⟩, -⟩
    · exact h.1 hSame.symm
    · exact h.2 x hx hSource.symm
  · trivial

/-- Two rows one behind the other, which lead nowhere. -/
theorem noLoop_chain :
    ∃ p : Process, p.server.state.mappings.map (fun m => (m.listenPort, m.targetPort)) =
        [(5000, 6000), (6000, 80)] ∧
      Acyclic (Forwards sampleConfig p.server.identities p.server.state.mappings) := by
  obtain ⟨s, p, hReach, hUp, hRows⟩ := exists_runsWhere sampleConfig "" TargetUnused
    (addition 'a' (sampleMapping 5000 6000) ++ addition 'b' (sampleMapping 6000 80))
    (fun p => p.server.state.mappings.map fun m => (m.listenPort, m.targetPort))
    [(5000, 6000), (6000, 80)] (by decide +kernel)
  have hRun := Service.reachable_mono (fun p op hAllowed =>
    (⟨hAllowed.1, TargetUnused.closesNoLoop hAllowed.2⟩ : FreshTokens p op ∧ ClosesNoLoop p op))
    hReach
  exact ⟨p, hRows, noLoop_reachable hRun hUp⟩

/-- Two rows of the server that forward to each other pass the check one after
the other. -/
theorem two_rows_loop :
    ¬∀ (cfg : ServerConfig) (token : String) (s : Machine Process State Op Answer) (p : Process),
      cfg.mapBind = "0.0.0.0" → Reachable (runs cfg token) s → s.mem = some p →
      Acyclic (Forwards cfg p.server.identities p.server.state.mappings) := by
  intro hAll
  let rows : List Mapping :=
    [{ sampleMapping 5000 6000 with id := "aaaaaaaaaaaa" },
     { sampleMapping 6000 5000 with id := "bbbbbbbbbbbb" }]
  obtain ⟨s, p, hReach, hUp, hView⟩ := exists_runs sampleConfig ""
    (addition 'a' (sampleMapping 5000 6000) ++ addition 'b' (sampleMapping 6000 5000))
    (fun p => (p.server.identities, p.server.state.mappings))
    ([cloudIdentity sampleConfig], rows) (by decide +kernel)
  simp only [Prod.mk.injEq] at hView
  have hAcyclic := hAll sampleConfig "" s p rfl hReach hUp
  rw [hView.1, hView.2] at hAcyclic
  have hServer : ∀ m : Mapping, m.device = "cloud" → ToServer sampleConfig [cloudIdentity sampleConfig] m :=
    fun m hm => ⟨cloudIdentity sampleConfig, by simp [target, hm, cloudIdentity], rfl⟩
  refine hAcyclic ⟨false, 5000⟩ (.tail (.single ?_ : TransGen _ _ ⟨false, 6000⟩) ?_)
  · exact ⟨_, List.mem_cons_self, rfl, hServer _ rfl, rfl, rfl⟩
  · exact ⟨_, List.mem_cons_of_mem _ List.mem_cons_self, rfl, hServer _ rfl, rfl, rfl⟩

end NetConductor
