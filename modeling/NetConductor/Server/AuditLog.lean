import NetConductor.Server.Runs
import Mathlib.Data.List.DropRight

/-! The audit log against what happened: a handler adds its line before the save
that decides whether the request takes effect. -/
namespace NetConductor
open Durable Transition

/-- The line of a request or task that has taken effect. -/
def logged : Event Op Answer → Option LogEvent
  | .answered (.join env _) ⟨.json (.joined d _ _ _ _ _), _⟩ => some ⟨env.now, "device.join", d.name⟩
  | .answered (.updateDevice env _ (.ok v)) ⟨.json .ok, _⟩ => some ⟨env.now, "device.update", v.name⟩
  | .answered (.putPolicy env _ _) ⟨.json (.policy p), _⟩ => some ⟨env.now, "policy.update", p.source⟩
  | .answered (.commitMapping env) ⟨.json (.mapping m), _⟩ => some ⟨env.now, "mapping.create", m.name⟩
  | .answered (.deleteMapping env id) ⟨.json .ok, _⟩ => some ⟨env.now, "mapping.delete", id⟩
  -- a session opens or closes whatever becomes of the save
  | .answered (.auditSession env action detail) _ => some ⟨env.now, action, detail⟩
  | _ => none

/-- The five handlers that answer with an error when their save fails. -/
def Op.undone : Op → Bool
  | .join .. | .updateDevice .. | .putPolicy .. | .commitMapping .. | .deleteMapping .. => true
  | _ => false

/-- None of these handlers comes to a save that fails. -/
def SaveSucceeds (s : Machine Process State Op Answer) (op : Op) (saved : Bool) : Prop :=
  op.undone = true → ∀ p ∈ s.mem, ∀ mem yes no, p.exec op = some (.persist mem yes no) → saved = true

/-- All runs of one process from the memory it starts with. -/
def liveRuns (cfg : ServerConfig) (start : Process)
    (allowed : Machine Process State Op Answer → Op → Bool → Prop) :
    System (Machine Process State Op Answer) (Label Op) where
  initial s := s = ⟨some start, start.server.state, []⟩
  step s l t := (∃ op saved, l = .run op saved ∧ allowed s op saved) ∧ (service cfg).step s l = some t

namespace Server

/-- Cutting the log twice is cutting it once. -/
theorem recent_append_recent (events : List LogEvent) (e : LogEvent) :
    recent (recent events ++ [e]) = recent (events ++ [e]) := by
  have hOld : recent events ++ [e] = (events ++ [e]).drop (events.length - 200) := by
    rw [recent, List.drop_append_of_le_length (by omega)]
  have hLength : ((events ++ [e]).drop (events.length - 200)).length =
      events.length + 1 - (events.length - 200) := by
    rw [List.length_drop, List.length_append, List.length_singleton]
  have hStart : events.length - 200 + (events.length + 1 - (events.length - 200) - 200) =
      events.length + 1 - 200 := by omega
  rw [hOld, recent, hLength, List.drop_drop, hStart, recent, List.length_append,
    List.length_singleton]

theorem recent_of_le {events : List LogEvent} (h : events.length ≤ 200) : recent events = events := by
  rw [recent, Nat.sub_eq_zero_of_le h, List.drop_zero]

end Server

theorem audit_events (s : Server) (now : Time) (action detail : String) :
    (s.audit now action detail).state.events =
      Server.recent (s.state.events ++ [⟨now, action, detail⟩]) := by rw [Server.audit]

theorem addDevice_events (env : Env) (d : Device) (s : Server) :
    (s.addDevice env d).state.events =
      Server.recent (s.state.events ++ [⟨env.now, "device.join", d.name⟩]) := by
  rw [Server.addDevice, audit_events]

theorem addMapping_events (env : Env) (m : Mapping) (s : Server) :
    (s.addMapping env m).state.events =
      Server.recent (s.state.events ++ [⟨env.now, "mapping.create", m.name⟩]) := by
  rw [Server.addMapping, audit_events]

theorem removeMapping_events (env : Env) (id : String) (s : Server) :
    (s.removeMapping env id).state.events =
      Server.recent (s.state.events ++ [⟨env.now, "mapping.delete", id⟩]) := by
  rw [Server.removeMapping, audit_events]

/-- The log after a line that may have been added. -/
def withLine (events : List LogEvent) : Option LogEvent → List LogEvent
  | none => events
  | some e => Server.recent (events ++ [e])

/-- A new line drops at most the oldest one. -/
theorem withLine_recent (events : List LogEvent) (line : Option LogEvent) :
    withLine (Server.recent events) line = Server.recent (events ++ line.toList) := by
  cases line with
  | none => rw [withLine, Option.toList_none, List.append_nil]
  | some e => exact Server.recent_append_recent events e

/-- A heartbeat writes nothing into the log. -/
theorem heartbeat_events (env : Env) (authorization : String)
    (body : Decoded Server.HeartbeatRequest) (s : Server) (saved : Bool) :
    ((s.heartbeat env authorization body).result saved).1.state.events = s.state.events := by
  rcases Server.heartbeat_cases env authorization body s with ⟨status, e, hBeat⟩ |
    ⟨v, d, ans, -, -, -, -, ⟨-, hBeat⟩ | ⟨-, hBeat⟩⟩
  · rw [hBeat]
    rfl
  · rw [hBeat]
    cases saved <;> rfl
  · rw [hBeat]
    rfl

theorem join_events (env : Env) (body : Decoded Server.JoinRequest) (s : Server) {saved : Bool}
    (hSaved : ∀ mem yes no, s.join env body = .persist mem yes no → saved = true) :
    ((s.join env body).result saved).1.state.events =
      withLine s.state.events
        (logged (.answered (.join env body) ((s.join env body).result saved).2)) := by
  rcases Server.join_cases env body s with ⟨status, e, wg, hJoin⟩ | ⟨req, plan, rfl, hPlan, hJoin⟩
  · rw [hJoin]
    rfl
  · rw [hJoin] at hSaved ⊢
    rw [hSaved _ _ _ rfl]
    exact addDevice_events env (Server.joinedDevice req env plan.ip) s

theorem updateDevice_events (env : Env) (id : String) (body : Decoded Server.DeviceSettings)
    (s : Server) {saved : Bool}
    (hSaved : ∀ mem yes no, s.updateDevice env id body = .persist mem yes no → saved = true) :
    ((s.updateDevice env id body).result saved).1.state.events =
      withLine s.state.events
        (logged (.answered (.updateDevice env id body)
          ((s.updateDevice env id body).result saved).2)) := by
  rcases Server.updateDevice_cases env id body s with ⟨status, e, hUpdate⟩ |
    ⟨v, old, rfl, -, -, hUpdate⟩
  · rw [hUpdate]
    cases body <;> rfl
  · rw [hUpdate] at hSaved ⊢
    rw [hSaved _ _ _ rfl]
    exact audit_events _ _ _ _

theorem putPolicy_events (env : Env) (id : String) (body : Decoded Policy) (s : Server)
    {saved : Bool}
    (hSaved : ∀ mem yes no, s.putPolicy env id body = .persist mem yes no → saved = true) :
    ((s.putPolicy env id body).result saved).1.state.events =
      withLine s.state.events
        (logged (.answered (.putPolicy env id body) ((s.putPolicy env id body).result saved).2)) := by
  rcases Server.putPolicy_cases env id body s with ⟨status, e, hPut⟩ |
    ⟨v, rfl, -, -, -, -, hPut⟩
  · rw [hPut]
    rfl
  · rw [hPut] at hSaved ⊢
    rw [hSaved _ _ _ rfl]
    exact audit_events _ _ _ _

/-- The server saves when the whole process does. -/
theorem saved_of_map {f : Server → Process} {sec : Section Server Answer} {saved : Bool}
    (h : ∀ mem yes no, sec.map f = .persist mem yes no → saved = true) :
    ∀ mem yes no, sec = .persist mem yes no → saved = true := by
  rintro _ _ _ rfl
  exact h _ _ _ rfl

/-- What one request or task does to the log: it adds its line when it takes
effect, and otherwise nothing, unless its save fails. -/
theorem exec_events {p : Process} {op : Op} {sec : Section Process Answer} {saved : Bool}
    (hSec : p.exec op = some sec)
    (hSaved : op.undone = true → ∀ mem yes no, sec = .persist mem yes no → saved = true) :
    (sec.result saved).1.server.state.events =
      withLine p.server.state.events (logged (.answered op (sec.result saved).2)) := by
  cases op with
  | createCode env body =>
      obtain ⟨codes, hResult, -⟩ := Server.createCode_cases env body p.server
      obtain rfl := Option.some.inj hSec
      rw [Section.result_map, hResult]
      rfl
  | join env body =>
      obtain rfl := Option.some.inj hSec
      rw [Section.result_map]
      exact join_events env body p.server (saved_of_map (hSaved rfl))
  | heartbeat env authorization body =>
      obtain rfl := Option.some.inj hSec
      rw [Section.result_map]
      exact heartbeat_events env authorization body p.server saved
  | updateDevice env id body =>
      obtain rfl := Option.some.inj hSec
      rw [Section.result_map]
      exact updateDevice_events env id body p.server (saved_of_map (hSaved rfl))
  | putPolicy env id body =>
      obtain rfl := Option.some.inj hSec
      rw [Section.result_map]
      exact putPolicy_events env id body p.server (saved_of_map (hSaved rfl))
  | commitMapping env =>
      obtain ⟨m, stop, -, rfl⟩ := Process.commitMapping_cases hSec
      rw [hSaved rfl _ _ _ rfl]
      exact addMapping_events env m p.server
  | deleteMapping env id =>
      obtain ⟨-, rfl | ⟨-, rfl⟩⟩ := Process.deleteMapping_cases hSec
      · rfl
      · rw [hSaved rfl _ _ _ rfl]
        exact removeMapping_events env id p.server
  | auditSession env action detail =>
      obtain rfl := Option.some.inj hSec
      cases saved <;> exact audit_events p.server env.now action detail
  | saveProbe =>
      obtain rfl := Option.some.inj hSec
      cases saved <;> rfl
  | setActive id active =>
      obtain rfl := Option.some.inj hSec
      rfl
  | writeProbe id result =>
      obtain rfl := Option.some.inj hSec
      rfl
  | putMapping env body =>
      rcases Process.putMapping_cases hSec with ⟨status, e, rfl⟩ | ⟨m, -, -, -, -, rfl⟩ <;> rfl
  | openMapping listen =>
      obtain ⟨m, -, ⟨e, rfl⟩ | ⟨l, -, rfl⟩⟩ := Process.openMapping_cases hSec <;> rfl
  | restoreMappings =>
      obtain ⟨-, -, rfl⟩ := Process.restoreMappings_cases hSec
      rfl
  | restoreNext listen =>
      rcases Process.restoreNext_cases hSec with ⟨-, rfl⟩ |
        ⟨m, todo, -, ⟨-, rfl⟩ | ⟨-, e, -, rfl⟩ | ⟨-, l, -, rfl⟩⟩ <;> rfl
  | restoreMark =>
      obtain ⟨id, error, todo, -, rfl⟩ := Process.restoreMark_cases hSec
      rfl

/-- The lines of everything that has taken effect, in order. -/
def happened (start : Process) (history : List (Event Op Answer)) : List LogEvent :=
  start.server.state.events ++ history.filterMap logged

theorem happened_append (start : Process) (history : List (Event Op Answer)) (e : Event Op Answer) :
    happened start (history ++ [e]) = happened start history ++ (logged e).toList := by
  simp only [happened, List.filterMap_append, List.append_assoc]
  cases hLine : logged e <;> simp [hLine]

/-- In every run in which no save of the five handlers fails, the log of every
reachable state is the end of what has happened. -/
theorem auditLog_exact {cfg : ServerConfig} {start : Process}
    (hStart : start.server.state.events.length ≤ 200) {s : Machine Process State Op Answer}
    (h : Reachable (liveRuns cfg start SaveSucceeds) s) {p : Process} (hUp : s.mem = some p) :
    p.server.state.events = (happened start s.history).rtake 200 := by
  have hInvariant : ∀ p, s.mem = some p →
      p.server.state.events = Server.recent (happened start s.history) := by
    refine Reachable.invariant (I := fun s : Machine Process State Op Answer => ∀ p, s.mem = some p →
      p.server.state.events = Server.recent (happened start s.history)) ?_ ?_ h
    · intro s hs p hp
      subst hs
      obtain rfl := Option.some.inj hp
      rw [happened, List.filterMap_nil, List.append_nil, Server.recent_of_le hStart]
    · intro s l t hMem hStep q hq
      obtain ⟨⟨op, saved, rfl, hAllowed⟩, hRun⟩ := hStep
      rcases Service.step_cases hRun with ⟨op', saved', p, sec, hLabel, hp, hSec, rfl⟩ |
        ⟨p, hLabel, -⟩ | ⟨op', renamed, p, sec, hLabel, -⟩ | ⟨hLabel, -⟩
      · obtain ⟨rfl, rfl⟩ := Label.run.inj hLabel
        obtain rfl := Option.some.inj hq
        rw [happened_append, ← withLine_recent, ← hMem p hp]
        exact exec_events hSec fun hUndone mem yes no hPersist =>
          hAllowed hUndone p hp mem yes no (hPersist ▸ hSec)
      all_goals cases hLabel
  exact hInvariant p hUp

/-- One request to a process that has just started, with the log afterwards and
the log that there should be. -/
theorem exists_liveRun (cfg : ServerConfig) (start : Process)
    (allowed : Machine Process State Op Answer → Op → Bool → Prop) (op : Op) (saved : Bool)
    (actual expected : List LogEvent) (hAllowed : ∀ s, allowed s op saved)
    (h : (((service cfg).step ⟨some start, start.server.state, []⟩ (.run op saved)).bind fun t =>
      t.mem.map fun p => (p.server.state.events, happened start t.history)) =
        some (actual, expected)) :
    ∃ t p, Reachable (liveRuns cfg start allowed) t ∧ t.mem = some p ∧
      p.server.state.events = actual ∧ happened start t.history = expected := by
  obtain ⟨t, hStep, hView⟩ := Option.bind_eq_some_iff.mp h
  obtain ⟨p, hUp, hLogs⟩ := Option.map_eq_some_iff.mp hView
  obtain ⟨hActual, hExpected⟩ := Prod.mk.inj hLogs
  exact ⟨t, p, (Reachable.initial rfl).next ⟨⟨op, saved, rfl, hAllowed _⟩, hStep⟩, hUp, hActual,
    hExpected⟩

/-- The server renames its own device. -/
def rename : Op := .updateDevice (sampleEnv 'a' 'b') "cloud" (.ok ⟨"hub", 0, "http", "", "", 22⟩)

theorem auditLog_renamed :
    ∃ p : Process, p.server.state.events = [⟨0, "device.update", "hub"⟩] ∧
      p.server.state.events = ([⟨0, "device.update", "hub"⟩] : List LogEvent).rtake 200 := by
  obtain ⟨t, p, hReach, hUp, hActual, hExpected⟩ :=
    exists_liveRun sampleConfig (firstProcess sampleConfig "") SaveSucceeds rename true
      [⟨0, "device.update", "hub"⟩] [⟨0, "device.update", "hub"⟩] (fun _ _ _ _ _ _ _ _ => rfl)
      (by decide +kernel)
  exact ⟨p, hActual, hExpected ▸ auditLog_exact (by decide) hReach hUp⟩

/-- The line of a change that could not be saved stays in the log. -/
theorem line_of_failed_update :
    ¬∀ (cfg : ServerConfig) (start : Process) (s : Machine Process State Op Answer) (p : Process),
      start.server.state.events.length ≤ 200 → Reachable (liveRuns cfg start fun _ _ _ => True) s →
      s.mem = some p → p.server.state.events = (happened start s.history).rtake 200 := by
  intro hAll
  obtain ⟨t, p, hReach, hUp, hActual, hExpected⟩ :=
    exists_liveRun sampleConfig (firstProcess sampleConfig "") (fun _ _ _ => True) rename false
      [⟨0, "device.update", "hub"⟩] [] (fun _ => trivial) (by decide +kernel)
  have hLog := hAll sampleConfig _ t p (by decide) hReach hUp
  rw [hActual, hExpected] at hLog
  cases hLog

end NetConductor
