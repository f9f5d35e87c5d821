import NetConductor.Server.Enrollment

/-! Port mappings. The handlers hold `forwardMu` from the first check to the
reply and take the state's mutex only in between, so other requests run between
their critical sections; here each critical section is a definition of its own. -/
namespace NetConductor
open GoText GoNet Durable

/-- The text of an error of package `net`, which is never empty. -/
abbrev ErrorText := { text : String // text ≠ "" }

/-- What the operating system answers when a port is to be opened: why it
refuses to, if it does, and what it says about a port this process has open. -/
structure Listen where
  refused : Option ErrorText
  inUse : ErrorText
deriving DecidableEq

/-- A running listener and the address it forwards to. -/
structure Listener where
  socket : Socket
  target : String
deriving DecidableEq

/-- The request that holds `forwardMu`, and how far it has come: `putMapping`
before and after it opens the port, `restoreMappings` with the rows of its copy
still to do, and the same on its way to record why a row did not start. -/
inductive Holder where
  | creating (m : Mapping)
  | created (m : Mapping) (stop : Option Socket)
  | restoring (todo : List Mapping)
  | marking (id error : String) (todo : List Mapping)
deriving DecidableEq

/-- A mapping that has passed the checks opens its port first when it is
enabled. -/
def Holder.accepted (m : Mapping) : Holder := if m.enabled then .creating m else .created m none

/-- The server process: `listeners` is what it has open, `restored` tells
whether `Run` has called `restoreMappings` yet. -/
structure Process where
  server : Server
  listeners : List Listener
  holder : Option Holder
  restored : Bool

/-- `strings.ContainsAny`. -/
def containsAny (s chars : String) : Bool := s.toList.any fun c => chars.toList.contains c

def Mapping.socket (m : Mapping) : Socket := ⟨m.protocol = "udp", m.listenPort⟩

namespace Server

/-- The error of `validateMapping`, if any. -/
def validateMapping (m : Mapping) (s : Server) : Option String :=
  if m.listenPort < 1024 || !port m.listenPort || !port m.targetPort ||
      m.name.utf8ByteSize < 1 || 80 < m.name.utf8ByteSize then
    some "端口范围或名称不合法"
  else if m.protocol ≠ "tcp" ∧ m.protocol ≠ "udp" ∧ m.protocol ≠ "http" then
    some "仅支持 TCP、UDP、HTTP"
  else if containsAny m.domain "/\\\r\n :" || 253 < m.domain.utf8ByteSize then some "域名不合法"
  else match s.device m.device with
    | none => some "目标设备不存在"
    | some d =>
        if d.ip = s.cfg.serverIP ∧ m.listenPort = m.targetPort then
          some "映射不能转回自己的监听端口"
        else if s.state.mappings.any fun x => x.id ≠ m.id && decide (x.socket = m.socket) then
          some "监听端口已分配"
        else none

def addMapping (env : Env) (m : Mapping) (s : Server) : Server :=
  ({ s with state.mappings := s.state.mappings ++ [m] }).audit env.now "mapping.create" m.name

def removeMapping (env : Env) (id : String) (s : Server) : Server :=
  ({ s with state.mappings := s.state.mappings.eraseP fun m => m.id = id }).audit env.now
    "mapping.delete" id

@[simp] theorem addMapping_devices (env : Env) (m : Mapping) (s : Server) :
    (s.addMapping env m).state.devices = s.state.devices := by simp [addMapping]
@[simp] theorem addMapping_policies (env : Env) (m : Mapping) (s : Server) :
    (s.addMapping env m).state.policies = s.state.policies := by simp [addMapping]
@[simp] theorem addMapping_mappings (env : Env) (m : Mapping) (s : Server) :
    (s.addMapping env m).state.mappings = s.state.mappings ++ [m] := by simp [addMapping]
@[simp] theorem addMapping_cfg (env : Env) (m : Mapping) (s : Server) :
    (s.addMapping env m).cfg = s.cfg := by simp [addMapping]
@[simp] theorem addMapping_codes (env : Env) (m : Mapping) (s : Server) :
    (s.addMapping env m).codes = s.codes := by simp [addMapping]
@[simp] theorem addMapping_forwards (env : Env) (m : Mapping) (s : Server) :
    (s.addMapping env m).forwards = s.forwards := by simp [addMapping]

@[simp] theorem removeMapping_devices (env : Env) (id : String) (s : Server) :
    (s.removeMapping env id).state.devices = s.state.devices := by simp [removeMapping]
@[simp] theorem removeMapping_policies (env : Env) (id : String) (s : Server) :
    (s.removeMapping env id).state.policies = s.state.policies := by simp [removeMapping]
@[simp] theorem removeMapping_mappings (env : Env) (id : String) (s : Server) :
    (s.removeMapping env id).state.mappings =
      s.state.mappings.eraseP fun m => m.id = id := by simp [removeMapping]
@[simp] theorem removeMapping_cfg (env : Env) (id : String) (s : Server) :
    (s.removeMapping env id).cfg = s.cfg := by simp [removeMapping]
@[simp] theorem removeMapping_codes (env : Env) (id : String) (s : Server) :
    (s.removeMapping env id).codes = s.codes := by simp [removeMapping]
@[simp] theorem removeMapping_forwards (env : Env) (id : String) (s : Server) :
    (s.removeMapping env id).forwards = s.forwards := by simp [removeMapping]

/-- Every row of the id gets the error; ids are not repeated. -/
def markMapping (id error : String) (s : Server) : Server :=
  { s with state.mappings := s.state.mappings.map fun m =>
      if m.id = id then { m with error := error } else m }

end Server

namespace Process

def ofServer (s : Server) : Process := ⟨s, [], none, false⟩

/-- Why the port of a mapping cannot be opened, if so: the process cannot open
one twice. -/
def refusal (listen : Listen) (m : Mapping) (p : Process) : Option ErrorText :=
  if p.listeners.any fun l => l.socket = m.socket then some listen.inUse else listen.refused

/-- `startUDP` passes the error on, the TCP listener has a text of its own. -/
def listenError (m : Mapping) (e : ErrorText) : String :=
  if m.protocol = "udp" then e.val else "端口监听失败：端口已占用或无权限"

def startMapping (listen : Listen) (m : Mapping) (p : Process) : Except String Listener :=
  match p.server.device m.device with
  | none => .error "target missing"
  | some d =>
      match p.refusal listen m with
      | some e => .error (listenError m e)
      | none => .ok ⟨m.socket, hostPort d.ip m.targetPort⟩

/-- Call a stop function, if there is one. -/
def stop (p : Process) : Option Socket → Process
  | none => p
  | some socket => { p with listeners := p.listeners.filter fun l => l.socket ≠ socket }

@[simp] theorem stop_server (p : Process) (socket : Option Socket) :
    (p.stop socket).server = p.server := by cases socket <;> rfl
@[simp] theorem stop_restored (p : Process) (socket : Option Socket) :
    (p.stop socket).restored = p.restored := by cases socket <;> rfl
@[simp] theorem stop_holder (p : Process) (socket : Option Socket) :
    (p.stop socket).holder = p.holder := by cases socket <;> rfl

/-- `forwards` after a start: the stop function is registered, if there is one. -/
def registered (forwards : GoMap Socket) (id : String) : Option Socket → GoMap Socket
  | none => forwards
  | some socket => forwards.insert id socket

/-! ### Adding a mapping -/

/-- Up to the checks. `none` while another request holds `forwardMu`. -/
def putMapping (env : Env) (body : Decoded Mapping) (p : Process) :
    Option (Section Process Answer) :=
  match body with
  | .error e => some (.answer p ⟨.fail 400 e, []⟩)
  | .ok m =>
      if m.id ≠ "" then some (.answer p ⟨.fail 400 "请删除旧映射后新建", []⟩)
      else if p.holder.isSome then none
      else match p.server.validateMapping m with
        | some e => some (.answer p ⟨.fail 400 e, []⟩)
        | none =>
            let m := { m with id := idOf env.token, error := "" }
            some (.answer { p with holder := some (.accepted m) } ⟨.done, []⟩)

/-- `startMapping` on the way of `putMapping`. -/
def openMapping (listen : Listen) (p : Process) : Option (Section Process Answer) :=
  match p.holder with
  | some (.creating m) =>
      match p.startMapping listen m with
      | .error e => some (.answer { p with holder := none } ⟨.fail 409 e, []⟩)
      | .ok l =>
          some (.answer { p with listeners := l :: p.listeners
                                 holder := some (.created m (some l.socket)) } ⟨.done, []⟩)
  | _ => none

/-- The end of `putMapping`. What follows the save (the stop function or its
entry in `forwards`) still happens under `forwardMu`. -/
def commitMapping (env : Env) (p : Process) : Option (Section Process Answer) :=
  match p.holder with
  | some (.created m stop) =>
      let s := p.server.addMapping env m
      some (.persist { p with server := s }
        ({ p with server := { s with forwards := registered s.forwards m.id stop }
                  holder := none },
          ⟨.json (.mapping m), []⟩)
        ({ p.stop stop with server := { s with state.mappings := s.state.mappings.dropLast }
                            holder := none },
          ⟨.fail 500 env.saveError, []⟩))
  | _ => none

/-! ### Deleting a mapping -/

/-- The listener is closed after the save, still under `forwardMu`. -/
def deleteMapping (env : Env) (id : String) (p : Process) : Option (Section Process Answer) :=
  if p.holder.isSome then none
  else if p.server.state.mappings.any (fun m => m.id = id) = false then
    some (.answer p ⟨.fail 404 "映射不存在", []⟩)
  else
    let s := p.server.removeMapping env id
    some (.persist { p with server := s }
      ({ p.stop (s.forwards.lookup id) with server := { s with forwards := s.forwards.erase id } },
        ⟨.json .ok, []⟩)
      ({ p with server := { s with state.mappings := p.server.state.mappings } },
        ⟨.fail 500 env.saveError, []⟩))

/-! ### Restoring the mappings of the file -/

/-- `restoreMappings` up to its copy of the table. `Run` calls it once. -/
def restoreMappings (p : Process) : Option (Section Process Answer) :=
  if p.holder.isSome || p.restored then none
  else some (.answer { p with holder := some (.restoring p.server.state.mappings)
                              restored := true } ⟨.done, []⟩)

/-- One row of the copy, or the end of the loop. -/
def restoreNext (listen : Listen) (p : Process) : Option (Section Process Answer) :=
  match p.holder with
  | some (.restoring []) => some (.answer { p with holder := none } ⟨.done, []⟩)
  | some (.restoring (m :: todo)) =>
      if m.enabled = false then
        some (.answer { p with holder := some (.restoring todo) } ⟨.done, []⟩)
      else match p.startMapping listen m with
        | .error e => some (.answer { p with holder := some (.marking m.id e todo) } ⟨.done, []⟩)
        | .ok l =>
            some (.answer { p with
              server.forwards := p.server.forwards.insert m.id l.socket
              listeners := l :: p.listeners
              holder := some (.restoring todo) } ⟨.done, []⟩)
  | _ => none

/-- The row that did not start gets its error. -/
def restoreMark (p : Process) : Option (Section Process Answer) :=
  match p.holder with
  | some (.marking id error todo) =>
      some (.answer { p with server := p.server.markMapping id error
                             holder := some (.restoring todo) } ⟨.done, []⟩)
  | _ => none

/-! ### What each of them can do -/

/-- A mapping starts when the system lets it listen and no other one does. -/
theorem refusal_none {p : Process} {listen : Listen} {m : Mapping} :
    p.refusal listen m = none ↔
      listen.refused = none ∧ ∀ l ∈ p.listeners, l.socket ≠ m.socket := by
  unfold refusal
  split_ifs with hOpen
  · obtain ⟨l, hl, hSocket⟩ := List.any_eq_true.mp hOpen
    simp only [false_iff, not_and, not_forall]
    exact fun _ => ⟨l, hl, not_not.mpr (by simpa using hSocket)⟩
  · simpa using fun _ => hOpen

/-- A refused port has an error text. -/
theorem listenError_ne_empty (m : Mapping) (e : ErrorText) : listenError m e ≠ "" := by
  unfold listenError
  split
  · exact e.property
  · decide

/-- A mapping whose device exists starts when the operating system and the
process's own listeners leave the port free. -/
theorem startMapping_ok {p : Process} {listen : Listen} {m : Mapping} {l : Listener}
    (h : p.startMapping listen m = .ok l) : l.socket = m.socket ∧ p.refusal listen m = none := by
  unfold startMapping at h
  split at h
  · cases h
  · split at h
    · cases h
    · next hFree =>
        cases h
        exact ⟨rfl, hFree⟩

/-- A start fails for want of the device, or because the port is refused. -/
theorem startMapping_error {p : Process} {listen : Listen} {m : Mapping} {e : String}
    (h : p.startMapping listen m = .error e) :
    e ≠ "" ∧ (p.server.device m.device = none ∨ p.refusal listen m ≠ none) := by
  unfold startMapping at h
  split at h
  · next hDevice =>
      cases h
      exact ⟨by decide, .inl hDevice⟩
  · split at h
    · next t hRefused =>
        cases h
        exact ⟨listenError_ne_empty m t, .inr (by simp [hRefused])⟩
    · cases h

/-- What a mapping has that passes the check. -/
theorem validateMapping_none {s : Server} {m : Mapping} (h : s.validateMapping m = none) :
    (1024 ≤ m.listenPort ∧ m.listenPort ≤ 65535) ∧ (1 ≤ m.targetPort ∧ m.targetPort ≤ 65535) ∧
    (m.protocol = "tcp" ∨ m.protocol = "udp" ∨ m.protocol = "http") ∧
    (∃ d, s.device m.device = some d ∧ ¬(d.ip = s.cfg.serverIP ∧ m.listenPort = m.targetPort)) ∧
    ∀ x ∈ s.state.mappings, x.id ≠ m.id → x.socket ≠ m.socket := by
  unfold Server.validateMapping at h
  split_ifs at h with hPorts hProtocol hDomain hTaken
  · split at h
    · cases h
    · split at h <;> cases h
  simp only [port, Bool.or_eq_true, Bool.not_eq_true', decide_eq_true_eq, not_or,
    Bool.not_eq_false, Bool.and_eq_true] at hPorts
  split at h
  · cases h
  · next d hDevice =>
      split at h
      · cases h
      · next hOwn =>
          refine ⟨⟨by omega, by omega⟩, ⟨by omega, by omega⟩, by tauto, ⟨d, hDevice, hOwn⟩, ?_⟩
          intro x hx hId hSocket
          exact hTaken (List.any_eq_true.mpr ⟨x, hx, by simp [hId, hSocket]⟩)

/-- A mapping is refused, or it is accepted under a new id and `forwardMu` is held. -/
theorem putMapping_cases {p : Process} {env : Env} {body : Decoded Mapping}
    {sec : Section Process Answer} (h : p.putMapping env body = some sec) :
    (∃ status e, sec = .answer p ⟨.fail status e, []⟩) ∨
    ∃ m, body = .ok m ∧ m.id = "" ∧ p.holder = none ∧ p.server.validateMapping m = none ∧
      sec = .answer { p with
        holder := some (.accepted { m with id := idOf env.token, error := "" }) } ⟨.done, []⟩ := by
  cases body with
  | error e => exact .inl ⟨400, e, (Option.some.inj h).symm⟩
  | ok m =>
      simp only [putMapping] at h
      split_ifs at h with hId hHolder
      · exact .inl ⟨400, _, (Option.some.inj h).symm⟩
      · split at h
        · exact .inl ⟨400, _, (Option.some.inj h).symm⟩
        · next hValid =>
            exact .inr ⟨m, rfl, not_not.mp hId, by simpa using hHolder, hValid,
              (Option.some.inj h).symm⟩

/-- The port of the accepted mapping is opened, or the request ends. -/
theorem openMapping_cases {p : Process} {listen : Listen} {sec : Section Process Answer}
    (h : p.openMapping listen = some sec) :
    ∃ m, p.holder = some (.creating m) ∧
      ((∃ e, sec = .answer { p with holder := none } ⟨.fail 409 e, []⟩) ∨
       ∃ l, p.startMapping listen m = .ok l ∧
        sec = .answer { p with listeners := l :: p.listeners
                               holder := some (.created m (some l.socket)) } ⟨.done, []⟩) := by
  unfold openMapping at h
  split at h
  · next m hHolder =>
      refine ⟨m, hHolder, ?_⟩
      split at h
      · exact .inl ⟨_, (Option.some.inj h).symm⟩
      · next l hStart => exact .inr ⟨l, hStart, (Option.some.inj h).symm⟩
  · cases h

/-- The row is added and saved; where that fails it is taken out again and the port
closed. -/
theorem commitMapping_cases {p : Process} {env : Env} {sec : Section Process Answer}
    (h : p.commitMapping env = some sec) :
    ∃ m stop, p.holder = some (.created m stop) ∧
      sec = .persist { p with server := p.server.addMapping env m }
        ({ p with
            server := { p.server.addMapping env m with
              forwards := registered (p.server.addMapping env m).forwards m.id stop }
            holder := none }, ⟨.json (.mapping m), []⟩)
        ({ p.stop stop with
            server := { p.server.addMapping env m with
              state.mappings := (p.server.addMapping env m).state.mappings.dropLast }
            holder := none }, ⟨.fail 500 env.saveError, []⟩) := by
  unfold commitMapping at h
  split at h
  · next m stop hHolder => exact ⟨m, stop, hHolder, (Option.some.inj h).symm⟩
  · cases h

/-- The row goes, and with it the port unless the save fails. -/
theorem deleteMapping_cases {p : Process} {env : Env} {id : String} {sec : Section Process Answer}
    (h : p.deleteMapping env id = some sec) :
    p.holder = none ∧
    (sec = .answer p ⟨.fail 404 "映射不存在", []⟩ ∨
     ((∃ m ∈ p.server.state.mappings, m.id = id) ∧
      sec = .persist { p with server := p.server.removeMapping env id }
        ({ p.stop ((p.server.removeMapping env id).forwards.lookup id) with
            server := { p.server.removeMapping env id with
              forwards := (p.server.removeMapping env id).forwards.erase id } },
          ⟨.json .ok, []⟩)
        ({ p with
            server := { p.server.removeMapping env id with
              state.mappings := p.server.state.mappings } },
          ⟨.fail 500 env.saveError, []⟩))) := by
  unfold deleteMapping at h
  split_ifs at h with hHolder hFound
  · exact ⟨by simpa using hHolder, .inl (Option.some.inj h).symm⟩
  · exact ⟨by simpa using hHolder, .inr ⟨by simpa using hFound, (Option.some.inj h).symm⟩⟩

/-- Restoring begins once, with the rows on record. -/
theorem restoreMappings_cases {p : Process} {sec : Section Process Answer}
    (h : p.restoreMappings = some sec) :
    p.holder = none ∧ p.restored = false ∧
      sec = .answer { p with holder := some (.restoring p.server.state.mappings)
                             restored := true } ⟨.done, []⟩ := by
  unfold restoreMappings at h
  split_ifs at h with hBusy
  simp only [Bool.or_eq_true, not_or, Bool.not_eq_true, Option.isSome_eq_false_iff,
    Option.isNone_iff_eq_none] at hBusy
  exact ⟨hBusy.1, hBusy.2, (Option.some.inj h).symm⟩

/-- The next row is passed over, opened, or marked with its error. -/
theorem restoreNext_cases {p : Process} {listen : Listen} {sec : Section Process Answer}
    (h : p.restoreNext listen = some sec) :
    (p.holder = some (.restoring []) ∧ sec = .answer { p with holder := none } ⟨.done, []⟩) ∨
    ∃ m todo, p.holder = some (.restoring (m :: todo)) ∧
      ((m.enabled = false ∧
        sec = .answer { p with holder := some (.restoring todo) } ⟨.done, []⟩) ∨
       (m.enabled = true ∧ ∃ e, p.startMapping listen m = .error e ∧
        sec = .answer { p with holder := some (.marking m.id e todo) } ⟨.done, []⟩) ∨
       (m.enabled = true ∧ ∃ l, p.startMapping listen m = .ok l ∧
        sec = .answer { p with server.forwards := p.server.forwards.insert m.id l.socket
                               listeners := l :: p.listeners
                               holder := some (.restoring todo) } ⟨.done, []⟩)) := by
  unfold restoreNext at h
  split at h
  · next hHolder => exact .inl ⟨hHolder, (Option.some.inj h).symm⟩
  · next m todo hHolder =>
      refine .inr ⟨m, todo, hHolder, ?_⟩
      split_ifs at h with hEnabled
      · exact .inl ⟨hEnabled, (Option.some.inj h).symm⟩
      · have hEnabled : m.enabled = true := by simpa using hEnabled
        split at h
        · next e hStart => exact .inr (.inl ⟨hEnabled, e, hStart, (Option.some.inj h).symm⟩)
        · next l hStart => exact .inr (.inr ⟨hEnabled, l, hStart, (Option.some.inj h).symm⟩)
  · cases h

/-- A mark is put on the mapping that failed. -/
theorem restoreMark_cases {p : Process} {sec : Section Process Answer}
    (h : p.restoreMark = some sec) :
    ∃ id error todo, p.holder = some (.marking id error todo) ∧
      sec = .answer { p with server := p.server.markMapping id error
                             holder := some (.restoring todo) } ⟨.done, []⟩ := by
  unfold restoreMark at h
  split at h
  · next id error todo hHolder => exact ⟨id, error, todo, hHolder, (Option.some.inj h).symm⟩
  · cases h

end Process
end NetConductor
