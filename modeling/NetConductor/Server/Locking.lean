import NetConductor.Remote.Locking

/-! The locking of the server: every handler, loop and forwarder, with what it
acquires and touches in the order of the source. Numbers tell apart the
signaling connections, the mappings and the terminals. Only the mutexes are
followed: channels, wait groups and I/O are not. Of a shared WebSocket its writes
are guarded; it is read by its own handler and closed by anyone, outside the
mutex, and these touches are left out. -/
namespace NetConductor.Server.Locking

open Locks Locks.Skeleton Locks.Discipline Transition

inductive Mutex where
  | forwardMu
  | mu
  | remote
  | conn (n : Nat)
  | mapping (n : Nat)
  | terminal (n : Nat)
  | session (n : Nat)
  | sendMu (n : Nat)
deriving DecidableEq

/-- `active` is the table of a forwarder: its connections, or its UDP peers.
`socketWrites` and `shellWrites` are the writing ends of the WebSockets. -/
inductive Data where
  | state
  | stateFile
  | sessions
  | codes
  | loginAttempts
  | forwards
  | agents
  | browsers
  | socketWrites (n : Nat)
  | active (n : Nat)
  | shellWrites (n : Nat)
  | channel (n : Nat)
  | pc (n : Nat)
  | frames (n : Nat)

def rank : Mutex → Nat
  | .forwardMu => 0
  | .mu | .remote | .mapping _ | .sendMu _ => 1
  | .conn _ | .terminal _ | .session _ => 2

def guards : Data → List Mutex
  | .state | .stateFile | .sessions | .codes | .loginAttempts => [.mu]
  | .forwards => [.forwardMu]
  | .agents | .browsers => [.remote]
  | .socketWrites n => [.conn n]
  | .active n => [.mapping n]
  | .shellWrites n => [.terminal n]
  | .channel n | .pc n => [.session n]
  | .frames n => [.sendMu n]

def discipline : Discipline Mutex Data := ⟨rank, guards⟩

@[simp] theorem discipline_rank (m : Mutex) : discipline.rank m = rank m := rfl

@[simp] theorem discipline_guards (d : Data) : discipline.guards d = guards d := rfl

abbrev Code := Skeleton Mutex Data

def persist : Code := block [access .state, access .stateFile]

def audit : Code := access .state

def admin : Code := locked .mu (access .sessions)

def guard (handler : Code) : Code := block [admin, may handler]

def logout : Code := locked .mu (may (access .sessions))

/-- The checks that fail return with the mutex held, and its deferred `Unlock`
follows. -/
def login : Code :=
  may (locked .mu (block [
    may (loop (access .loginAttempts)),
    access .loginAttempts,
    may (block [
      access .loginAttempts,
      may (block [loop (access .sessions), access .sessions])])]))

def getState : Code := guard (locked .mu (access .state))

def createCode : Code :=
  guard (may (locked .mu (block [loop (access .codes), may (access .codes)])))

def join : Code :=
  may (locked .mu (block [
    access .codes,
    may (block [
      loop (access .state),
      may (block [
        loop (access .state),
        may (block [access .state, audit, persist,
          either (access .state) (access .codes)])])])]))

def heartbeat : Code :=
  may (locked .mu (block [
    access .state,
    may (block [
      access .state,
      may (block [access .state, persist]),
      access .state])]))

def updateDevice : Code :=
  guard (may (locked .mu (block [
    access .state,
    may (block [access .state, audit, persist, may (access .state)])])))

def putPolicy : Code :=
  guard (may (locked .mu (block [
    access .state,
    may (block [
      loop (access .state),
      may (block [access .state, audit, persist, may (access .state)])])])))

def setActive : Code := locked .mu (access .state)

def dialPolicy : Code := block [locked .mu (access .state), loop skip, may setActive]

/-- A plain request's transport dials in a goroutine of its own. -/
def proxyHandler : Code :=
  block [locked .mu (access .state), may (either dialPolicy (go dialPolicy))]

def runLocalProxy : Code := loop (go (may (either dialPolicy (go dialPolicy))))

/-- The serving goroutine of one connection. -/
def serve (n : Nat) : Code :=
  block [
    may (block [lock (.mapping n), access (.active n), either (unlock (.mapping n)) (block [
      access (.active n), unlock (.mapping n), locked (.mapping n) (access (.active n))])]),
    locked (.mapping n) (access (.active n))]

def acceptTCP (n : Nat) : Code :=
  loop (block [lock (.mapping n), access (.active n), either (unlock (.mapping n)) (block [
    access (.active n), unlock (.mapping n), go (serve n)])])

def acceptUDP (n : Nat) : Code :=
  loop (block [lock (.mapping n), access (.active n), either (unlock (.mapping n)) (block [
    may (block [access (.active n), go (block [loop skip, locked (.mapping n) (access (.active n))])]),
    unlock (.mapping n)])])

/-- An HTTP mapping's server takes no mutex of this program. -/
def stop (n : Nat) : Code := may (locked (.mapping n) (access (.active n)))

def startMapping (n : Nat) : Code :=
  block [lock .mu, access .state, either (unlock .mu) (block [
    unlock .mu, may (either (go (acceptUDP n)) (either (go skip) (go (acceptTCP n))))])]

def validateMapping : Code := may (locked .mu (access .state))

def putMapping (n : Nat) : Code :=
  guard (may (locked .forwardMu (block [
    validateMapping,
    may (block [
      may (startMapping n),
      may (block [
        locked .mu (block [access .state, audit, persist, may (access .state)]),
        either (may (stop n)) (may (access .forwards))])])])))

def deleteMapping (n : Nat) : Code :=
  guard (locked .forwardMu (block [
    lock .mu, access .state, either (unlock .mu) (block [
      access .state, audit, persist, may (access .state), unlock .mu,
      may (block [access .forwards, may (block [stop n, access .forwards])])])]))

def restoreMappings (mappings : List Nat) : Code :=
  locked .forwardMu (block [
    locked .mu (access .state),
    block (mappings.map fun n =>
      may (block [startMapping n, either (locked .mu (access .state)) (access .forwards)]))])

def reconcilePeers : Code := locked .mu (access .state)

def probe : Code :=
  block [
    locked .mu (access .state),
    loop (go (locked .mu (access .state))),
    locked .mu persist]

def run (mappings : List Nat) : Code :=
  block [
    reconcilePeers, restoreMappings mappings, probe,
    loop (block [may reconcilePeers, probe]),
    locked .forwardMu (block [access .forwards, block (mappings.map stop)])]

/-- `signalConn.send`. -/
def send (n : Nat) : Code := locked (.conn n) (access (.socketWrites n))

def sessionLocks (n : Nat) : SessionLocks Mutex Data :=
  ⟨.session n, .sendMu n, .channel n, .pc n, .frames n⟩

/-- The handler of the agent connection `n`, which may pass a message to any
of the browsers. -/
def remoteAgent (n : Nat) (browsers : List Nat) : Code :=
  block [
    locked .mu (access .state),
    may (block [
      locked .remote (access .agents),
      loop (block [
        locked .mu (access .state),
        may (either (send n) (block [locked .remote (access .browsers), anyOf send browsers]))]),
      locked .remote (block [access .agents, may (block [access .agents, access .browsers])])])]

/-- The handler of the browser connection `n` to the agent connection `agent`. -/
def remoteBrowser (n agent : Nat) : Code :=
  guard (may (block [lock .mu, access .state, either (unlock .mu) (block [unlock .mu, may (block [
    locked .remote (block [access .agents, access .browsers]),
    may (block [
      locked .remote (access .browsers),
      locked .mu (block [audit, persist]),
      loop (block [admin, may (either
        (block [(sessionLocks n).new (send n) skip, may (send n)])
        (either (sessionLocks n).relay (either (send agent) (send n))))]),
      may (sessionLocks n).close,
      may (send agent),
      locked .remote (access .browsers),
      locked .mu (block [audit, persist])])])])]))

def agentSSHKey : Code := locked .mu (access .state)

/-- `wsWriter.Write`. -/
def write (n : Nat) : Code := locked (.terminal n) (access (.shellWrites n))

def terminal (n : Nat) : Code :=
  guard (block [lock .mu, access .state, either (unlock .mu) (block [unlock .mu, may (either
    (write n)
    (block [
      go (loop (write n)), go (loop (write n)),
      either (write n) (block [
        locked .mu (block [audit, persist]), loop skip,
        locked .mu (block [audit, persist])])]))])])

/-- What the process starts a goroutine for: a request, a proxied connection,
the loops of `Run` and `RunLocalProxy`. -/
inductive Routine where
  | logout
  | login
  | getState
  | createCode
  | join
  | heartbeat
  | updateDevice
  | putPolicy
  | putMapping (n : Nat)
  | deleteMapping (n : Nat)
  | remoteAgent (n : Nat) (browsers : List Nat)
  | remoteBrowser (n agent : Nat)
  | agentSSHKey
  | terminal (n : Nat)
  | proxyHandler
  | runLocalProxy
  | run (mappings : List Nat)

def Routine.code : Routine → Code
  | logout => Locking.logout
  | login => Locking.login
  | getState => Locking.getState
  | createCode => Locking.createCode
  | join => Locking.join
  | heartbeat => Locking.heartbeat
  | updateDevice => Locking.updateDevice
  | putPolicy => Locking.putPolicy
  | putMapping n => Locking.putMapping n
  | deleteMapping n => Locking.deleteMapping n
  | remoteAgent n browsers => Locking.remoteAgent n browsers
  | remoteBrowser n agent => Locking.remoteBrowser n agent
  | agentSSHKey => Locking.agentSSHKey
  | terminal n => Locking.terminal n
  | proxyHandler => Locking.proxyHandler
  | runLocalProxy => Locking.runLocalProxy
  | run mappings => Locking.run mappings

def system : System (Pool Mutex Data) (Label Routine) := Pool.system Routine.code

/-! Every routine keeps the discipline: first those that others call, then
the routines. -/

variable {held : List Mutex}

/-- What a handler keeps the guarded one keeps. -/
theorem check_guard {handler : Code} (h : discipline.check handler [] = some []) :
    discipline.check (guard handler) [] = some [] := by
  simp [guard, admin, guards, h]

@[simp] theorem check_dialPolicy : discipline.check dialPolicy [] = some [] := by
  simp [dialPolicy, setActive, guards]

/-- A stop function takes its own mutex only. -/
theorem check_stop (n : Nat) (h : ∀ x ∈ held, rank x < 1) :
    discipline.check (stop n) held = some held := by
  simpa [stop, rank, guards] using h

/-- A mapping is started under `forwardMu`. -/
theorem check_startMapping (n : Nat) :
    discipline.check (startMapping n) [.forwardMu] = some [.forwardMu] := by
  simp [startMapping, acceptTCP, acceptUDP, serve, rank, guards, Discipline.Keeps]

/-- The mappings of the file are restored under `forwardMu`. -/
theorem check_restoreMappings (mappings : List Nat) :
    discipline.check (restoreMappings mappings) [] = some [] := by
  have hEach : discipline.check (block (mappings.map fun n => may (block [startMapping n,
      either (locked .mu (access .state)) (access .forwards)]))) [.forwardMu] = some [.forwardMu] :=
    check_block_map fun n _ => by simp [check_startMapping, rank, guards]
  simp [restoreMappings, rank, guards, hEach]

/-- A message on a WebSocket goes out under the socket's own mutex. -/
theorem check_send (n : Nat) (h : ∀ x ∈ held, rank x < 2) :
    discipline.check (send n) held = some held := by
  simpa [send, rank, guards] using h

/-- The mutexes of a session fit below those of the server. -/
theorem fits_session (n : Nat) : SessionLocks.Fits discipline (sessionLocks n) (send n) skip where
  order := by simp [sessionLocks, rank]
  channel := rfl
  pc := rfl
  frames := rfl
  signals := check_send n (by simp)
  signalsInside := check_send n (by simp [sessionLocks, rank])
  answers := rfl

/-- A new mapping is added with no mutex left. -/
theorem check_putMapping (n : Nat) : discipline.check (putMapping n) [] = some [] := by
  have hStop : discipline.check (stop n) [.forwardMu] = some [.forwardMu] :=
    check_stop n (by simp [rank])
  apply check_guard
  simp [validateMapping, audit, persist, hStop, check_startMapping, rank, guards]

/-- A mapping is deleted with no mutex left. -/
theorem check_deleteMapping (n : Nat) : discipline.check (deleteMapping n) [] = some [] := by
  have hStop : discipline.check (stop n) [.forwardMu] = some [.forwardMu] :=
    check_stop n (by simp [rank])
  apply check_guard
  simp [audit, persist, hStop, rank, guards]

/-- The server starts with no mutex left. -/
theorem check_run (mappings : List Nat) : discipline.check (run mappings) [] = some [] := by
  have hStop : discipline.check (block (mappings.map stop)) [.forwardMu] = some [.forwardMu] :=
    check_block_map fun n _ => check_stop n (by simp [rank])
  simp [run, reconcilePeers, probe, persist, check_restoreMappings, hStop, guards,
    Discipline.Keeps]

/-- A device's connection ends with no mutex left. -/
theorem check_remoteAgent (n : Nat) (browsers : List Nat) :
    discipline.check (remoteAgent n browsers) [] = some [] := by
  have hSend : discipline.check (send n) [] = some [] := check_send n (by simp)
  have hBrowsers : discipline.check (.anyOf send browsers) [] = some [] :=
    check_anyOf fun b _ => check_send b (by simp)
  simp [remoteAgent, hSend, hBrowsers, guards]

/-- A browser's request ends without a mutex, whatever messages and sessions it has had.
-/
theorem check_remoteBrowser (n agent : Nat) :
    discipline.check (remoteBrowser n agent) [] = some [] := by
  have hSend : discipline.check (send n) [] = some [] := check_send n (by simp)
  have hAgent : discipline.check (send agent) [] = some [] := check_send agent (by simp)
  have hNew : discipline.check ((sessionLocks n).new (send n) skip) [] = some [] :=
    (fits_session n).keeps_new
  have hRelay : discipline.check (sessionLocks n).relay [] = some [] :=
    (fits_session n).keeps_relay
  have hClose : discipline.check (sessionLocks n).close [] = some [] :=
    (fits_session n).keeps_close
  apply check_guard
  simp [admin, audit, persist, hSend, hAgent, hNew, hRelay, hClose, guards]

/-- The terminal for older agents ends without a mutex. -/
theorem check_terminal (n : Nat) : discipline.check (terminal n) [] = some [] := by
  apply check_guard
  simp [write, audit, persist, guards, Discipline.Keeps]

/-- Every routine of the server keeps the discipline. -/
theorem keeps (r : Routine) : discipline.Keeps r.code := by
  cases r with
  | logout => simp [Routine.code, Discipline.Keeps, logout, guards]
  | login => simp [Routine.code, Discipline.Keeps, login, guards]
  | getState => exact check_guard (by simp [guards])
  | createCode => exact check_guard (by simp [guards])
  | join => simp [Routine.code, Discipline.Keeps, join, audit, persist, guards]
  | heartbeat => simp [Routine.code, Discipline.Keeps, heartbeat, persist, guards]
  | updateDevice => exact check_guard (by simp [audit, persist, guards])
  | putPolicy => exact check_guard (by simp [audit, persist, guards])
  | putMapping n => exact check_putMapping n
  | deleteMapping n => exact check_deleteMapping n
  | remoteAgent n browsers => exact check_remoteAgent n browsers
  | remoteBrowser n agent => exact check_remoteBrowser n agent
  | agentSSHKey => simp [Routine.code, Discipline.Keeps, agentSSHKey, guards]
  | terminal n => exact check_terminal n
  | proxyHandler => simp [Routine.code, Discipline.Keeps, proxyHandler, guards]
  | runLocalProxy => simp [Routine.code, Discipline.Keeps, runLocalProxy]
  | run mappings => exact check_run mappings

variable {pool : Pool Mutex Data}

/-- Two logouts: the first is in its critical section, the second at its `Lock`. -/
def twoLogouts : List (Label Routine) :=
  [.start .logout, .start .logout, .run 0 0, .run 0 0, .run 1 0, .run 0 0, .run 0 0]

def waitingPool : Pool Mutex Data :=
  [⟨[access .sessions, block [unlock .mu]], [.mu]⟩,
    ⟨[lock .mu, block [may (access .sessions), unlock .mu]], []⟩]

/-- Two requests for the sessions, one behind the other. -/
theorem waitingPool_reachable : Reachable system waitingPool :=
  ⟨[], twoLogouts, rfl, runs_of_follow (fun _ _ _ h => h) rfl⟩

/-- The server never deadlocks, also not in part: whatever requests, loops and
forwarders are running, every unfinished one can move or waits, through others,
for one that can. -/
theorem server_never_deadlocks (h : Reachable system pool) {i : Nat} {t : Thread Mutex Data}
    (ht : pool[i]? = some t) (hTodo : t.todo ≠ []) :
    ∃ j, Relation.ReflTransGen pool.WaitsFor i j ∧ pool.CanMove j :=
  (Pool.sound keeps h).chain_ends ht hTodo

/-- The second one waits for the first, which can go on. -/
theorem server_never_deadlocks_waiting :
    ∃ j, Relation.ReflTransGen (Pool.WaitsFor waitingPool) 1 j ∧ Pool.CanMove waitingPool j :=
  server_never_deadlocks waitingPool_reachable (i := 1) rfl (by simp)

/-- What is shared is touched by one routine at a time, under its mutexes: the
one that is about to touch it holds them, and no other holds any of them. -/
theorem server_data_exclusive (h : Reachable system pool) {i : Nat} {t : Thread Mutex Data}
    (ht : pool[i]? = some t) {d : Data} (hTouches : t.touches = some d) {m : Mutex}
    (hGuard : m ∈ guards d) :
    m ∈ t.held ∧ ∀ (j : Nat) u, j ≠ i → pool[j]? = some u → m ∉ u.held :=
  (Pool.sound keeps h).touches_alone ht hTouches hGuard

/-- While the first one touches the sessions nobody else holds their mutex. -/
theorem server_data_exclusive_sessions : ∃ t, waitingPool[0]? = some t ∧ Mutex.mu ∈ t.held ∧
    ∀ (j : Nat) u, j ≠ 0 → waitingPool[j]? = some u → Mutex.mu ∉ u.held :=
  ⟨_, rfl, server_data_exclusive waitingPool_reachable (i := 0) rfl (d := .sessions) rfl
    (List.mem_singleton.mpr rfl)⟩

end NetConductor.Server.Locking
