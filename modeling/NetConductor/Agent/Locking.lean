import NetConductor.Remote.Locking
import NetConductor.Semantics.Updates

/-! The locking of the agent: its HTTP handlers, its loops, its signaling
connection with the sessions, and the shared listeners. Numbers tell apart the
signaling connections and the sessions. Only the mutexes are followed: channels,
contexts and I/O are not, nor are the reads and the closing of the signaling
socket, which go on outside its `writeMu`. -/
namespace NetConductor.Agent.Locking

open Locks Locks.Skeleton Locks.Discipline Transition

inductive Mutex where
  | op
  | mu
  | desktop
  | writeMu (n : Nat)
  | session (n : Nat)
  | sendMu (n : Nat)
deriving DecidableEq

/-- `settings` is `a.cfg` as it is read, `newSettings` its replacement by one
that was derived from it; `status` stands for the fields that `state` shows. -/
inductive Data where
  | settings
  | newSettings
  | settingsFile
  | status
  | client
  | shares
  | tunnel
  | authorizedKeys
  | pending
  | socketWrites (n : Nat)
  | channel (n : Nat)
  | pc (n : Nat)
  | frames (n : Nat)
deriving DecidableEq

def rank : Mutex → Nat
  | .op => 0
  | .mu | .desktop | .sendMu _ => 1
  | .writeMu _ | .session _ => 2

def guards : Data → List Mutex
  | .settings | .status | .client => [.mu]
  | .newSettings => [.op, .mu]
  | .settingsFile | .shares | .tunnel | .authorizedKeys => [.op]
  | .pending => [.desktop]
  | .socketWrites n => [.writeMu n]
  | .channel n | .pc n => [.session n]
  | .frames n => [.sendMu n]

def discipline : Discipline Mutex Data := ⟨rank, guards⟩

@[simp] theorem discipline_rank (m : Mutex) : discipline.rank m = rank m := rfl

@[simp] theorem discipline_guards (d : Data) : discipline.guards d = guards d := rfl

abbrev Code := Skeleton Mutex Data

def config : Code := locked .mu (access .settings)

/-- Its callers hold `mu`. -/
def event : Code := access .status

def state : Code := locked .mu (block [access .settings, access .status])

def diagnose : Code := block [config, locked .mu (access .status)]

def sync : Code :=
  block [
    locked .mu (block [access .settings, access .status, access .client]),
    may (locked .mu (block [may event, access .status]))]

def installTunnel : Code := block [config, may (access .tunnel)]

def join : Code :=
  locked .op (may (block [config, may (block [
    access .settingsFile,
    may (block [
      locked .mu (block [access .newSettings, access .client, event]),
      may installTunnel])])]))

def repair : Code :=
  locked .op (block [config, may (block [
    may (block [access .tunnel, may installTunnel]),
    locked .mu event,
    may diagnose])])

/-- The accept loop takes no mutex until its clean-up. -/
def startShare : Code :=
  may (go (block [loop (go skip), locked .op (block [access .shares, may (access .shares)])]))

def share : Code :=
  locked .op (may (block [config, may (block [startShare, may (block [
    access .settingsFile,
    may (block [
      access .shares,
      locked .mu (block [access .newSettings, event])])])])]))

def restoreShares : Code :=
  locked .op (block [config,
    loop (block [access .shares, may (block [startShare, may (access .shares)])])])

def ensureTunnel : Code := may (block [config, may (either installTunnel (access .tunnel))])

def recoveryLoop : Code :=
  loop (may (block [lock .op, config, either (unlock .op) (block [
    ensureTunnel, unlock .op, may (locked .mu event)])]))

def syncSSHKey : Code :=
  block [config, may (locked .op (block [access .authorizedKeys, may (locked .mu event)]))]

def desktopRequest : Code :=
  block [locked .desktop (access .pending), skip, locked .desktop (access .pending)]

def desktopNext : Code := loop (locked .desktop (access .pending))

def desktopReply : Code := may (locked .desktop (access .pending))

/-- The closure `send` of the connection `n`. -/
def send (n : Nat) : Code := locked (.writeMu n) (access (.socketWrites n))

def sessionLocks (n : Nat) : SessionLocks Mutex Data :=
  ⟨.session n, .sendMu n, .channel n, .pc n, .frames n⟩

/-- A message for the session `k` on the connection `n`. -/
def message (n k : Nat) : Code :=
  either
    (either (send n) (may (block [
      (sessionLocks k).new (send n) desktopRequest,
      either (send n) (locked .mu event)])))
    (either (sessionLocks k).relay (sessionLocks k).close)

def remoteConnect (n : Nat) (sessions : List Nat) : Code :=
  block [config, may (block [syncSSHKey, may (block [
    go (loop (send n)),
    loop (anyOf (message n) sessions),
    block (sessions.map fun k => may (sessionLocks k).close)])])]

/-- The connections that the loop makes, one after another. -/
def remoteLoop (connections : List (Nat × List Nat)) : Code :=
  block (connections.map fun c => remoteConnect c.1 c.2)

def run (connections : List (Nat × List Nat)) : Code :=
  block [
    go (remoteLoop connections), go recoveryLoop, restoreShares, diagnose, sync,
    loop (block [may (block [restoreShares, diagnose]), sync]),
    locked .op (access .shares)]

/-- `Handler`: the bearer check, then the handler of the route. -/
def handler (route : Code) : Code := block [config, may route]

inductive Routine where
  | state
  | join
  | diagnose
  | repair
  | share
  | desktopNext
  | desktopReply
  | proxyHandler
  | run (connections : List (Nat × List Nat))

/-- A proxied plain request dials in a goroutine of its transport. -/
def Routine.code : Routine → Code
  | state => handler Locking.state
  | join => handler Locking.join
  | diagnose => handler (block [Locking.diagnose, Locking.state])
  | repair => handler Locking.repair
  | share => handler Locking.share
  | desktopNext => handler Locking.desktopNext
  | desktopReply => handler Locking.desktopReply
  | proxyHandler => may (either config (go config))
  | run connections => Locking.run connections

def system : System (Pool Mutex Data) (Label Routine) := Pool.system Routine.code

/-- `join` and `share` replace the settings by ones that they derive from a copy. -/
def settings : Replacement Mutex Data := ⟨.op, .settings, .newSettings⟩

/-- The same runs, with the replacements of the settings counted. -/
def versions : System (Versioned Mutex Data) (Label Routine) := settings.system Routine.code

/-! Every routine keeps the discipline: first those that others call, then the
routines. -/

variable {held : List Mutex}

/-- Reading the settings takes `mu` for that long. -/
@[simp] theorem check_config {held' : List Mutex} :
    discipline.check config held = some held' ↔ (∀ x ∈ held, rank x < 1) ∧ held = held' := by
  simp [config, rank, guards]

/-- Starting a share leaves the mutexes as they are. -/
theorem check_startShare (held : List Mutex) :
    discipline.check startShare held = some held := by
  simp [startShare, guards, Discipline.Keeps]

/-- A diagnosis needs `mu` alone. -/
theorem check_diagnose (h : ∀ x ∈ held, rank x < 1) :
    discipline.check diagnose held = some held := by
  simpa [diagnose, rank, guards] using h

/-- What a route keeps its handler keeps. -/
theorem check_handler {route : Code} (h : discipline.check route [] = some []) :
    discipline.Keeps (handler route) := by
  simp [Discipline.Keeps, handler, h]

/-- A request of the desktop client holds the queue's mutex at most. -/
theorem check_desktopRequest : discipline.Keeps desktopRequest := by
  simp [Discipline.Keeps, desktopRequest, guards]

/-- A message on a WebSocket goes out under the socket's own mutex. -/
theorem check_send (n : Nat) (h : ∀ x ∈ held, rank x < 2) :
    discipline.check (send n) held = some held := by
  simpa [send, rank, guards] using h

/-- The mutexes of a session fit below those of the agent. -/
theorem fits_session (n k : Nat) :
    SessionLocks.Fits discipline (sessionLocks k) (send n) desktopRequest where
  order := by simp [sessionLocks, rank]
  channel := rfl
  pc := rfl
  frames := rfl
  signals := check_send n (by simp)
  signalsInside := check_send n (by simp [sessionLocks, rank])
  answers := check_desktopRequest

/-- A message of the server's is handled with no mutex left. -/
theorem check_message (n k : Nat) : discipline.check (message n k) [] = some [] := by
  have hSend : discipline.check (send n) [] = some [] := check_send n (by simp)
  have hNew : discipline.check ((sessionLocks k).new (send n) desktopRequest) [] = some [] :=
    (fits_session n k).keeps_new
  have hRelay : discipline.check (sessionLocks k).relay [] = some [] :=
    (fits_session n k).keeps_relay
  have hClose : discipline.check (sessionLocks k).close [] = some [] :=
    (fits_session n k).keeps_close
  simp [message, event, hSend, hNew, hRelay, hClose, guards]

/-- The signaling loop ends without a mutex, whatever messages and sessions it has had.
-/
theorem check_remoteConnect (n : Nat) (sessions : List Nat) :
    discipline.check (remoteConnect n sessions) [] = some [] := by
  have hSend : discipline.check (send n) [] = some [] := check_send n (by simp)
  have hMessages : discipline.check (.anyOf (message n) sessions) [] = some [] :=
    check_anyOf fun k _ => check_message n k
  have hClose : discipline.check (block (sessions.map fun k => may (sessionLocks k).close)) [] =
      some [] :=
    check_block_map fun k _ => check_may.mpr ⟨(fits_session n k).keeps_close, rfl⟩
  simp [remoteConnect, syncSSHKey, event, hSend, hMessages, hClose, rank, guards,
    Discipline.Keeps]

/-- The shares are restored under `op`. -/
theorem check_restoreShares : discipline.check restoreShares [] = some [] := by
  simp [restoreShares, check_startShare, rank, guards]

/-- A pass of the recovery gives back every mutex it takes. -/
theorem check_recoveryLoop : discipline.Keeps recoveryLoop := by
  simp [Discipline.Keeps, recoveryLoop, ensureTunnel, installTunnel, event, rank, guards]

/-- The agent ends with no mutex, however often it has connected. -/
theorem check_run (connections : List (Nat × List Nat)) :
    discipline.check (run connections) [] = some [] := by
  have hRemote : discipline.Keeps (remoteLoop connections) :=
    check_block_map fun c _ => check_remoteConnect c.1 c.2
  simp [run, sync, event, hRemote, check_recoveryLoop, check_restoreShares, check_diagnose, guards]

/-- Every routine of the agent keeps the discipline. -/
theorem keeps (r : Routine) : discipline.Keeps r.code := by
  cases r with
  | state => exact check_handler (by simp [state, guards])
  | join => exact check_handler (by simp [join, installTunnel, event, rank, guards])
  | diagnose => exact check_handler (by simp [state, check_diagnose, guards])
  | repair =>
      exact check_handler (by simp [repair, installTunnel, diagnose, event, rank, guards])
  | share => exact check_handler (by simp [share, event, check_startShare, rank, guards])
  | desktopNext => exact check_handler (by simp [desktopNext, guards])
  | desktopReply => exact check_handler (by simp [desktopReply, guards])
  | proxyHandler => simp [Routine.code, Discipline.Keeps]
  | run connections => exact check_run connections

/-! `join` and `share` read the settings under `op` before they replace them; no
other routine replaces them. -/

@[simp] theorem settings_replace : settings.replace = .newSettings := rfl

/-- A handler that leaves the settings alone does no harm to them. -/
theorem avoids_handler {route : Code} (h : settings.Avoids route) :
    settings.Reads (handler route) := by
  refine Replacement.Avoids.check ?_ false
  simp [handler, config, block, locked, may, Replacement.Avoids, h]

/-- A message of the server's leaves the settings alone. -/
theorem avoids_message (n k : Nat) : settings.Avoids (message n k) := by
  simp [message, send, desktopRequest, event, sessionLocks, SessionLocks.new, SessionLocks.relay,
    SessionLocks.close, SessionLocks.onDataChannel, SessionLocks.run, SessionLocks.handle,
    SessionLocks.startTerminal, SessionLocks.send, SessionLocks.sendBytes, block, locked, may,
    Replacement.Avoids]

/-- The signaling loop leaves the settings alone. -/
theorem avoids_remoteConnect (n : Nat) (sessions : List Nat) :
    settings.Avoids (remoteConnect n sessions) := by
  have hMessages : settings.Avoids (.anyOf (message n) sessions) :=
    Replacement.avoids_anyOf fun k _ => avoids_message n k
  have hCloses : settings.Avoids (block (sessions.map fun k => may (sessionLocks k).close)) := by
    rw [Replacement.avoids_block, List.forall_mem_map]
    intro k _
    simp [sessionLocks, SessionLocks.close, block, locked, may, Replacement.Avoids]
  simpa [remoteConnect, config, syncSSHKey, event, send, block, locked, may, Replacement.Avoids,
    hMessages] using hCloses

/-- The loop that connects leaves the settings alone. -/
theorem avoids_run (connections : List (Nat × List Nat)) : settings.Avoids (run connections) := by
  have hRemote : settings.Avoids (remoteLoop connections) := by
    rw [remoteLoop, Replacement.avoids_block, List.forall_mem_map]
    exact fun c _ => avoids_remoteConnect c.1 c.2
  simp [run, hRemote, recoveryLoop, ensureTunnel, installTunnel, restoreShares, startShare,
    diagnose, sync, config, event, block, locked, may, Replacement.Avoids]

/-- Who replaces the settings has read them under `op` before. -/
theorem reads (r : Routine) : settings.Reads r.code := by
  cases r with
  | join | share => rfl
  | state => exact avoids_handler (by simp [state, block, locked, Replacement.Avoids])
  | diagnose =>
      exact avoids_handler
        (by simp [diagnose, state, config, block, locked, Replacement.Avoids])
  | repair =>
      exact avoids_handler (by simp [repair, installTunnel, diagnose, config, event, block, locked,
        may, Replacement.Avoids])
  | desktopNext => exact avoids_handler (by simp [desktopNext, block, locked, Replacement.Avoids])
  | desktopReply =>
      exact avoids_handler (by simp [desktopReply, block, locked, may, Replacement.Avoids])
  | proxyHandler => rfl
  | run connections => exact (avoids_run connections).check false

variable {pool : Pool Mutex Data}

/-- Of two shares the first is about to replace the settings, the second waits
at its `Lock`. -/
def twoSharesLabels : List (Label Routine) :=
  [.start .share, .start .share] ++ List.replicate 11 (.run 1 0) ++ List.replicate 40 (.run 0 0)

def twoShares : Pool Mutex Data :=
  (follow (Pool.step Routine.code) [] twoSharesLabels).getD []

/-- Two requests to share, one behind the other. -/
theorem twoShares_reachable : Reachable system twoShares :=
  ⟨[], twoSharesLabels, rfl, runs_of_follow (fun _ _ _ h => h) rfl⟩

/-- The agent never deadlocks, also not in part: whatever requests, sessions and
loops are running, every unfinished one can move or waits, through others, for
one that can. -/
theorem agent_never_deadlocks (h : Reachable system pool) {i : Nat} {t : Thread Mutex Data}
    (ht : pool[i]? = some t) (hTodo : t.todo ≠ []) :
    ∃ j, Relation.ReflTransGen pool.WaitsFor i j ∧ pool.CanMove j :=
  (Pool.sound keeps h).chain_ends ht hTodo

/-- The second one waits for the first, which can go on. -/
theorem agent_never_deadlocks_waiting :
    ∃ j, Relation.ReflTransGen (Pool.WaitsFor twoShares) 1 j ∧ Pool.CanMove twoShares j :=
  agent_never_deadlocks twoShares_reachable (i := 1) rfl (by simp)

/-- What is shared is touched by one routine at a time, under its mutexes: the
one that is about to touch it holds them, and no other holds any of them. And
whoever is about to replace the settings has read the present version of them
since it acquired `op`, whatever run has led there: from that first look on
nobody has replaced them, so no update is lost. -/
theorem agent_data_exclusive (h : Reachable system pool) {i : Nat} {t : Thread Mutex Data}
    (ht : pool[i]? = some t) {d : Data} (hTouches : t.touches = some d) :
    (∀ m ∈ guards d, m ∈ t.held ∧ ∀ (j : Nat) u, j ≠ i → pool[j]? = some u → m ∉ u.held) ∧
    (d = .newSettings → (∃ w, Reachable versions w ∧ w.pool = pool) ∧
      ∀ w, Reachable versions w → w.pool = pool → w.seen i = some w.version) := by
  refine ⟨fun m hGuard => (Pool.sound keeps h).touches_alone ht hTouches hGuard, ?_⟩
  rintro rfl
  refine ⟨Replacement.exists_versioned h, ?_⟩
  rintro w hReach rfl
  have hKept := Replacement.kept (D := discipline) keeps reads (List.mem_cons_self ..) hReach
  exact hKept.replaces_what_it_read (List.mem_cons_self ..) ht hTouches

/-- Of two shares the first has replaced the settings and is done, the second is
about to replace them. -/
def secondShareLabels : List (Label Routine) :=
  [.start .share, .start .share] ++ List.replicate 55 (.run 0 0) ++ List.replicate 40 (.run 1 0)

def secondShare : Versioned Mutex Data :=
  (follow (settings.step Routine.code) ⟨[], 0, fun _ => none⟩ secondShareLabels).getD
    ⟨[], 0, fun _ => none⟩

set_option maxRecDepth 2000 in
/-- The second one finds the settings that the first one has left. -/
theorem agent_data_exclusive_settings : secondShare.version = 1 ∧
    secondShare.seen 1 = some secondShare.version := by
  have hReach : Reachable versions secondShare :=
    ⟨_, secondShareLabels, rfl, runs_of_follow (fun _ _ _ h => h) rfl⟩
  have hPool : Reachable system secondShare.pool :=
    ⟨[], secondShareLabels, rfl, runs_of_follow (fun _ _ _ h => h) rfl⟩
  have hExclusive := agent_data_exclusive hPool (i := 1) rfl (d := .newSettings) rfl
  exact ⟨rfl, (hExclusive.2 rfl).2 secondShare hReach rfl⟩

end NetConductor.Agent.Locking
