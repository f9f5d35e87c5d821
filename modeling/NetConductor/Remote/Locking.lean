import NetConductor.Semantics.Locks

/-! The locking of a remote session. Both processes run sessions, each with
mutexes of its own and its own way to signal. -/
namespace NetConductor

open Locks

/-- The two mutexes of a session. `mu` guards the data channel with the relay
flag and the peer connection, `sendMu` keeps the frames of a message together. -/
structure SessionLocks (Mutex Data : Type) where
  mu : Mutex
  sendMu : Mutex
  channel : Data
  pc : Data
  frames : Data

namespace SessionLocks

open Skeleton

variable {Mutex Data : Type} (x : SessionLocks Mutex Data)

/-- Where the data channel is not used, the frame goes by `signal`. -/
def sendBytes (signal : Skeleton Mutex Data) : Skeleton Mutex Data :=
  block [locked x.mu (access x.channel), may signal]

def send (signal : Skeleton Mutex Data) : Skeleton Mutex Data :=
  locked x.sendMu (either
    (loop (block [access x.frames, x.sendBytes signal]))
    (block [access x.frames, x.sendBytes signal]))

def close : Skeleton Mutex Data := locked x.mu (access x.pc)

/-- `accept` only selects on channels. -/
def relay : Skeleton Mutex Data := locked x.mu (access x.channel)

/-- The callback for a data channel, and the callbacks for its messages. -/
def onDataChannel : Skeleton Mutex Data :=
  block [lock x.mu, access x.channel, either (unlock x.mu) (block [
    access x.channel, unlock x.mu, loop (go (locked x.mu (access x.channel)))])]

/-- Stdout and stderr are copied by two goroutines, a third waits for the end. -/
def startTerminal (signal : Skeleton Mutex Data) : Skeleton Mutex Data :=
  block [go (loop (x.send signal)), go (loop (x.send signal)), go (x.send signal)]

def handle (signal desktop : Skeleton Mutex Data) : Skeleton Mutex Data :=
  either desktop (may (x.startTerminal signal))

def run (signal desktop : Skeleton Mutex Data) : Skeleton Mutex Data :=
  loop (block [x.handle signal desktop, x.send signal])

/-- A failing step closes the session and returns. -/
def new (signal desktop : Skeleton Mutex Data) : Skeleton Mutex Data :=
  may (block [
    go (loop (go x.onDataChannel)),
    either x.close (block [go (may signal), go (x.run signal desktop), go x.close])])

variable {x}

/-- A discipline fits the session's mutexes: a frame is sent under `sendMu`,
and so takes `mu`, and what `signal` takes, in the order. -/
structure Fits [DecidableEq Mutex] (D : Discipline Mutex Data) (x : SessionLocks Mutex Data)
    (signal desktop : Skeleton Mutex Data) : Prop where
  order : D.rank x.sendMu < D.rank x.mu
  channel : D.guards x.channel = [x.mu]
  pc : D.guards x.pc = [x.mu]
  frames : D.guards x.frames = [x.sendMu]
  signals : D.Keeps signal
  signalsInside : D.check signal [x.sendMu] = some [x.sendMu]
  answers : D.Keeps desktop

namespace Fits

variable [DecidableEq Mutex] {D : Discipline Mutex Data} {signal desktop : Skeleton Mutex Data}

theorem keeps_close (h : Fits D x signal desktop) : D.Keeps x.close := by
  simp [Discipline.Keeps, close, h.pc]

theorem keeps_relay (h : Fits D x signal desktop) : D.Keeps x.relay := by
  simp [Discipline.Keeps, relay, h.channel]

theorem keeps_onDataChannel (h : Fits D x signal desktop) : D.Keeps x.onDataChannel := by
  simp [Discipline.Keeps, onDataChannel, h.channel]

theorem keeps_send (h : Fits D x signal desktop) : D.Keeps (x.send signal) := by
  have hBytes : D.check (x.sendBytes signal) [x.sendMu] = some [x.sendMu] := by
    simp [sendBytes, h.channel, h.signalsInside, h.order]
  simp [Discipline.Keeps, send, h.frames, hBytes]

/-- Making a session takes the mutexes in the order. -/
theorem keeps_new (h : Fits D x signal desktop) : D.Keeps (x.new signal desktop) := by
  have hSend : D.check (x.send signal) [] = some [] := h.keeps_send
  have hTerminal : D.check (x.startTerminal signal) [] = some [] := by
    simp [startTerminal, Discipline.Keeps, hSend]
  have hDesktop : D.check desktop [] = some [] := h.answers
  have hRun : D.check (x.run signal desktop) [] = some [] := by
    simp [run, handle, hSend, hTerminal, hDesktop]
  have hClose : D.check x.close [] = some [] := h.keeps_close
  have hChannel : D.check x.onDataChannel [] = some [] := h.keeps_onDataChannel
  have hSignal : D.check signal [] = some [] := h.signals
  simp [Discipline.Keeps, new, hClose, hSignal, hChannel, hRun]

end Fits

end SessionLocks

end NetConductor
