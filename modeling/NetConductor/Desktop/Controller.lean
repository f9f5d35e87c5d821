import NetConductor.Desktop.InputHelper
import NetConductor.Semantics.Slots
import NetConductor.Semantics.Transition

/-! The desktop program's side of remote input: it starts a helper, feeds it
lines, and lets go of it when the screen is locked, when a reply is late, when
the helper is gone and when the program ends. -/
namespace NetConductor
open Transition InputHelper

/-- A helper process. A line that is `none` is longer than its scanner takes.
`dropped` says that the controller gave it up, or told it to end, while it ran. -/
structure HelperProcess where
  helper : InputHelper
  unread : List (Option InputLine)
  closed : Bool
  alive : Bool
  replies : List (Option String)
  dropped : Bool

/-- `pending` says that a reply is awaited, and its timer set. -/
structure Controller where
  processes : List HelperProcess
  helper : Option Nat
  pending : Bool
  locked : Bool
  stopped : Bool
  ended : Bool
  lastInput : Nat

inductive ControllerLabel where
  | input (line : Option InputLine) (now : Nat) (starts : Bool)
  | tick (order : MapOrder) (now : Nat)
  | reply (i : Nat)
  | timeout
  | lock
  | unlock
  | gone (i : Nat)
  | stop
  | quit
  | work (i : Nat) (order : MapOrder)
  | finish (i : Nat) (order : MapOrder)
  | crash (i : Nat)

namespace HelperProcess

/-- A process just spawned, or one that could not be. -/
def spawn (starts : Bool) : HelperProcess := ⟨.start, [], false, starts, [], false⟩

/-- `stdin.write`; once the pipe is closed, an error that nobody looks at. -/
def write (line : Option InputLine) (p : HelperProcess) : HelperProcess :=
  if p.closed then p else { p with unread := p.unread ++ [line] }

/-- `stdin.end()`. -/
def endInput (p : HelperProcess) : HelperProcess := { p with closed := true }

def kill (p : HelperProcess) : HelperProcess := { p with alive := false }

/-- The controller gives the process up. -/
def drop (p : HelperProcess) : HelperProcess := { p with dropped := p.dropped || p.alive }

/-- `inputMain` returns. -/
def exit (o : Nat → Bool) (order : MapOrder) (p : HelperProcess) : HelperProcess :=
  { p with helper := p.helper.release o order, alive := false }

/-- The next line is handled and answered, or ends the loop by its length. -/
def work (o : Nat → Bool) (order : MapOrder) (p : HelperProcess) : Option HelperProcess :=
  match p.unread with
  | some line :: rest =>
      let out := p.helper.handle o line
      some { p with helper := out.1, unread := rest, replies := p.replies ++ [out.2] }
  | none :: rest => some ({ p with unread := rest }.exit o order)
  | [] => none

end HelperProcess

namespace Controller

def start : Controller := ⟨[], none, false, false, false, false, 0⟩

/-- The helper in use, if it is there, changes. -/
def onHelper (f : HelperProcess → HelperProcess) (w : Controller) : Controller :=
  match w.helper with
  | none => w
  | some i => { w with processes := w.processes.modify i f }

def spawn (starts : Bool) (w : Controller) : Controller :=
  match w.helper with
  | some _ => w
  | none => { w with
      processes := w.processes ++ [.spawn starts], helper := some w.processes.length }

/-- `input`; while a reply is pending it only makes sure that there is a helper. -/
def input (line : Option InputLine) (now : Nat) (starts : Bool) (w : Controller) : Controller :=
  let w := w.spawn starts
  if w.pending then w
  else { w.onHelper (.write line) with pending := true, lastInput := now }

def releaseLine (order : MapOrder) : InputLine := ⟨.ok ⟨"release", 0, 0, 0, false, "", 0⟩, order⟩

/-- A step of one of the processes. -/
def process (i : Nat) (enabled : HelperProcess → Bool) (f : HelperProcess → Option HelperProcess)
    (w : Controller) : Option Controller :=
  match w.processes[i]? with
  | none => none
  | some p => if enabled p then (f p).map fun q => { w with processes := w.processes.set i q } else none

/-- The controller acts until the program ends; each helper has the answers of
`SendInput` that are its own. -/
def step (o : Nat → Nat → Bool) (w : Controller) : ControllerLabel → Option Controller
  | .input line now starts => if w.locked ∨ w.ended then none else some (w.input line now starts)
  | .tick order now =>
      if w.helper.isSome ∧ w.pending = false ∧ w.lastInput + 3000 < now ∧ w.stopped = false ∧
          w.ended = false then some (w.input (some (releaseLine order)) now true)
      else none
  | .reply i =>
      match w.processes[i]? with
      | none => none
      | some p =>
          match p.replies with
          | [] => none
          | _ :: rest =>
              let w' := { w with processes := w.processes.set i { p with replies := rest } }
              if w.ended then none else some (if w.helper = some i then { w' with pending := false } else w')
  | .timeout =>
      if w.pending = false then none
      else some { w.onHelper fun p => p.drop.kill with pending := false, helper := none }
  | .lock =>
      if w.ended then none
      else some { w.onHelper fun p => p.drop.endInput with locked := true, helper := none }
  | .unlock => if w.ended then none else some { w with locked := false }
  | .gone i =>
      match w.processes[i]? with
      | none => none
      | some p =>
          if p.alive ∨ w.ended then none
          else some (if w.helper = some i then { w with pending := false, helper := none } else w)
  | .stop => if w.ended then none else some { w.onHelper (fun p => p.drop.endInput) with stopped := true }
  | .quit =>
      if w.ended then none
      else
        let w := w.onHelper .drop
        some { w with processes := w.processes.map .endInput, helper := none, pending := false, ended := true }
  | .work i order => w.process i (fun p => p.alive) fun p => p.work (o i) order
  | .finish i order =>
      w.process i (fun p => p.alive && p.closed && p.unread.isEmpty) fun p => some (p.exit (o i) order)
  -- a helper that has been told to end runs to its end
  | .crash i => w.process i (fun p => p.alive && !p.dropped) fun p => some p.kill

def system (o : Nat → Nat → Bool) : System Controller ControllerLabel where
  initial w := w = start
  step w l v := w.step o l = some v

/-- A helper given up while it ran has been told to end, and holds nothing once
it has ended. -/
def ReleasedDropped (w : Controller) : Prop :=
  ∀ (i : Nat) (p : HelperProcess), w.processes[i]? = some p → p.dropped = true →
    (p.alive = true → p.closed = true) ∧ (p.alive = false → ∀ c, held p.helper.log c = false)

/-- No late reply finds a helper that holds something down, and Windows takes
what lets go of something held. -/
def LetsGo (o : Nat → Nat → Bool) (w : Controller) : ControllerLabel → Prop
  | .timeout => ∀ (i : Nat) (p : HelperProcess), w.helper = some i → w.processes[i]? = some p → p.alive = true →
      ∀ c, held p.helper.log c = false
  | .work i order => ∀ p : HelperProcess, w.processes[i]? = some p →
      match p.unread with
      | some line :: _ => p.helper.Frees (o i) line
      | none :: _ => p.helper.FreesAll (o i) order
      | [] => True
  | .finish i order => ∀ p, w.processes[i]? = some p → p.helper.FreesAll (o i) order
  | _ => True

end Controller

/-! ### What every step keeps -/

/-- While it runs a process records what it holds; once given up it is told to
end, and has let go of everything when it has ended. -/
structure HelperProcess.Sound (p : HelperProcess) : Prop where
  covered : p.alive = true → p.helper.Covered
  told : p.dropped = true → p.alive = true → p.closed = true
  freed : p.dropped = true → p.alive = false → ∀ c, held p.helper.log c = false

namespace HelperProcess

variable {p q : HelperProcess} {o : Nat → Bool} {order : MapOrder}

theorem sound_spawn (starts : Bool) : (spawn starts).Sound where
  covered _ := fun c hc => by cases hc
  told hDropped := by cases hDropped
  freed hDropped := by cases hDropped

/-- A line written to the helper keeps the invariant of the process. -/
theorem Sound.write (h : p.Sound) (line : Option InputLine) : (p.write line).Sound := by
  unfold HelperProcess.write
  split
  · exact h
  · exact ⟨h.covered, h.told, h.freed⟩

theorem Sound.endInput (h : p.Sound) : p.endInput.Sound := ⟨h.covered, fun _ _ => rfl, h.freed⟩

/-- Given up and told to end. -/
theorem Sound.leave (h : p.Sound) : p.drop.endInput.Sound where
  covered := h.covered
  told _ _ := rfl
  freed hDropped hDead := by
    have hDead : p.alive = false := hDead
    have hEarlier : p.dropped = true := by simpa [HelperProcess.endInput, drop, hDead] using hDropped
    exact h.freed hEarlier hDead

/-- Given up and killed, with nothing held. -/
theorem Sound.kill (h : p.Sound) (hFree : p.alive = true → ∀ c, held p.helper.log c = false) :
    p.drop.kill.Sound where
  covered hAlive := by cases hAlive
  told _ hAlive := by cases hAlive
  freed hDropped _ := by
    cases hAlive : p.alive with
    | true => exact hFree hAlive
    | false =>
        have hEarlier : p.dropped = true := by simpa [HelperProcess.kill, drop, hAlive] using hDropped
        exact h.freed hEarlier hAlive

/-- A helper that exits has let go of what it held. -/
theorem Sound.exit (h : p.Sound) (hAlive : p.alive = true) (hFrees : p.helper.FreesAll o order) :
    (p.exit o order).Sound where
  covered hStill := by cases hStill
  told _ hStill := by cases hStill
  freed _ _ := released (h.covered hAlive) hFrees

/-- A process handles its next line, or comes to the end of its input. -/
theorem Sound.work (h : p.Sound) (hAlive : p.alive = true)
    (hFrees : match p.unread with
      | some line :: _ => p.helper.Frees o line
      | none :: _ => p.helper.FreesAll o order
      | [] => True) (hWork : p.work o order = some q) : q.Sound := by
  unfold HelperProcess.work at hWork
  split at hWork
  · next line rest hUnread =>
      rw [hUnread] at hFrees
      cases hWork
      exact ⟨fun _ => covered_handle (h.covered hAlive) hFrees, h.told, fun _ hDead =>
        absurd hAlive (Bool.eq_false_iff.mp hDead)⟩
  · next rest hUnread =>
      rw [hUnread] at hFrees
      cases hWork
      exact Sound.exit ⟨h.covered, h.told, h.freed⟩ hAlive hFrees
  · cases hWork

end HelperProcess

namespace Controller

variable {w v : Controller} {o : Nat → Nat → Bool}

def Sound (w : Controller) : Prop :=
  ∀ (i : Nat) (p : HelperProcess), w.processes[i]? = some p → p.Sound

/-- Only the helper in use is changed. -/
theorem getElem?_onHelper (f : HelperProcess → HelperProcess) (w : Controller) (j : Nat) :
    (w.onHelper f).processes[j]? =
      if w.helper = some j then w.processes[j]?.map f else w.processes[j]? := by
  unfold onHelper
  split
  · next hNone => simp [hNone]
  · next i hHelper =>
      rw [hHelper, List.getElem?_modify]
      by_cases hj : i = j
      · simp [hj]
      · simp [hj]

/-- A change of the helper in use that leaves it sound. -/
theorem Sound.onHelper (h : w.Sound) {f : HelperProcess → HelperProcess}
    (hf : ∀ (i : Nat) (p : HelperProcess), w.helper = some i → w.processes[i]? = some p → (f p).Sound) :
    (w.onHelper f).Sound := by
  intro i p hp
  rw [getElem?_onHelper] at hp
  split_ifs at hp with hHelper
  · obtain ⟨q, hq, rfl⟩ := Option.map_eq_some_iff.mp hp
    exact hf i q hHelper hq
  · exact h i p hp

/-- A step of a process that leaves it sound. -/
theorem Sound.set (h : w.Sound) (i : Nat) {q : HelperProcess} (hq : q.Sound) :
    Sound { w with processes := w.processes.set i q } := by
  intro j r hr
  rw [List.getElem?_set] at hr
  split_ifs at hr with hj hi
  · exact Option.some.inj hr ▸ hq
  · exact h j r hr

/-- A new helper holds nothing. -/
theorem Sound.spawn (h : w.Sound) (starts : Bool) : (w.spawn starts).Sound := by
  unfold Controller.spawn
  split
  · exact h
  · intro i p hp
    rcases Slots.getElem?_concat.mp hp with hOld | ⟨-, rfl⟩
    · exact h i p hOld
    · exact HelperProcess.sound_spawn starts

/-- Input keeps the invariant, a restart of the helper included. -/
theorem Sound.input (h : w.Sound) (line : Option InputLine) (now : Nat) (starts : Bool) :
    (w.input line now starts).Sound := by
  have hSpawn := h.spawn starts
  unfold Controller.input
  dsimp only
  split
  · exact hSpawn
  · exact hSpawn.onHelper fun i p _ hp => (hSpawn i p hp).write line

/-- A step of one process leaves the others as they are. -/
theorem Sound.process (h : w.Sound) {i : Nat} {enabled : HelperProcess → Bool}
    {f : HelperProcess → Option HelperProcess}
    (hf : ∀ p q, w.processes[i]? = some p → p.Sound → enabled p = true → f p = some q → q.Sound)
    (hStep : w.process i enabled f = some v) : v.Sound := by
  unfold Controller.process at hStep
  split at hStep
  · cases hStep
  · next p hp =>
      split_ifs at hStep with hEnabled
      obtain ⟨q, hq, rfl⟩ := Option.map_eq_some_iff.mp hStep
      exact h.set i (hf p q hp (h i p hp) hEnabled hq)

/-- An answer that is read changes nothing the helper holds. -/
theorem Sound.reply (h : w.Sound) {i : Nat} (hStep : w.step o (.reply i) = some v) : v.Sound := by
  simp only [Controller.step] at hStep
  split at hStep
  · cases hStep
  · next p hp =>
      split at hStep
      · cases hStep
      · next r rest hReplies =>
          have hp' := h i p hp
          have hRead := h.set i (q := { p with replies := rest }) ⟨hp'.covered, hp'.told, hp'.freed⟩
          simp only [Option.ite_none_left_eq_some, Option.some.injEq] at hStep
          obtain ⟨-, rfl⟩ := hStep
          split
          · exact hRead
          · exact hRead

/-- The end of the controller ends the input of every helper. -/
theorem Sound.quit (h : w.Sound) (hStep : w.step o .quit = some v) : v.Sound := by
  simp only [Controller.step, Option.ite_none_left_eq_some, Option.some.injEq] at hStep
  obtain ⟨-, rfl⟩ := hStep
  intro i p hp
  rw [List.getElem?_map, getElem?_onHelper] at hp
  obtain ⟨q, hq, rfl⟩ := Option.map_eq_some_iff.mp hp
  split_ifs at hq with hHelper
  · obtain ⟨r, hr, rfl⟩ := Option.map_eq_some_iff.mp hq
    exact (h i r hr).leave
  · exact (h i q hq).endInput

/-- Every step keeps what is known of all processes, those dropped included. -/
theorem Sound.step (h : w.Sound) {l : ControllerLabel} (hGuard : w.LetsGo o l)
    (hStep : w.step o l = some v) : v.Sound := by
  have hLeave : (w.onHelper fun p => p.drop.endInput).Sound :=
    h.onHelper fun i p _ hp => (h i p hp).leave
  cases l with
  | input line now starts =>
      simp only [Controller.step, Option.ite_none_left_eq_some, Option.some.injEq] at hStep
      obtain ⟨-, rfl⟩ := hStep
      exact h.input line now starts
  | tick order now =>
      simp only [Controller.step, Option.ite_none_right_eq_some, Option.some.injEq] at hStep
      obtain ⟨-, rfl⟩ := hStep
      exact h.input _ now true
  | reply i => exact h.reply hStep
  | timeout =>
      simp only [Controller.step, Option.ite_none_left_eq_some, Option.some.injEq] at hStep
      obtain ⟨-, rfl⟩ := hStep
      have hKill : (w.onHelper fun p => p.drop.kill).Sound :=
        h.onHelper fun i p hHelper hp => (h i p hp).kill (hGuard i p hHelper hp)
      exact hKill
  | lock =>
      simp only [Controller.step, Option.ite_none_left_eq_some, Option.some.injEq] at hStep
      obtain ⟨-, rfl⟩ := hStep
      exact hLeave
  | unlock =>
      simp only [Controller.step, Option.ite_none_left_eq_some, Option.some.injEq] at hStep
      obtain ⟨-, rfl⟩ := hStep
      exact h
  | gone i =>
      simp only [Controller.step] at hStep
      split at hStep
      · cases hStep
      · simp only [Option.ite_none_left_eq_some, Option.some.injEq] at hStep
        obtain ⟨-, rfl⟩ := hStep
        split
        · exact h
        · exact h
  | stop =>
      simp only [Controller.step, Option.ite_none_left_eq_some, Option.some.injEq] at hStep
      obtain ⟨-, rfl⟩ := hStep
      exact hLeave
  | quit => exact h.quit hStep
  | work i order =>
      exact h.process (fun p q hp hSound hAlive hWork => hSound.work hAlive (hGuard p hp) hWork) hStep
  | finish i order =>
      refine h.process (fun p q hp hSound hEnabled hExit => ?_) hStep
      simp only [Bool.and_eq_true] at hEnabled
      cases hExit
      exact hSound.exit hEnabled.1.1 (hGuard p hp)
  | crash i =>
      refine h.process (fun p q hp hSound hEnabled hKill => ?_) hStep
      simp only [Bool.and_eq_true, Bool.not_eq_true'] at hEnabled
      cases hKill
      refine ⟨fun hStill => ?_, fun _ hStill => ?_, fun hDropped => ?_⟩
      · cases hStill
      · cases hStill
      · exact absurd hDropped (Bool.eq_false_iff.mp hEnabled.2)

/-- The invariant in every reachable state. -/
theorem sound (h : Reachable ((system o).guarded (LetsGo o)) w) : w.Sound := by
  refine h.invariant (fun s hs => ?_) fun s l t hSound hStep => hSound.step hStep.1 hStep.2
  obtain rfl : s = start := hs
  intro i p hp
  cases hp

/-- As long as no late reply finds a helper with something held, every helper
that is given up lets go of everything. -/
theorem dropped_helpers_let_go (h : Reachable ((system o).guarded (LetsGo o)) w) : w.ReleasedDropped := by
  intro i p hp hDropped
  have hSound := sound h i p hp
  exact ⟨hSound.told hDropped, hSound.freed hDropped⟩

def pressA : Option InputLine := some ⟨.ok ⟨"key", 0, 0, 0, true, "KeyA", 0⟩, plainOrder⟩

/-- Windows takes every event. -/
def willing : Nat → Nat → Bool := fun _ _ => true

/-- The screen is locked while a key is down. -/
def lockedOut : List ControllerLabel :=
  [.input pressA 1 true, .work 0 plainOrder, .reply 0, .lock, .finish 0 plainOrder]

/-- A step that is no timeout. -/
def calmStep (w : Controller) : ControllerLabel → Option Controller
  | .timeout => none
  | l => w.step willing l

/-- While Windows takes every event and no timer fires, the condition holds at every
step. -/
theorem letsGo_calm {l : ControllerLabel} (h : w.calmStep l = some v) :
    w.LetsGo willing l ∧ w.step willing l = some v := by
  cases l with
  | timeout => cases h
  | work i order =>
      refine ⟨fun p hp => ?_, h⟩
      split
      · exact fun r hr => ⟨⟨fun _ _ _ => rfl, fun _ _ _ => rfl⟩, fun _ _ _ _ _ => rfl⟩
      · exact fun _ _ _ _ => rfl
      · trivial
  | finish i order => exact ⟨fun p hp _ _ _ _ => rfl, h⟩
  | _ => exact ⟨trivial, h⟩

/-- A lock drops the helper that holds a key; it lets go and exits. -/
theorem locked_out_lets_go : ∃ (w : Controller) (p : HelperProcess),
    w.processes[0]? = some p ∧ p.dropped = true ∧ p.alive = false ∧ p.helper.log.length = 2 ∧
      w.ReleasedDropped := by
  have hFollow : (follow calmStep start lockedOut).any (fun w =>
      w.processes[0]?.any fun p => p.dropped && !p.alive && p.helper.log.length == 2) = true := by
    decide +kernel
  obtain ⟨w, hRun, hEnd⟩ := (Option.any_eq_true _ _).mp hFollow
  obtain ⟨p, hp, hEnd⟩ := (Option.any_eq_true _ _).mp hEnd
  simp only [Bool.and_eq_true, Bool.not_eq_true', beq_iff_eq] at hEnd
  have hReach : Reachable ((system willing).guarded (LetsGo willing)) w :=
    ⟨start, lockedOut, rfl, runs_of_follow (fun _ _ _ hStep => letsGo_calm hStep) hRun⟩
  exact ⟨w, p, hp, hEnd.1.1, hEnd.1.2, hEnd.2, dropped_helpers_let_go hReach⟩

/-- With a key down, the answer to another press is late. -/
def lateReply : List ControllerLabel :=
  [.input pressA 1 true, .work 0 plainOrder, .reply 0, .input pressA 2 true, .timeout]

/-- The timer kills a helper in use that holds a key, and the key stays down. -/
theorem late_reply_leaves_key_down : ¬∀ (o : Nat → Nat → Bool) (w : Controller),
    Reachable (system o) w → w.ReleasedDropped := by
  intro hAll
  have hFollow : (follow (step willing) start lateReply).any (fun w => w.processes[0]?.any fun p =>
      p.dropped && !p.alive && held p.helper.log (.key 65)) = true := by decide +kernel
  obtain ⟨w, hRun, hEnd⟩ := (Option.any_eq_true _ _).mp hFollow
  obtain ⟨p, hp, hEnd⟩ := (Option.any_eq_true _ _).mp hEnd
  simp only [Bool.and_eq_true, Bool.not_eq_true'] at hEnd
  have hReach : Reachable (system willing) w :=
    ⟨start, lateReply, rfl, runs_of_follow (fun _ _ _ hStep => hStep) hRun⟩
  have hFree := (hAll willing w hReach 0 p hp hEnd.1.1).2 hEnd.1.2 (.key 65)
  rw [hEnd.2] at hFree
  cases hFree

end Controller
end NetConductor
