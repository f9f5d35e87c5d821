import NetConductor.Agent.Tunnel
import NetConductor.Semantics.History

/-! The recovery loop: when it attempts to bring the tunnel back, and how long
it leaves the tunnel alone after that. -/
namespace NetConductor
open History

/-- A value of the ticker, with what the loop finds when it comes: whether the
agent has joined a network, and whether `ensureTunnel` would fail. -/
structure RecoveryTick where
  now : Time
  joined : Bool
  failed : Bool

/-- A call of `ensureTunnel` from the loop. -/
structure RecoveryAttempt where
  time : Time
  failed : Bool
deriving DecidableEq

/-- The loop's backoff, with the attempts made so far. -/
structure RecoveryLoop where
  backoff : RecoveryBackoff
  attempts : List RecoveryAttempt

/-- How many attempts failed since the start or the last success. -/
def failures (log : List RecoveryAttempt) : Nat := (log.rtakeWhile RecoveryAttempt.failed).length

/-- The delay after so many failures in a row: doubled each time, and capped. -/
def backoffDelay : Nat → Time
  | 0 => 0
  | k + 1 => min (30 * 2 ^ k) 300 * second

/-- When the next attempt is due. -/
def dueAfter (log : List RecoveryAttempt) : Time :=
  match log.getLast? with
  | none => 0
  | some a => a.time + if a.failed then backoffDelay (failures log) else 30 * second

namespace RecoveryLoop

def start : RecoveryLoop := ⟨⟨0, 0⟩, []⟩

def tick (w : RecoveryLoop) (t : RecoveryTick) : RecoveryLoop :=
  if t.now < w.backoff.next then w
  else if t.joined = false then w
  else ⟨w.backoff.record t.now t.failed, w.attempts ++ [⟨t.now, t.failed⟩]⟩

def run (ticks : List RecoveryTick) : RecoveryLoop := ticks.foldl tick start

end RecoveryLoop

/-! ### The closed form -/

theorem backoffDelay_succ (k : Nat) : backoffDelay (k + 1) = min (30 * 2 ^ k) 300 * second := rfl

/-- Each delay is none at all or between thirty seconds and five minutes. -/
theorem backoffDelay_range (k : Nat) :
    backoffDelay k = 0 ∨ (30 * second ≤ backoffDelay k ∧ backoffDelay k ≤ 300 * second) := by
  cases k with
  | zero => exact .inl rfl
  | succ k =>
      have hPow : 1 ≤ 2 ^ k := Nat.one_le_two_pow
      have hLow : 30 ≤ min (30 * 2 ^ k) 300 := by omega
      have hHigh : min (30 * 2 ^ k) 300 ≤ 300 := Nat.min_le_right ..
      rw [backoffDelay_succ]
      exact .inr ⟨Nat.mul_le_mul_right second hLow, Nat.mul_le_mul_right second hHigh⟩

/-- The delay of one more failure, as `record` computes it. -/
theorem backoffDelay_next (k : Nat) :
    min (if backoffDelay k = 0 then 30 * second else backoffDelay k * 2) (5 * minute) =
      backoffDelay (k + 1) := by
  cases k with
  | zero => decide
  | succ k =>
      have hPow : 1 ≤ 2 ^ k := Nat.one_le_two_pow
      have hPositive : min (30 * 2 ^ k) 300 * second ≠ 0 := Nat.mul_ne_zero (by omega) (by decide)
      have hDouble : min (min (30 * 2 ^ k) 300 * 2) 300 = min (30 * 2 ^ (k + 1)) 300 := by
        rw [Nat.pow_succ]
        omega
      have hCap : 5 * minute = 300 * second := by decide
      calc min (if backoffDelay (k + 1) = 0 then 30 * second else backoffDelay (k + 1) * 2) (5 * minute)
          = min (min (30 * 2 ^ k) 300 * 2 * second) (300 * second) := by
            rw [backoffDelay_succ, if_neg hPositive, hCap, Nat.mul_right_comm]
        _ = min (min (30 * 2 ^ k) 300 * 2) 300 * second := (Nat.mul_min_mul_right ..)
        _ = backoffDelay (k + 1 + 1) := by rw [hDouble, backoffDelay_succ]

example : [1, 2, 3, 4, 5, 6].map backoffDelay = [30, 60, 120, 240, 300, 300].map (· * second) := by
  decide

theorem failures_success (log : List RecoveryAttempt) (time : Time) :
    failures (log ++ [⟨time, false⟩]) = 0 := by
  simp [failures]

theorem failures_failure (log : List RecoveryAttempt) (time : Time) :
    failures (log ++ [⟨time, true⟩]) = failures log + 1 := by
  simp [failures]

theorem dueAfter_attempt (log : List RecoveryAttempt) (a : RecoveryAttempt) :
    dueAfter (log ++ [a]) =
      a.time + if a.failed then backoffDelay (failures (log ++ [a])) else 30 * second := by
  simp [dueAfter]

/-- Where the backoff is that of the attempts so far, `record` makes it that of
one more. -/
theorem record_attempt {b : RecoveryBackoff} {log : List RecoveryAttempt}
    (h : b.delay = backoffDelay (failures log)) (time : Time) (failed : Bool) :
    b.record time failed =
      ⟨dueAfter (log ++ [⟨time, failed⟩]), backoffDelay (failures (log ++ [⟨time, failed⟩]))⟩ := by
  rw [dueAfter_attempt]
  cases failed with
  | false =>
      rw [failures_success]
      simp only [RecoveryBackoff.record, if_true, Bool.false_eq_true, if_false, backoffDelay]
  | true =>
      rw [failures_failure, ← backoffDelay_next, ← h]
      simp only [RecoveryBackoff.record, reduceCtorEq, if_false, if_true]

namespace RecoveryLoop

variable {w : RecoveryLoop}

/-- The backoff says when the next attempt is due, and no attempt came before it
was due. -/
structure Paced (w : RecoveryLoop) : Prop where
  next : w.backoff.next = dueAfter w.attempts
  delay : w.backoff.delay = backoffDelay (failures w.attempts)
  log : Lawful (fun before a => dueAfter before ≤ a.time) w.attempts

theorem paced_start : start.Paced := ⟨rfl, rfl, .nil⟩

theorem tick_early {t : RecoveryTick} (h : t.now < w.backoff.next) : w.tick t = w := by
  rw [tick, if_pos h]

/-- One tick of the timer keeps the pace. -/
theorem Paced.tick (h : w.Paced) (t : RecoveryTick) : (w.tick t).Paced := by
  unfold RecoveryLoop.tick
  split_ifs with hEarly hJoined
  · exact h
  · exact h
  · have hRecord := record_attempt h.delay t.now t.failed
    refine ⟨by rw [hRecord], by rw [hRecord], .snoc h.log ?_⟩
    exact h.next ▸ Nat.le_of_not_lt hEarly

/-- Any number of ticks keeps the pace. -/
theorem Paced.ticks (h : w.Paced) (ticks : List RecoveryTick) :
    (ticks.foldl RecoveryLoop.tick w).Paced := by
  induction ticks generalizing w with
  | nil => exact h
  | cons t rest ih => exact ih (h.tick t)

/-- For every history of the loop: an attempt is made only when it is due, and
the delay before the next is doubled with each failure in a row, from half a
minute to five minutes. -/
theorem recovery_paced (ticks : List RecoveryTick) :
    let w := run ticks
    (∀ t, t.now < w.backoff.next → w.tick t = w) ∧
      Lawful (fun before a => dueAfter before ≤ a.time) w.attempts ∧
      (failures w.attempts = 0 → w.backoff.delay = 0) ∧
      (∀ k, failures w.attempts = k + 1 → w.backoff.delay = min (30 * 2 ^ k) 300 * second) ∧
      (∀ a, w.attempts.getLast? = some a →
        w.backoff.next = a.time + if a.failed then w.backoff.delay else 30 * second) ∧
      (w.backoff.delay = 0 ∨ (30 * second ≤ w.backoff.delay ∧ w.backoff.delay ≤ 300 * second)) := by
  intro w
  have hPaced : w.Paced := paced_start.ticks ticks
  refine ⟨fun t => tick_early, hPaced.log, fun hNone => ?_, fun k hSome => ?_, fun a hLast => ?_, ?_⟩
  · rw [hPaced.delay, hNone]
    rfl
  · rw [hPaced.delay, hSome]
    rfl
  · rw [hPaced.next, hPaced.delay, dueAfter, hLast]
  · rw [hPaced.delay]
    exact backoffDelay_range (failures w.attempts)

end RecoveryLoop

/-! ### The loop beside the other users of the tunnel -/

namespace TunnelAgent

/-- The ticks in the labels of a run, with what the loop finds at each. -/
def ticks (w : TunnelAgent) : List TunnelLabel → List RecoveryTick
  | [] => []
  | .recovery now o :: rest =>
      ⟨now, w.settings.id ≠ "", !(Agent.ensureTunnel o w.settings).2⟩ ::
        (w.step (.recovery now o)).ticks rest
  | l :: rest => (w.step l).ticks rest

/-- A tick of the agent is a tick of the loop, with what the tunnel gives as its oracle.
-/
theorem step_recovery_backoff (w : TunnelAgent) (now : Time) (o : RecoveryOutcome)
    (log : List RecoveryAttempt) :
    ∃ log', RecoveryLoop.tick ⟨w.backoff, log⟩
        ⟨now, w.settings.id ≠ "", !(Agent.ensureTunnel o w.settings).2⟩ =
      ⟨(w.step (.recovery now o)).backoff, log'⟩ := by
  by_cases hEarly : now < w.backoff.next
  · exact ⟨log, by simp [RecoveryLoop.tick, step, hEarly]⟩
  · by_cases hJoined : w.settings.id = ""
    · exact ⟨log, by simp [RecoveryLoop.tick, step, hEarly, hJoined]⟩
    · exact ⟨log ++ [⟨now, !(Agent.ensureTunnel o w.settings).2⟩], by
        simp [RecoveryLoop.tick, step, hEarly, hJoined]⟩

/-- Only the recovery touches the backoff. -/
theorem step_backoff (w : TunnelAgent) {l : TunnelLabel} (h : ∀ now o, l ≠ .recovery now o) :
    (w.step l).backoff = w.backoff := by
  cases l with
  | join o body fetched saved install =>
      simp only [step]
      split <;> rfl
  | repair o => rfl
  | recovery now o => exact absurd rfl (h now o)

/-- Whatever else is done to the tunnel, the backoff is the loop's. -/
theorem backoff_follows (w : TunnelAgent) (labels : List TunnelLabel) (log : List RecoveryAttempt) :
    (labels.foldl step w).backoff = ((w.ticks labels).foldl RecoveryLoop.tick ⟨w.backoff, log⟩).backoff := by
  induction labels generalizing w log with
  | nil => rfl
  | cons l rest ih =>
      cases l with
      | recovery now o =>
          obtain ⟨log', hTick⟩ := w.step_recovery_backoff now o log
          rw [List.foldl_cons, ih _ log', ticks, List.foldl_cons, hTick]
      | join o body fetched saved install =>
          have hSame := w.step_backoff (l := .join o body fetched saved install) (by simp)
          rw [List.foldl_cons, ih _ log, hSame]
          rfl
      | repair o =>
          rw [List.foldl_cons, ih _ log]
          rfl

end TunnelAgent

end NetConductor
