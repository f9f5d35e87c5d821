import NetConductor.Core.Model
import NetConductor.Semantics.Sources
import NetConductor.Semantics.Transition

/-! Two connections joined: a copy in each direction, one of them in a
goroutine, and fifteen seconds for that one when the other has ended. -/
namespace NetConductor
open Sources Source Transition

/-- `Bridge(a, b)` under way. `deadline` is that of `time.After`, once the copy to
`b` is over and its half-close done; `done` is the channel. -/
structure Bridge (σ τ : Type) where
  now : Time
  toB : Copying σ UInt8
  toA : Copying τ UInt8
  deadline : Option Time
  done : Bool
  returned : Bool

inductive BridgeLabel where
  | tick (now : Time)
  | toB (act : CopyAction)
  | toA (act : CopyAction)
  | closeB
  | closeA
  | join
  | expire
deriving DecidableEq

namespace Bridge

variable {σ τ : Type} [Source σ UInt8] [Source τ UInt8]

def start (a : σ) (b : τ) (now : Time) : Bridge σ τ :=
  ⟨now, .start a, .start b, none, false, false⟩

/-- When it returns, both connections are closed, and the other copy only fails. -/
def step (w : Bridge σ τ) : BridgeLabel → Option (Bridge σ τ)
  | .tick now => if w.now ≤ now then some { w with now := now } else none
  | .toB act => (w.toB.act act).map fun c => { w with toB := c }
  | .toA act =>
      if w.returned = true ∧ act ≠ .fail then none
      else (w.toA.act act).map fun c => { w with toA := c }
  | .closeB =>
      if w.toB.status ≠ .copying ∧ w.deadline = none then
        some { w with deadline := some (w.now + 15 * second) }
      else none
  | .closeA =>
      if w.toA.status ≠ .copying ∧ w.done = false then some { w with done := true } else none
  | .join =>
      if w.deadline ≠ none ∧ w.done = true ∧ w.returned = false then some { w with returned := true }
      else none
  | .expire =>
      match w.deadline with
      | none => none
      | some t => if t ≤ w.now ∧ w.returned = false then some { w with returned := true } else none

/-- All runs of `Bridge(a, b)`. -/
def system (a : σ) (b : τ) : System (Bridge σ τ) BridgeLabel where
  initial w := ∃ now, w = start a b now
  step w l v := w.step l = some v

/-- No connection fails while `Bridge` has it open. -/
def NoError (w : Bridge σ τ) : BridgeLabel → Prop
  | .toB .fail => False
  | .toA .fail => w.returned = true
  | _ => True

/-- The fifteen seconds do not end while the copy to `a` has something to do. -/
def InTime (w : Bridge σ τ) : BridgeLabel → Prop
  | .expire => w.toA.Drained
  | _ => True

/-- Each side has got all that the other one sent. -/
def Complete (a : σ) (b : τ) (w : Bridge σ τ) : Prop :=
  w.toB.delivered = rest a ∧ w.toA.delivered = rest b

/-- `Bridge` has not returned before each side had got all. -/
def Untruncated (a : σ) (b : τ) (w : Bridge σ τ) : Prop := w.returned = true → w.Complete a b

/-- Whatever happens, nothing is lost on the way. -/
structure Conserves (a : σ) (b : τ) (w : Bridge σ τ) : Prop where
  toB : w.toB.Conserves (rest a)
  toA : w.toA.Conserves (rest b)

/-- Where the two sides are, as long as no connection fails. -/
structure Sound (a : σ) (b : τ) (w : Bridge σ τ) : Prop extends Conserves a b w where
  toBRuns : w.toB.status = .copying ∨ w.toB.status = .ended
  toARuns : w.returned = false → w.toA.status = .copying ∨ w.toA.status = .ended
  waits : w.deadline ≠ none → w.toB.status = .ended
  closed : w.returned = false → w.done = true → w.toA.status = .ended
  late : w.returned = true → w.deadline ≠ none

variable {a : σ} {b : τ} {w v : Bridge σ τ} {l : BridgeLabel}

/-- The bridge expires at its deadline, not before. -/
theorem expire_cases (hStep : w.step .expire = some v) :
    ∃ t, w.deadline = some t ∧ t ≤ w.now ∧ w.returned = false ∧ v = { w with returned := true } := by
  simp only [step] at hStep
  split at hStep
  next => cases hStep
  next t hDeadline =>
    split_ifs at hStep with hReady
    cases hStep
    exact ⟨t, hDeadline, hReady.1, hReady.2, rfl⟩

/-- Bytes move from one end to the other, or stay; errors and deadlines lose none of
those delivered. -/
theorem Conserves.step (h : w.Conserves a b) (hStep : w.step l = some v) : v.Conserves a b := by
  cases l with
  | tick now =>
      simp only [Bridge.step] at hStep
      split_ifs at hStep
      cases hStep
      exact ⟨h.toB, h.toA⟩
  | toB act =>
      obtain ⟨c, hAct, rfl⟩ := Option.map_eq_some_iff.mp hStep
      exact ⟨h.toB.act hAct, h.toA⟩
  | toA act =>
      simp only [Bridge.step] at hStep
      split_ifs at hStep
      obtain ⟨c, hAct, rfl⟩ := Option.map_eq_some_iff.mp hStep
      exact ⟨h.toB, h.toA.act hAct⟩
  | closeB | closeA | join =>
      simp only [Bridge.step] at hStep
      split_ifs at hStep
      cases hStep
      exact ⟨h.toB, h.toA⟩
  | expire =>
      obtain ⟨t, -, -, -, rfl⟩ := expire_cases hStep
      exact ⟨h.toB, h.toA⟩

theorem conserves_start (a : σ) (b : τ) (now : Time) : (start a b now).Conserves a b :=
  ⟨Copying.conserves_start a, Copying.conserves_start b⟩

/-- In every run, errors or not. -/
theorem conserves (h : Reachable (system a b) w) : w.Conserves a b := by
  refine h.invariant (fun s hs => ?_) fun s l t hs hStep => hs.step hStep
  obtain ⟨now, rfl⟩ := hs
  exact conserves_start a b now

/-- A deadline that is set stays as it is. -/
theorem deadline_step {t : Time} (hDeadline : w.deadline = some t) (hStep : w.step l = some v) :
    v.deadline = some t := by
  cases l with
  | toB act =>
      obtain ⟨c, -, rfl⟩ := Option.map_eq_some_iff.mp hStep
      exact hDeadline
  | toA act =>
      simp only [Bridge.step] at hStep
      split_ifs at hStep
      obtain ⟨c, -, rfl⟩ := Option.map_eq_some_iff.mp hStep
      exact hDeadline
  | closeB =>
      -- the half-close is done once
      simp only [Bridge.step] at hStep
      split_ifs at hStep with hFirst
      exact absurd (hFirst.2.symm.trans hDeadline) (by simp)
  | tick | closeA | join =>
      simp only [Bridge.step] at hStep
      split_ifs at hStep
      cases hStep
      exact hDeadline
  | expire =>
      obtain ⟨u, -, -, -, rfl⟩ := expire_cases hStep
      exact hDeadline

/-- The copy to `a` has fifteen seconds from the half-close to `b`, whatever comes in
between. -/
theorem expire_after (hClose : w.step .closeB = some v) {labels : List BridgeLabel}
    {u u' : Bridge σ τ} (run : Runs (system a b) v labels u) (hExpire : u.step .expire = some u') :
    w.now + 15 * second ≤ u.now := by
  have hSet : v.deadline = some (w.now + 15 * second) := by
    simp only [Bridge.step] at hClose
    split_ifs at hClose
    cases hClose
    rfl
  have hKept : u.deadline = some (w.now + 15 * second) :=
    run.preserves (I := fun x => x.deadline = some (w.now + 15 * second))
      (fun _ _ _ hDeadline hStep => deadline_step hDeadline hStep) hSet
  obtain ⟨t, hDeadline, hLate, -, -⟩ := expire_cases hExpire
  obtain rfl := Option.some.inj (hDeadline.symm.trans hKept)
  exact hLate

/-! ### Without an error -/

/-- The runs in which no connection fails. -/
abbrev errorFree (a : σ) (b : τ) : System (Bridge σ τ) BridgeLabel := (system a b).guarded NoError

/-- A bridge that starts has copied nothing. -/
theorem sound_start (a : σ) (b : τ) (now : Time) : (start a b now).Sound a b where
  toConserves := conserves_start a b now
  toBRuns := .inl rfl
  toARuns := fun _ => .inl rfl
  waits := fun h => absurd rfl h
  closed := fun _ h => by cases h
  late := fun h => by cases h

/-- Without an error a copy is over only at the end of its stream. -/
theorem Sound.step (h : w.Sound a b) (hStep : (errorFree a b).step w l v) : v.Sound a b := by
  obtain ⟨hNoError, hStep⟩ := hStep
  have hConserves := h.toConserves.step hStep
  change w.step l = some v at hStep
  cases l with
  | tick now =>
      simp only [Bridge.step] at hStep
      split_ifs at hStep
      cases hStep
      exact ⟨hConserves, h.toBRuns, h.toARuns, h.waits, h.closed, h.late⟩
  | toB act =>
      obtain ⟨c, hAct, rfl⟩ := Option.map_eq_some_iff.mp hStep
      have hNoFail : act ≠ .fail := by
        rintro rfl
        exact hNoError
      refine ⟨hConserves, Copying.act_status hNoFail hAct, h.toARuns, fun hWaits => ?_, h.closed, h.late⟩
      have hOver : w.toB.status ≠ .copying := by simp [h.waits hWaits]
      rw [Copying.act_of_over hOver] at hAct
      cases hAct
  | toA act =>
      simp only [Bridge.step] at hStep
      split_ifs at hStep with hClosed
      obtain ⟨c, hAct, rfl⟩ := Option.map_eq_some_iff.mp hStep
      refine ⟨hConserves, h.toBRuns, fun hOpen => ?_, h.waits, fun hOpen hDone => ?_, h.late⟩
      · refine Copying.act_status (fun hFail => ?_) hAct
        subst hFail
        exact Bool.noConfusion (hOpen.symm.trans hNoError)
      · have hOver : w.toA.status ≠ .copying := by simp [h.closed hOpen hDone]
        rw [Copying.act_of_over hOver] at hAct
        cases hAct
  | closeB =>
      simp only [Bridge.step] at hStep
      split_ifs at hStep with hReady
      cases hStep
      exact ⟨hConserves, h.toBRuns, h.toARuns, fun _ => h.toBRuns.resolve_left hReady.1, h.closed,
        fun _ => by simp⟩
  | closeA =>
      simp only [Bridge.step] at hStep
      split_ifs at hStep with hReady
      cases hStep
      exact ⟨hConserves, h.toBRuns, h.toARuns, h.waits,
        fun hOpen _ => (h.toARuns hOpen).resolve_left hReady.1, h.late⟩
  | join =>
      simp only [Bridge.step] at hStep
      split_ifs at hStep with hReady
      cases hStep
      exact ⟨hConserves, h.toBRuns, fun hOpen => (nomatch hOpen), h.waits, fun hOpen => (nomatch hOpen),
        fun _ => hReady.1⟩
  | expire =>
      obtain ⟨t, hDeadline, -, -, rfl⟩ := expire_cases hStep
      exact ⟨hConserves, h.toBRuns, fun hOpen => (nomatch hOpen), h.waits, fun hOpen => (nomatch hOpen),
        fun _ => by simp [hDeadline]⟩

/-- What has come to the side `b`, once the half-close towards it is done. -/
theorem Sound.sent (h : w.Sound a b) (hDeadline : w.deadline ≠ none) : w.toB.delivered = rest a :=
  h.toB.drained_iff.mp (h.toB.ended (h.waits hDeadline))

/-- One step truncates nothing exactly when it is in time. -/
theorem untruncated_step (h : w.Sound a b) (hStep : (errorFree a b).step w l v) :
    v.Untruncated a b ↔ w.Untruncated a b ∧ w.InTime l := by
  have hSound := h.step hStep
  obtain ⟨hNoError, hStep⟩ := hStep
  change w.step l = some v at hStep
  cases l with
  | tick now =>
      simp only [Bridge.step] at hStep
      split_ifs at hStep
      cases hStep
      simp [Untruncated, Complete, InTime]
  | toB act =>
      obtain ⟨c, hAct, rfl⟩ := Option.map_eq_some_iff.mp hStep
      have hOpen : w.returned = false := by
        refine Bool.eq_false_iff.mpr fun hReturned => ?_
        have hOver : w.toB.status ≠ .copying := by simp [h.waits (h.late hReturned)]
        rw [Copying.act_of_over hOver] at hAct
        cases hAct
      simp [Untruncated, InTime, hOpen]
  | toA act =>
      simp only [Bridge.step] at hStep
      split_ifs at hStep with hClosed
      obtain ⟨c, hAct, rfl⟩ := Option.map_eq_some_iff.mp hStep
      cases hReturned : w.returned with
      | false => simp [Untruncated, InTime, hReturned]
      | true =>
          have hFail : act = .fail := by simpa [hReturned] using hClosed
          have hSame : c.delivered = w.toA.delivered := by
            rw [hFail, Copying.act] at hAct
            split_ifs at hAct
            cases hAct
            rfl
          simp [Untruncated, Complete, InTime, hSame, hReturned]
  | closeB | closeA =>
      simp only [Bridge.step] at hStep
      split_ifs at hStep
      cases hStep
      simp [Untruncated, Complete, InTime]
  | join =>
      simp only [Bridge.step] at hStep
      split_ifs at hStep with hReady
      cases hStep
      obtain ⟨hDeadline, hDone, hOpen⟩ := hReady
      have hDrained := h.toA.ended (h.closed hOpen hDone)
      have hAll : w.Complete a b := ⟨h.sent hDeadline, h.toA.drained_iff.mp hDrained⟩
      exact iff_of_true (fun _ => hAll) ⟨fun _ => hAll, trivial⟩
  | expire =>
      obtain ⟨t, hDeadline, -, hOpen, rfl⟩ := expire_cases hStep
      have hSent := h.sent (by simp [hDeadline])
      have hDrained : w.InTime .expire ↔ w.toA.delivered = rest b := h.toA.drained_iff
      rw [hDrained]
      simp [Untruncated, Complete, hOpen, hSent]

/-- The runs in which also the fifteen seconds never cut anything off. -/
abbrev inTime (a : σ) (b : τ) : System (Bridge σ τ) BridgeLabel := (errorFree a b).guarded InTime

theorem inTime_step (hStep : w.step l = some v) (hNoError : w.NoError l) (hInTime : w.InTime l) :
    (inTime a b).step w l v := ⟨hInTime, hNoError, hStep⟩

/-- What the copy to `b` can do, `Bridge` can do. -/
theorem runs_toB {c : Copying σ UInt8} (hGoes : Relation.ReflTransGen Copying.Goes w.toB c) :
    ∃ labels, Runs (inTime a b) w labels { w with toB := c } := by
  induction hGoes with
  | refl => exact ⟨[], Runs.nil w⟩
  | tail _ hLast ih =>
      obtain ⟨labels, hRun⟩ := ih
      obtain ⟨act, hNoFail, hAct⟩ := hLast
      refine ⟨labels ++ [.toB act], hRun.snoc (inTime_step (l := .toB act)
        (Option.map_eq_some_iff.mpr ⟨_, hAct, rfl⟩) ?_ trivial)⟩
      cases act with
      | fail => exact hNoFail rfl
      | read n | write n => exact trivial

/-- While the bridge is open the copy to `a` can go on as it would alone. -/
theorem runs_toA (hOpen : w.returned = false) {c : Copying τ UInt8}
    (hGoes : Relation.ReflTransGen Copying.Goes w.toA c) :
    ∃ labels, Runs (inTime a b) w labels { w with toA := c } := by
  induction hGoes with
  | refl => exact ⟨[], Runs.nil w⟩
  | @tail middle d _ hLast ih =>
      obtain ⟨labels, hRun⟩ := ih
      obtain ⟨act, hNoFail, hAct⟩ := hLast
      have hClosed : ¬(w.returned = true ∧ act ≠ .fail) := by simp [hOpen]
      have hStep : Bridge.step { w with toA := middle } (.toA act) = some { w with toA := d } :=
        (if_neg hClosed).trans (Option.map_eq_some_iff.mpr ⟨d, hAct, rfl⟩)
      refine ⟨labels ++ [.toA act], hRun.snoc (inTime_step hStep ?_ ?_)⟩
      swap
      · exact trivial
      cases act with
      | fail => exact absurd rfl hNoFail
      | read n | write n => exact trivial

/-- When both streams have ended the bridge can return. -/
theorem runs_close (hB : w.toB.status = .ended) (hA : w.toA.status = .ended)
    (hOpen : w.returned = false) :
    ∃ labels v, Runs (inTime a b) w labels v ∧ v.returned = true ∧ v.toA = w.toA := by
  have hHalf : ∃ labels v, Runs (inTime a b) w labels v ∧ v.deadline ≠ none ∧ v.toA = w.toA ∧
      v.done = w.done ∧ v.returned = false := by
    by_cases hDeadline : w.deadline = none
    · have hStep : w.step .closeB = some { w with deadline := some (w.now + 15 * second) } :=
        if_pos ⟨by simp [hB], hDeadline⟩
      exact ⟨_, _, .single (inTime_step hStep trivial trivial), by simp, rfl, rfl, hOpen⟩
    · exact ⟨[], w, .nil w, hDeadline, rfl, rfl, hOpen⟩
  obtain ⟨first, u, hFirst, hDeadline, hSame, hDone, hOpen⟩ := hHalf
  have hBoth : ∃ labels v, Runs (inTime a b) u labels v ∧ v.deadline ≠ none ∧ v.toA = u.toA ∧
      v.done = true ∧ v.returned = false := by
    cases hDone : u.done with
    | false =>
        have hStep : u.step .closeA = some { u with done := true } :=
          if_pos ⟨by simp [hSame, hA], hDone⟩
        exact ⟨_, _, .single (inTime_step hStep trivial trivial), hDeadline, rfl, rfl, hOpen⟩
    | true => exact ⟨[], u, .nil u, hDeadline, rfl, hDone, hOpen⟩
  obtain ⟨second, v, hSecond, hDeadline, hSame', hDone, hOpen⟩ := hBoth
  have hStep : v.step .join = some { v with returned := true } := if_pos ⟨hDeadline, hDone, hOpen⟩
  exact ⟨_, _, (hFirst.trans hSecond).snoc (inTime_step hStep trivial trivial), rfl, hSame'.trans hSame⟩

/-- A copy that is not broken can run to its end. -/
theorem exists_ended {ρ : Type} [Source ρ UInt8] {c : Copying ρ UInt8}
    (hRuns : c.status = .copying ∨ c.status = .ended) :
    ∃ d, Relation.ReflTransGen Copying.Goes c d ∧ d.status = .ended := by
  rcases hRuns with hCopying | hEnded
  · exact Copying.exists_ended hCopying
  · exact ⟨c, .refl, hEnded⟩

/-- As long as it has not returned, it can go on until each side has got all. -/
theorem Sound.can_complete (h : w.Sound a b) (hOpen : w.returned = false) :
    ∃ labels v, Runs (inTime a b) w labels v ∧ v.returned = true ∧ v.Complete a b := by
  obtain ⟨c, hGoesB, hB⟩ := exists_ended h.toBRuns
  obtain ⟨d, hGoesA, hA⟩ := exists_ended (h.toARuns hOpen)
  obtain ⟨first, hFirst⟩ := runs_toB (a := a) (b := b) hGoesB
  obtain ⟨second, hSecond⟩ := runs_toA (a := a) (b := b) (w := { w with toB := c }) hOpen hGoesA
  obtain ⟨last, v, hLast, hReturned, hSame⟩ :=
    runs_close (a := a) (b := b) (w := { w with toB := c, toA := d }) hB hA hOpen
  have hRun := (hFirst.trans hSecond).trans hLast
  have hSound : v.Sound a b := hRun.of_guarded.preserves (fun _ _ _ hs hStep => hs.step hStep) h
  refine ⟨_, v, hRun, hReturned, hSound.sent (hSound.late hReturned), ?_⟩
  have hEnded : v.toA.status = .ended := by rw [hSame]; exact hA
  exact hSound.toA.drained_iff.mp (hSound.toA.ended hEnded)

/-- For all streams, however they are cut and whatever the pace: in a run without
errors `Bridge` truncates nothing exactly when the fifteen seconds never end while
the copy from `b` to `a` has something to do. Until it returns, it can go on until
each side has got all. -/
theorem bridge_untruncated_iff {now : Time} {labels : List BridgeLabel}
    (hRun : Runs (errorFree a b) (start a b now) labels w) :
    (w.Untruncated a b ↔ Runs (inTime a b) (start a b now) labels w) ∧
    (w.returned = false →
      ∃ more v, Runs (inTime a b) w more v ∧ v.returned = true ∧ v.Complete a b) := by
  have hSound : w.Sound a b :=
    hRun.preserves (fun _ _ _ hs hStep => hs.step hStep) (sound_start a b now)
  refine ⟨?_, hSound.can_complete⟩
  refine hRun.guarded_iff (fun s l t u ht hu => ?_) (fun s l t hs hStep => hs.step hStep)
    (fun s l t hs hStep => untruncated_step hs hStep) (sound_start a b now) (fun h => by cases h)
  exact Option.some.inj (ht.2.symm.trans hu.2)

/-- A step in which nothing fails. -/
def stepQuietly (w : Bridge σ τ) (l : BridgeLabel) : Option (Bridge σ τ) :=
  if l = .toB .fail ∨ l = .toA .fail then none else w.step l

/-- A run that is followed without an error is one of the runs without an error. -/
theorem errorFree_of_follow {labels : List BridgeLabel} (h : follow stepQuietly w labels = some v) :
    Runs (errorFree a b) w labels v := by
  refine runs_of_follow (fun s l t hStep => ?_) h
  unfold stepQuietly at hStep
  split_ifs at hStep with hFail
  obtain ⟨hToB, hToA⟩ := not_or.mp hFail
  refine ⟨?_, hStep⟩
  cases l with
  | toB act =>
      cases act with
      | fail => exact hToB rfl
      | read n | write n => exact trivial
  | toA act =>
      cases act with
      | fail => exact absurd rfl hToA
      | read n | write n => exact trivial
  | tick now | closeB | closeA | join | expire => exact trivial

/-- The side `a` asks and ends its stream; the answer comes five seconds later. -/
def answered : List BridgeLabel :=
  [.toB (.read 32768), .toB (.write 1), .toB (.read 32768), .closeB, .tick (5 * second),
    .toA (.read 32768), .toA (.write 1), .toA (.read 32768), .closeA, .join]

theorem answered_untruncated :
    ∃ w : Bridge (Segments UInt8) (Segments UInt8), w.returned = true ∧
      Runs (inTime ⟨[[1]]⟩ ⟨[[2]]⟩) (start ⟨[[1]]⟩ ⟨[[2]]⟩ 0) answered w := by
  have hRun : ((follow stepQuietly (start (⟨[[1]]⟩ : Segments UInt8) (⟨[[2]]⟩ : Segments UInt8) 0)
      answered).any fun w => decide (w.returned = true ∧ w.toB.delivered = [1] ∧
        w.toA.delivered = [2])) = true := by decide +kernel
  obtain ⟨w, hFollow, hEnd⟩ := (Option.any_eq_true _ _).mp hRun
  obtain ⟨hReturned, hAll⟩ := of_decide_eq_true hEnd
  exact ⟨w, hReturned, (bridge_untruncated_iff (errorFree_of_follow hFollow)).1.mp fun _ => hAll⟩

/-- The same answer takes twenty seconds. -/
def cutOff : List BridgeLabel :=
  [.toB (.read 32768), .toB (.write 1), .toB (.read 32768), .closeB, .tick (15 * second), .expire,
    .tick (20 * second)]

/-- What comes after the fifteen seconds is lost. -/
theorem answer_cutOff : ¬∀ (a b : Segments UInt8) (now : Time) (labels : List BridgeLabel)
    (w : Bridge (Segments UInt8) (Segments UInt8)),
    Runs (errorFree a b) (start a b now) labels w → w.Untruncated a b := by
  intro hAll
  have hRun : ((follow stepQuietly (start (⟨[[1]]⟩ : Segments UInt8) (⟨[[2]]⟩ : Segments UInt8) 0)
      cutOff).any fun w => decide (w.returned = true ∧ w.toA.delivered ≠ [2])) = true := by
    decide +kernel
  obtain ⟨w, hFollow, hEnd⟩ := (Option.any_eq_true _ _).mp hRun
  obtain ⟨hReturned, hCut⟩ := of_decide_eq_true hEnd
  exact hCut (hAll _ _ 0 cutOff w (errorFree_of_follow hFollow) hReturned).2

end Bridge
end NetConductor
