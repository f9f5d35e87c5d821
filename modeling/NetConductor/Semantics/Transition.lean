import Mathlib.Logic.Relation

/-! Labelled transition systems over arbitrary states and labels: finite runs,
reachable states, the rule that turns a step lemma into a run lemma, runs
whose every step passes a guard, and forward simulation between two levels. -/
namespace Transition

/-- Initial states and labelled steps. The label carries every choice that
the environment makes in the step. -/
structure System (State Label : Type*) where
  initial : State → Prop
  step : State → Label → State → Prop

variable {State Label : Type*}

/-- A finite run, with the labels of its steps in order. -/
inductive Runs (M : System State Label) : State → List Label → State → Prop where
  | nil (s : State) : Runs M s [] s
  | snoc {s t u : State} {labels : List Label} {l : Label}
      (prior : Runs M s labels t) (last : M.step t l u) : Runs M s (labels ++ [l]) u

def Reachable (M : System State Label) (s : State) : Prop :=
  ∃ start labels, M.initial start ∧ Runs M start labels s

variable {M : System State Label}

theorem Runs.single {s t : State} {l : Label} (h : M.step s l t) : Runs M s [l] t :=
  Runs.snoc (Runs.nil s) h

/-- Two runs make one. -/
theorem Runs.trans {s t u : State} {first second : List Label}
    (left : Runs M s first t) (right : Runs M t second u) : Runs M s (first ++ second) u := by
  induction right with
  | nil => simpa using left
  | snoc prior last ih =>
      rw [← List.append_assoc]
      exact Runs.snoc ih last

/-- The last step of a run that has one. -/
theorem Runs.unsnoc {s u : State} {labels : List Label} {l : Label}
    (run : Runs M s (labels ++ [l]) u) : ∃ t, Runs M s labels t ∧ M.step t l u := by
  generalize hLabels : labels ++ [l] = all at run
  cases run with
  | nil => simp at hLabels
  | snoc prior last =>
      obtain ⟨rfl, hLast⟩ := List.append_inj' hLabels rfl
      obtain rfl := List.singleton_inj.mp hLast
      exact ⟨_, prior, last⟩

/-- Where a step has one outcome, so has a run. -/
theorem Runs.unique (hStep : ∀ s l t u, M.step s l t → M.step s l u → t = u)
    {s t u : State} {labels : List Label} (run : Runs M s labels t) (other : Runs M s labels u) :
    t = u := by
  induction run generalizing u with
  | nil =>
      generalize hLabels : ([] : List Label) = all at other
      cases other with
      | nil => rfl
      | snoc prior last => simp at hLabels
  | snoc prior last ih =>
      obtain ⟨middle, otherPrior, otherLast⟩ := other.unsnoc
      obtain rfl := ih otherPrior
      exact hStep _ _ _ _ last otherLast

/-- What one step preserves, a run preserves. -/
theorem Runs.preserves {I : State → Prop}
    (hStep : ∀ s l t, I s → M.step s l t → I t)
    {s t : State} {labels : List Label} (run : Runs M s labels t) (hs : I s) : I t := by
  induction run with
  | nil => exact hs
  | snoc prior last ih => exact hStep _ _ _ ih last

theorem Reachable.initial {s : State} (h : M.initial s) : Reachable M s :=
  ⟨s, [], h, Runs.nil s⟩

theorem Reachable.next {s t : State} {l : Label} (h : Reachable M s) (hStep : M.step s l t) :
    Reachable M t := by
  obtain ⟨start, labels, hStart, run⟩ := h
  exact ⟨start, labels ++ [l], hStart, Runs.snoc run hStep⟩

theorem Reachable.runs {s t : State} {labels : List Label} (h : Reachable M s)
    (run : Runs M s labels t) : Reachable M t := by
  obtain ⟨start, first, hStart, prior⟩ := h
  exact ⟨start, first ++ labels, hStart, prior.trans run⟩

/-- The invariant rule: true at the start and kept by every step, hence true
in every reachable state. -/
theorem Reachable.invariant {I : State → Prop} (hInitial : ∀ s, M.initial s → I s)
    (hStep : ∀ s l t, I s → M.step s l t → I t) {s : State} (h : Reachable M s) : I s := by
  obtain ⟨start, labels, hStart, run⟩ := h
  exact run.preserves hStep (hInitial start hStart)

/-- The same system, allowed only the steps that pass the guard in the state
before them. -/
def System.guarded (M : System State Label) (guard : State → Label → Prop) :
    System State Label where
  initial := M.initial
  step s l t := guard s l ∧ M.step s l t

/-- A guarded run is a run. -/
theorem Runs.of_guarded {guard : State → Label → Prop} {s t : State} {labels : List Label}
    (run : Runs (M.guarded guard) s labels t) : Runs M s labels t := by
  induction run with
  | nil => exact Runs.nil _
  | snoc prior last ih => exact Runs.snoc ih last.2

theorem Reachable.of_guarded {guard : State → Label → Prop} {s : State}
    (h : Reachable (M.guarded guard) s) : Reachable M s := by
  obtain ⟨start, labels, hStart, run⟩ := h
  exact ⟨start, labels, hStart, run.of_guarded⟩

/-- A property that a step keeps exactly when it passes the guard holds after
exactly the runs whose steps all pass it. -/
theorem Runs.guarded_iff {guard : State → Label → Prop} {I P : State → Prop}
    (hUnique : ∀ s l t u, M.step s l t → M.step s l u → t = u)
    (hInvariant : ∀ s l t, I s → M.step s l t → I t)
    (hStep : ∀ s l t, I s → M.step s l t → (P t ↔ P s ∧ guard s l))
    {s t : State} {labels : List Label} (run : Runs M s labels t) (hI : I s) (hP : P s) :
    P t ↔ Runs (M.guarded guard) s labels t := by
  induction run with
  | nil => exact ⟨fun _ => Runs.nil _, fun _ => hP⟩
  | snoc prior last ih =>
      rw [hStep _ _ _ (prior.preserves hInvariant hI) last, ih]
      constructor
      · rintro ⟨hPrior, hGuard⟩
        exact Runs.snoc hPrior ⟨hGuard, last⟩
      · intro hRun
        obtain ⟨middle, hPrior, hGuard, -⟩ := hRun.unsnoc
        obtain rfl := prior.unique hUnique hPrior.of_guarded
        exact ⟨hPrior, hGuard⟩

/-- A partial step function, run over a list of labels. -/
def follow (f : State → Label → Option State) : State → List Label → Option State
  | s, [] => some s
  | s, l :: rest => (f s l).bind fun t => follow f t rest

/-- A computed run is a run of any system that allows the computed steps. -/
theorem runs_of_follow {f : State → Label → Option State}
    (hStep : ∀ s l t, f s l = some t → M.step s l t) {labels : List Label} {s t : State}
    (h : follow f s labels = some t) : Runs M s labels t := by
  induction labels generalizing s with
  | nil =>
      obtain rfl : s = t := by simpa [follow] using h
      exact Runs.nil s
  | cons l rest ih =>
      obtain ⟨middle, hFirst, hRest⟩ := Option.bind_eq_some_iff.mp h
      exact (Runs.single (hStep _ _ _ hFirst)).trans (ih hRest)

variable {State' Label' : Type*} {C : System State' Label'}

/-- A forward simulation: every step of `C` is matched by a run of `M`. -/
structure Simulation (C : System State' Label') (M : System State Label) where
  related : State' → State → Prop
  initial : ∀ c, C.initial c → ∃ s, M.initial s ∧ related c s
  step : ∀ c s l c', related c s → C.step c l c' →
    ∃ labels s', Runs M s labels s' ∧ related c' s'

/-- A run below is matched by a run above. -/
theorem Simulation.runs (sim : Simulation C M) {c c' : State'} {labels : List Label'}
    (run : Runs C c labels c') {s : State} (hRelated : sim.related c s) :
    ∃ above s', Runs M s above s' ∧ sim.related c' s' := by
  induction run with
  | nil => exact ⟨[], s, Runs.nil s, hRelated⟩
  | snoc prior last ih =>
      obtain ⟨first, middle, runFirst, hMiddle⟩ := ih
      obtain ⟨second, s', runSecond, hEnd⟩ := sim.step _ _ _ _ hMiddle last
      exact ⟨first ++ second, s', runFirst.trans runSecond, hEnd⟩

end Transition
