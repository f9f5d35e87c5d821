import Mathlib.Algebra.Order.Ring.Nat
import Mathlib.Data.List.Basic

/-! Tasks that take time and can be cut off at a deadline: how cutting off
composes, and the loop that tries one candidate after another until one
succeeds. Time is a number in any unit. -/
namespace Deadline

/-- A result and the time it took. -/
structure Timed (ε α : Type) where
  result : Except ε α
  elapsed : Nat
deriving DecidableEq

/-- The time left until the deadline, if there is one. -/
abbrev Left := Option Nat

abbrev Task (ε α : Type) := Left → Timed ε α

variable {ε α β : Type}

namespace Timed

def Fails (r : Timed ε α) : Prop := ∀ a, r.result ≠ .ok a

theorem fails_error {e : ε} {t : Nat} : (⟨.error e, t⟩ : Timed ε α).Fails := by simp [Fails]

theorem not_fails_ok {a : α} {t : Nat} : ¬(⟨.ok a, t⟩ : Timed ε α).Fails :=
  fun h => h a rfl

end Timed

/-- The earlier of a deadline and a time from now. -/
def earlier (left : Left) (t : Nat) : Left := some (left.elim t (min t))

/-! ### Tasks -/

/-- Wait for something that comes after its own time. -/
def wait (timeout : ε) (r : Timed ε α) : Task ε α
  | none => r
  | some l => if r.elapsed < l then r else ⟨.error timeout, l⟩

def fail (e : ε) : Task ε α := fun _ => ⟨.error e, 0⟩

/-- A limit of its own on a task. -/
def within (t : Nat) (f : Task ε α) : Task ε α := fun left => f (earlier left t)

/-- One task after another, under one deadline. -/
def andThen (f : Task ε α) (g : α → Task ε β) : Task ε β := fun left =>
  match f left with
  | ⟨.error e, t⟩ => ⟨.error e, t⟩
  | ⟨.ok a, t⟩ => ⟨(g a (left.map (· - t))).result, t + (g a (left.map (· - t))).elapsed⟩

def map (g : α → β) (f : Task ε α) : Task ε β := fun left =>
  ⟨(f left).result.map g, (f left).elapsed⟩

theorem andThen_error {f : Task ε α} {g : α → Task ε β} {left : Left} {e : ε} {t : Nat}
    (h : f left = ⟨.error e, t⟩) : andThen f g left = ⟨.error e, t⟩ := by
  simp only [andThen, h]

theorem andThen_ok {f : Task ε α} {g : α → Task ε β} {left : Left} {a : α} {t : Nat}
    (h : f left = ⟨.ok a, t⟩) : andThen f g left =
      ⟨(g a (left.map (· - t))).result, t + (g a (left.map (· - t))).elapsed⟩ := by
  simp only [andThen, h]

/-- A deadline that comes in time ends the task there without success, and one
that comes later changes nothing. -/
structure Cancels (f : Task ε α) : Prop where
  early : ∀ {l : Nat}, (f none).elapsed < l → f (some l) = f none
  late : ∀ {l : Nat}, l ≤ (f none).elapsed → ∃ e, f (some l) = ⟨.error e, l⟩

/-- Success under a deadline is success before it. -/
theorem Cancels.ok_iff {f : Task ε α} (h : Cancels f) {l : Nat} {a : α} {t : Nat} :
    f (some l) = ⟨.ok a, t⟩ ↔ f none = ⟨.ok a, t⟩ ∧ t < l := by
  rcases Nat.lt_or_ge (f none).elapsed l with hEarly | hLate
  · rw [h.early hEarly]
    refine ⟨fun hOk => ⟨hOk, ?_⟩, fun hOk => hOk.1⟩
    rwa [hOk] at hEarly
  · obtain ⟨e, hCut⟩ := h.late hLate
    rw [hCut]
    constructor
    · intro hOk
      simp at hOk
    · rintro ⟨hOk, hEarly⟩
      rw [hOk] at hLate
      exact absurd hEarly (Nat.not_lt.mpr hLate)

theorem cancels_wait (timeout : ε) (r : Timed ε α) : Cancels (wait timeout r) where
  early h := if_pos h
  late h := ⟨timeout, if_neg (Nat.not_lt.mpr h)⟩

theorem cancels_fail (e : ε) : Cancels (fail e : Task ε α) where
  early _ := rfl
  late h := ⟨e, by rw [Nat.le_zero.mp h]; rfl⟩

/-- A limit of its own leaves a task one that can be cut off. -/
theorem Cancels.within {f : Task ε α} (h : Cancels f) (t : Nat) : Cancels (within t f) := by
  have hMin : ∀ l, Deadline.within t f (some l) = f (some (min t l)) := fun l => rfl
  have hNone : Deadline.within t f none = f (some t) := rfl
  rcases Nat.lt_or_ge (f none).elapsed t with ht | ht
  · rw [h.early ht] at hNone
    refine ⟨fun {l} hl => ?_, fun {l} hl => ?_⟩
    · rw [hMin, hNone]
      rw [hNone] at hl
      exact h.early (by omega)
    · rw [hNone] at hl
      rw [hMin, show min t l = l by omega]
      exact h.late hl
  · obtain ⟨e, hCut⟩ := h.late ht
    refine ⟨fun {l} hl => ?_, fun {l} hl => ?_⟩
    · rw [hNone, hCut] at hl
      dsimp only at hl
      rw [hMin, hNone, show min t l = t by omega]
    · rw [hNone, hCut] at hl
      dsimp only at hl
      rw [hMin, show min t l = l by omega]
      exact h.late (by omega)

theorem Cancels.map {f : Task ε α} (h : Cancels f) (g : α → β) : Cancels (map g f) where
  early hEarly := by
    simp only [Deadline.map] at hEarly ⊢
    rw [h.early hEarly]
  late hLate := by
    obtain ⟨e, hCut⟩ := h.late hLate
    exact ⟨e, by simp only [Deadline.map, hCut, Except.map]⟩

/-- Two tasks in a row that keep to their deadline keep to it together. -/
theorem Cancels.andThen {f : Task ε α} {g : α → Task ε β} (hf : Cancels f)
    (hg : ∀ a, Cancels (g a)) : Cancels (andThen f g) := by
  rcases hFirst : f none with ⟨e | a, t⟩
  · have hNone : Deadline.andThen f g none = ⟨.error e, t⟩ := andThen_error hFirst
    refine ⟨fun {l} hl => ?_, fun {l} hl => ?_⟩
    · rw [hNone] at hl ⊢
      exact andThen_error ((hf.early (by rwa [hFirst])).trans hFirst)
    · rw [hNone] at hl
      obtain ⟨e', hCut⟩ := hf.late (l := l) (by rwa [hFirst])
      exact ⟨e', andThen_error hCut⟩
  · have hNone : Deadline.andThen f g none = ⟨(g a none).result, t + (g a none).elapsed⟩ :=
      andThen_ok hFirst
    refine ⟨fun {l} hl => ?_, fun {l} hl => ?_⟩
    · rw [hNone] at hl ⊢
      dsimp only at hl
      rw [andThen_ok ((hf.early (by rw [hFirst]; dsimp only; omega)).trans hFirst), Option.map_some,
        (hg a).early (by omega)]
    · rw [hNone] at hl
      dsimp only at hl
      rcases Nat.lt_or_ge t l with ht | ht
      · -- the second task meets the rest of the deadline
        obtain ⟨e, hCut⟩ := (hg a).late (l := l - t) (by omega)
        refine ⟨e, ?_⟩
        rw [andThen_ok ((hf.early (by rwa [hFirst])).trans hFirst), Option.map_some, hCut]
        simp only [Timed.mk.injEq, true_and]
        omega
      · obtain ⟨e, hCut⟩ := hf.late (l := l) (by rwa [hFirst])
        exact ⟨e, andThen_error hCut⟩

/-! ### Success -/

/-- A wait that succeeds has the result in time. -/
theorem wait_ok {timeout : ε} {r : Timed ε α} {left : Left} {a : α}
    (h : (wait timeout r left).result = .ok a) : r.result = .ok a := by
  cases left with
  | none => exact h
  | some l =>
      simp only [wait] at h
      split_ifs at h
      exact h

/-- A sequence succeeds when both parts do. -/
theorem andThen_result {f : Task ε α} {g : α → Task ε β} {left : Left} {b : β}
    (h : (andThen f g left).result = .ok b) :
    ∃ a left', (f left).result = .ok a ∧ (g a left').result = .ok b := by
  rcases hFirst : f left with ⟨e | a, t⟩
  · rw [andThen_error hFirst] at h
    cases h
  · rw [andThen_ok hFirst] at h
    exact ⟨a, _, rfl, h⟩

/-- What a mapped task gives comes from the task. -/
theorem map_result {g : α → β} {f : Task ε α} {left : Left} {b : β}
    (h : (map g f left).result = .ok b) : ∃ a, (f left).result = .ok a ∧ g a = b := by
  simp only [map] at h
  cases hResult : (f left).result with
  | error e =>
      rw [hResult] at h
      cases h
  | ok a =>
      rw [hResult] at h
      exact ⟨a, rfl, Except.ok.inj h⟩

/-! ### One candidate after another -/

/-- Try the candidates in order, from the `n`-th on, each for the time that is
left, until one succeeds: the candidates tried, with what came of them. -/
def tryEach (task : Nat → α → Task ε β) (n : Nat) (left : Left) : List α → List (α × Timed ε β)
  | [] => []
  | a :: rest =>
      let r := task n a left
      (a, r) :: match r.result with
        | .ok _ => []
        | .error _ => tryEach task (n + 1) (left.map (· - r.elapsed)) rest

/-- The first success. -/
def found : List (α × Timed ε β) → Option (α × β)
  | [] => none
  | (a, r) :: rest =>
      match r.result with
      | .ok b => some (a, b)
      | .error _ => found rest

def total (tried : List (α × Timed ε β)) : Nat := (tried.map fun a => a.2.elapsed).sum

variable {task : Nat → α → Task ε β}

/-- Candidates are tried in their order, none is left out. -/
theorem tryEach_order (n : Nat) (left : Left) (candidates : List α) :
    (tryEach task n left candidates).map Prod.fst =
      candidates.take (tryEach task n left candidates).length := by
  induction candidates generalizing n left with
  | nil => simp [tryEach]
  | cons a rest ih =>
      simp only [tryEach]
      split
      · simp
      · simpa using ih (n + 1) _

/-- Only the last candidate tried can have succeeded. -/
theorem tryEach_stops (n : Nat) (left : Left) (candidates : List α) :
    ∀ a ∈ (tryEach task n left candidates).dropLast, a.2.Fails := by
  induction candidates generalizing n left with
  | nil => simp [tryEach]
  | cons a rest ih =>
      simp only [tryEach]
      split
      · simp
      · next e hFailed =>
          intro b hb
          cases hRest : tryEach task (n + 1) (left.map (· - (task n a left).elapsed)) rest with
          | nil => simp [hRest] at hb
          | cons c cs =>
              rw [hRest, List.dropLast_cons_cons, List.mem_cons] at hb
              rcases hb with rfl | hb
              · exact fun x hOk => by simp [hFailed] at hOk
              · exact ih (n + 1) (left.map (· - (task n a left).elapsed)) b (by rwa [hRest])

/-- Every result is one of the candidate's own task. -/
theorem tryEach_outcome {n : Nat} {left : Left} {candidates : List α} {i : Nat} {a : α}
    {r : Timed ε β} (h : (tryEach task n left candidates)[i]? = some (a, r)) :
    ∃ left', r = task (n + i) a left' := by
  induction candidates generalizing n left i with
  | nil => simp [tryEach] at h
  | cons c rest ih =>
      simp only [tryEach] at h
      cases i with
      | zero =>
          simp only [List.getElem?_cons_zero, Option.some.injEq, Prod.mk.injEq] at h
          obtain ⟨rfl, rfl⟩ := h
          exact ⟨left, rfl⟩
      | succ i =>
          rw [List.getElem?_cons_succ] at h
          split at h
          · simp at h
          · obtain ⟨left', hr⟩ := ih h
            exact ⟨left', by rw [hr]; congr 1; omega⟩

theorem found_eq_none_iff {tried : List (α × Timed ε β)} :
    found tried = none ↔ ∀ a ∈ tried, a.2.Fails := by
  induction tried with
  | nil => simp [found]
  | cons a rest ih =>
      obtain ⟨a, e | b, t⟩ := a
      · simpa [found, Timed.fails_error] using ih
      · simp [found, Timed.not_fails_ok]

/-- What is found is the result of the last candidate tried. -/
theorem tryEach_found {n : Nat} {left : Left} {candidates : List α} {a : α} {b : β}
    (h : found (tryEach task n left candidates) = some (a, b)) :
    ∃ t, (tryEach task n left candidates).getLast? = some (a, ⟨.ok b, t⟩) := by
  induction candidates generalizing n left with
  | nil => simp [tryEach, found] at h
  | cons c rest ih =>
      simp only [tryEach, found] at h ⊢
      rcases hResult : task n c left with ⟨e | b', t⟩
      · simp only [hResult] at h ⊢
        obtain ⟨t', hLast⟩ := ih h
        refine ⟨t', ?_⟩
        rw [List.getLast?_cons, hLast]
        rfl
      · simp only [hResult, Option.some.injEq, Prod.mk.injEq] at h ⊢
        obtain ⟨rfl, rfl⟩ := h
        exact ⟨t, rfl⟩

/-- Without a success every candidate was tried. -/
theorem tryEach_exhausted {n : Nat} {left : Left} {candidates : List α}
    (h : found (tryEach task n left candidates) = none) :
    (tryEach task n left candidates).length = candidates.length := by
  induction candidates generalizing n left with
  | nil => rfl
  | cons a rest ih =>
      simp only [tryEach, found] at h ⊢
      rcases hResult : task n a left with ⟨e | b, t⟩
      · simp only [hResult, List.length_cons] at h ⊢
        rw [ih h]
      · simp [hResult] at h

/-! ### The loop under a deadline -/

/-- What each candidate does if it is tried and nothing cuts it off. -/
def outcomes (task : Nat → α → Task ε β) (n : Nat) : List α → List (Timed ε β)
  | [] => []
  | a :: rest => task n a none :: outcomes task (n + 1) rest

/-- The moment at which the first candidate succeeds, when those before it take
their time. -/
def acceptTime : List (Timed ε β) → Option Nat
  | [] => none
  | r :: rest =>
      match r.result with
      | .ok _ => some r.elapsed
      | .error _ => (acceptTime rest).map (r.elapsed + ·)

/-- The first success of two series is in the first one, or behind all of it. -/
theorem acceptTime_append (first second : List (Timed ε β)) :
    acceptTime (first ++ second) =
      (acceptTime first).or ((acceptTime second).map ((first.map Timed.elapsed).sum + ·)) := by
  induction first with
  | nil => simp [acceptTime]
  | cons r rest ih =>
      obtain ⟨e | b, t⟩ := r
      · simp only [List.cons_append, acceptTime, ih, List.map_cons, List.sum_cons]
        cases acceptTime rest with
        | none =>
            cases acceptTime second with
            | none => rfl
            | some u => simp [Nat.add_assoc]
        | some u => rfl
      · rfl

/-- Without a deadline the loop takes the time of the first success, or of all
the failures. -/
theorem total_tryEach (n : Nat) (candidates : List α) :
    total (tryEach task n none candidates) =
      (acceptTime (outcomes task n candidates)).getD
        ((outcomes task n candidates).map Timed.elapsed).sum := by
  induction candidates generalizing n with
  | nil => rfl
  | cons a rest ih =>
      rcases hResult : task n a none with ⟨e | b, t⟩
      · have hRest := ih (n + 1)
        simp only [total, tryEach, outcomes, acceptTime, hResult, List.map_cons, List.sum_cons,
          Option.map_none] at hRest ⊢
        rw [hRest]
        cases acceptTime (outcomes task (n + 1) rest) with
        | none => rfl
        | some u => rfl
      · simp [total, tryEach, outcomes, acceptTime, hResult]

/-- One of the candidates is found when one of them accepts. -/
theorem found_tryEach (n : Nat) (candidates : List α) :
    (found (tryEach task n none candidates)).isSome =
      (acceptTime (outcomes task n candidates)).isSome := by
  induction candidates generalizing n with
  | nil => rfl
  | cons a rest ih =>
      rcases hResult : task n a none with ⟨e | b, t⟩
      · simpa [tryEach, found, outcomes, acceptTime, hResult] using ih (n + 1)
      · simp [tryEach, found, outcomes, acceptTime, hResult]

/-- A deadline after the loop would end changes nothing. -/
theorem tryEach_of_lt (hTask : ∀ n a, Cancels (task n a)) {n l : Nat} {candidates : List α}
    (h : total (tryEach task n none candidates) < l) :
    tryEach task n (some l) candidates = tryEach task n none candidates := by
  induction candidates generalizing n l with
  | nil => rfl
  | cons a rest ih =>
      simp only [tryEach, total, List.map_cons, List.sum_cons, Option.map_none] at h ⊢
      rw [(hTask n a).early (by omega)]
      rcases hResult : task n a none with ⟨e | b, t⟩
      · simp only [hResult, Option.map_some] at h ⊢
        rw [ih (by unfold total; omega)]
      · rfl

/-- A deadline before the loop would end leaves no success, and the loop ends
with it. -/
theorem tryEach_of_le (hTask : ∀ n a, Cancels (task n a)) {n l : Nat} {candidates : List α}
    (h : l ≤ total (tryEach task n none candidates)) :
    found (tryEach task n (some l) candidates) = none ∧
      total (tryEach task n (some l) candidates) = l := by
  induction candidates generalizing n l with
  | nil =>
      obtain rfl : l = 0 := by simpa [tryEach, total] using h
      exact ⟨rfl, rfl⟩
  | cons a rest ih =>
      simp only [tryEach, total, List.map_cons, List.sum_cons, Option.map_none] at h
      simp only [tryEach, found, total, List.map_cons, List.sum_cons, Option.map_some]
      rcases Nat.lt_or_ge (task n a none).elapsed l with hEarly | hLate
      · rw [(hTask n a).early hEarly]
        rcases hResult : task n a none with ⟨e | b, t⟩
        · simp only [hResult] at h hEarly ⊢
          obtain ⟨hFound, hTotal⟩ := ih (n := n + 1) (l := l - t) (by unfold total; omega)
          refine ⟨hFound, ?_⟩
          unfold total at hTotal
          omega
        · simp only [hResult, List.map_nil, List.sum_nil] at h hEarly
          omega
      · -- from here on no time is left
        obtain ⟨e, hCut⟩ := (hTask n a).late hLate
        obtain ⟨hFound, hTotal⟩ := ih (n := n + 1) (l := 0) (Nat.zero_le _)
        simp only [hCut, Nat.sub_self]
        refine ⟨hFound, ?_⟩
        unfold total at hTotal
        omega

end Deadline
