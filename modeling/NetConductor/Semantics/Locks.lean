import Mathlib.Data.List.Basic
import Mathlib.Data.List.Pairwise
import NetConductor.Semantics.Transition

/-! Threads that share mutexes. Of a routine only the control of its locking is
kept: what it acquires, releases and touches, its branches, loops and the
threads it starts. A discipline gives the mutexes an order and every piece of
shared data its guards. Where all routines keep it, no thread waits in a
circle and nothing is touched by two threads at once. -/
namespace Locks

open Transition

variable {Mutex Data Routine : Type}

inductive Skeleton (Mutex Data : Type) where
  | skip
  | lock (m : Mutex)
  | unlock (m : Mutex)
  | access (d : Data)
  | andThen (p q : Skeleton Mutex Data)
  | either (p q : Skeleton Mutex Data)
  | loop (p : Skeleton Mutex Data)
  | go (p : Skeleton Mutex Data)

namespace Skeleton

/-- The statements of a block, in order. -/
def block : List (Skeleton Mutex Data) → Skeleton Mutex Data
  | [] => skip
  | p :: ps => andThen p (block ps)

/-- A branch that may be left out. The rest of a routine after a check that
can return is such a branch. -/
def may (p : Skeleton Mutex Data) : Skeleton Mutex Data := either p skip

/-- `Lock` with a deferred `Unlock`. -/
def locked (m : Mutex) (p : Skeleton Mutex Data) : Skeleton Mutex Data :=
  block [lock m, p, unlock m]

/-- One of several, or none. -/
def anyOf {α : Type} (f : α → Skeleton Mutex Data) : List α → Skeleton Mutex Data
  | [] => skip
  | x :: xs => either (f x) (anyOf f xs)

end Skeleton

structure Thread (Mutex Data : Type) where
  todo : List (Skeleton Mutex Data)
  held : List Mutex

namespace Thread

def start (p : Skeleton Mutex Data) : Thread Mutex Data := ⟨[p], []⟩

/-- The mutex that the thread is about to acquire. -/
def wants (t : Thread Mutex Data) : Option Mutex :=
  match t.todo with
  | .lock m :: _ => some m
  | _ => none

/-- The shared data that the thread is about to touch. -/
def touches (t : Thread Mutex Data) : Option Data :=
  match t.todo with
  | .access d :: _ => some d
  | _ => none

variable [DecidableEq Mutex]

/-- What the thread can do next, each with the threads that it starts. A
thread at an `Unlock` of a mutex that is not its own can do nothing. -/
def moves (free : Mutex → Bool) (t : Thread Mutex Data) :
    List (Thread Mutex Data × List (Skeleton Mutex Data)) :=
  match t.todo with
  | [] => []
  | .skip :: rest => [({ t with todo := rest }, [])]
  | .lock m :: rest => if free m then [(⟨rest, m :: t.held⟩, [])] else []
  | .unlock m :: rest => if m ∈ t.held then [(⟨rest, t.held.erase m⟩, [])] else []
  | .access _ :: rest => [({ t with todo := rest }, [])]
  | .andThen p q :: rest => [({ t with todo := p :: q :: rest }, [])]
  | .either p q :: rest => [({ t with todo := p :: rest }, []), ({ t with todo := q :: rest }, [])]
  | .loop p :: rest =>
      [({ t with todo := rest }, []), ({ t with todo := p :: .loop p :: rest }, [])]
  | .go p :: rest => [({ t with todo := rest }, [p])]

end Thread

abbrev Pool (Mutex Data : Type) := List (Thread Mutex Data)

/-- A routine is started from outside, or thread `i` makes its `k`-th move. -/
inductive Label (Routine : Type) where
  | start (r : Routine)
  | run (i k : Nat)

namespace Pool

variable [DecidableEq Mutex]

def free (pool : Pool Mutex Data) (m : Mutex) : Bool := pool.all fun t => m ∉ t.held

def step (skeleton : Routine → Skeleton Mutex Data) (pool : Pool Mutex Data) :
    Label Routine → Option (Pool Mutex Data)
  | .start r => some (pool ++ [.start (skeleton r)])
  | .run i k => do
      let t ← pool[i]?
      let (t', started) ← (t.moves pool.free)[k]?
      some (pool.set i t' ++ started.map .start)

def system (skeleton : Routine → Skeleton Mutex Data) :
    System (Pool Mutex Data) (Label Routine) where
  initial pool := pool = []
  step pool l pool' := pool.step skeleton l = some pool'

/-- Thread `i` is at the `Lock` of a mutex that thread `j` holds. -/
def WaitsFor (pool : Pool Mutex Data) (i j : Nat) : Prop :=
  ∃ t u m, pool[i]? = some t ∧ pool[j]? = some u ∧ t.wants = some m ∧ m ∈ u.held

def CanMove (pool : Pool Mutex Data) (i : Nat) : Prop :=
  ∃ t, pool[i]? = some t ∧ t.moves pool.free ≠ []

end Pool

/-- An order on the mutexes, and the mutexes under which data may be touched. -/
structure Discipline (Mutex Data : Type) where
  rank : Mutex → Nat
  guards : Data → List Mutex

namespace Discipline

/-- The mutexes that a pool waits for have a greatest rank. -/
theorem exists_bound (D : Discipline Mutex Data) (pool : Pool Mutex Data) :
    ∃ bound, ∀ t ∈ pool, ∀ m, t.wants = some m → D.rank m ≤ bound := by
  induction pool with
  | nil => exact ⟨0, by simp⟩
  | cons t pool ih =>
      obtain ⟨bound, hBound⟩ := ih
      refine ⟨max bound (t.wants.elim 0 D.rank), fun u hu m hWants => ?_⟩
      rcases List.mem_cons.mp hu with rfl | hu
      · exact Nat.le_trans (by simp [hWants]) (Nat.le_max_right ..)
      · exact Nat.le_trans (hBound u hu m hWants) (Nat.le_max_left ..)

variable [DecidableEq Mutex] (D : Discipline Mutex Data)

/-- The mutexes held after the routine, where it keeps the discipline from the
ones held before: it acquires in the order, releases what it holds, and
touches data under all its guards. -/
def check : Skeleton Mutex Data → List Mutex → Option (List Mutex)
  | .skip, held => some held
  | .lock m, held => if held.all (D.rank · < D.rank m) then some (m :: held) else none
  | .unlock m, held => if m ∈ held then some (held.erase m) else none
  | .access d, held => if (D.guards d).all (· ∈ held) then some held else none
  | .andThen p q, held => (check p held).bind (check q)
  | .either p q, held => if check p held = check q held then check p held else none
  | .loop p, held => if check p held = some held then some held else none
  | .go p, held => if check p [] = some [] then some held else none

def checkAll : List (Skeleton Mutex Data) → List Mutex → Option (List Mutex)
  | [], held => some held
  | p :: rest, held => (D.check p held).bind (checkAll rest)

/-- Run on its own, the routine keeps the discipline and releases everything. -/
def Keeps (p : Skeleton Mutex Data) : Prop := D.check p [] = some []

variable {D} {p q : Skeleton Mutex Data} {held held' : List Mutex}

/-! What each construct needs and leaves, as equivalences: a routine is checked
by rewriting with them. -/

@[simp] theorem check_skip : D.check .skip held = some held' ↔ held = held' := Option.some_inj

@[simp] theorem check_lock {m : Mutex} : D.check (.lock m) held = some held' ↔
    (∀ x ∈ held, D.rank x < D.rank m) ∧ m :: held = held' := by
  refine Option.ite_none_right_eq_some.trans (and_congr ?_ Option.some_inj)
  simp only [List.all_eq_true, decide_eq_true_eq]

@[simp] theorem check_unlock {m : Mutex} : D.check (.unlock m) held = some held' ↔
    m ∈ held ∧ held.erase m = held' :=
  Option.ite_none_right_eq_some.trans (and_congr_right fun _ => Option.some_inj)

@[simp] theorem check_access {d : Data} : D.check (.access d) held = some held' ↔
    (∀ m ∈ D.guards d, m ∈ held) ∧ held = held' := by
  refine Option.ite_none_right_eq_some.trans (and_congr ?_ Option.some_inj)
  simp only [List.all_eq_true, decide_eq_true_eq]

@[simp] theorem check_andThen : D.check (.andThen p q) held = some held' ↔
    ∃ middle, D.check p held = some middle ∧ D.check q middle = some held' :=
  Option.bind_eq_some_iff

@[simp] theorem check_either : D.check (.either p q) held = some held' ↔
    D.check p held = some held' ∧ D.check q held = some held' := by
  refine Option.ite_none_right_eq_some.trans ⟨fun ⟨hSame, hp⟩ => ⟨hp, hSame ▸ hp⟩, ?_⟩
  rintro ⟨hp, hq⟩
  exact ⟨hp.trans hq.symm, hp⟩

@[simp] theorem check_loop : D.check (.loop p) held = some held' ↔
    D.check p held = some held ∧ held = held' :=
  Option.ite_none_right_eq_some.trans (and_congr_right fun _ => Option.some_inj)

@[simp] theorem check_go : D.check (.go p) held = some held' ↔ D.Keeps p ∧ held = held' :=
  Option.ite_none_right_eq_some.trans (and_congr_right fun _ => Option.some_inj)

theorem checkAll_cons {rest : List (Skeleton Mutex Data)} :
    D.checkAll (p :: rest) held = some held' ↔
      ∃ middle, D.check p held = some middle ∧ D.checkAll rest middle = some held' :=
  Option.bind_eq_some_iff

@[simp] theorem check_block_nil : D.check (.block []) held = some held' ↔ held = held' :=
  check_skip

@[simp] theorem check_block_cons {ps : List (Skeleton Mutex Data)} :
    D.check (.block (p :: ps)) held = some held' ↔
      ∃ middle, D.check p held = some middle ∧ D.check (.block ps) middle = some held' :=
  check_andThen

@[simp] theorem check_may : D.check p.may held = some held' ↔
    D.check p held = some held' ∧ held = held' := by
  rw [Skeleton.may, check_either, check_skip]

/-- A routine that leaves the mutexes as they are may stand in a critical
section. -/
@[simp] theorem check_locked {m : Mutex} : D.check (.locked m p) held = some held' ↔
    (∀ x ∈ held, D.rank x < D.rank m) ∧
      ∃ inside, D.check p (m :: held) = some inside ∧ m ∈ inside ∧ inside.erase m = held' := by
  simp [Skeleton.locked]

/-- A choice between skeletons that keep the mutexes keeps them. -/
theorem check_anyOf {α : Type} {f : α → Skeleton Mutex Data} {xs : List α}
    (h : ∀ x ∈ xs, D.check (f x) held = some held) :
    D.check (.anyOf f xs) held = some held := by
  induction xs with
  | nil => rfl
  | cons x xs ih =>
      have hRest := ih fun y hy => h y (List.mem_cons_of_mem x hy)
      exact check_either.mpr ⟨h x (List.mem_cons_self ..), hRest⟩

/-- A sequence of skeletons that keep the mutexes keeps them. -/
theorem check_block_map {α : Type} {f : α → Skeleton Mutex Data} {xs : List α}
    (h : ∀ x ∈ xs, D.check (f x) held = some held) :
    D.check (.block (xs.map f)) held = some held := by
  induction xs with
  | nil => rfl
  | cons x xs ih =>
      have hRest := ih fun y hy => h y (List.mem_cons_of_mem x hy)
      exact check_block_cons.mpr ⟨held, h x (List.mem_cons_self ..), hRest⟩

/-- What a thread keeps that follows the discipline: the rest of its routine
releases what it holds, and it acquired that in the order. -/
structure Follows (D : Discipline Mutex Data) (t : Thread Mutex Data) : Prop where
  checks : D.checkAll t.todo t.held = some []
  ordered : t.held.Pairwise fun a b => D.rank b < D.rank a

theorem Keeps.follows (h : D.Keeps p) : D.Follows (.start p) where
  checks := checkAll_cons.mpr ⟨[], h, rfl⟩
  ordered := .nil

variable {t t' : Thread Mutex Data} {free : Mutex → Bool}

/-- One move keeps the discipline, starts only routines that keep it, and
acquires nothing that is not free. -/
theorem Follows.move (h : D.Follows t) {started : List (Skeleton Mutex Data)}
    (hMove : (t', started) ∈ t.moves free) :
    D.Follows t' ∧ (∀ p ∈ started, D.Keeps p) ∧ ∀ m ∈ t'.held, m ∈ t.held ∨ free m = true := by
  obtain ⟨todo, held⟩ := t
  obtain ⟨hChecks, hOrdered⟩ := h
  match todo with
  | [] => simp [Thread.moves] at hMove
  | first :: rest =>
    obtain ⟨middle, hFirst, hRest⟩ := checkAll_cons.mp hChecks
    match first with
    | .skip =>
        obtain ⟨rfl, rfl⟩ : t' = ⟨rest, held⟩ ∧ started = [] := by
          simpa [Thread.moves] using hMove
        obtain rfl := check_skip.mp hFirst
        exact ⟨⟨hRest, hOrdered⟩, by simp, fun m hm => .inl hm⟩
    | .lock m =>
        obtain ⟨hFree, rfl, rfl⟩ : free m = true ∧ t' = ⟨rest, m :: held⟩ ∧ started = [] := by
          simpa [Thread.moves] using hMove
        obtain ⟨hOrder, rfl⟩ := check_lock.mp hFirst
        refine ⟨⟨hRest, List.pairwise_cons.mpr ⟨hOrder, hOrdered⟩⟩, by simp, fun x hx => ?_⟩
        rcases List.mem_cons.mp hx with rfl | hx
        · exact .inr hFree
        · exact .inl hx
    | .unlock m =>
        obtain ⟨-, rfl, rfl⟩ : m ∈ held ∧ t' = ⟨rest, held.erase m⟩ ∧ started = [] := by
          simpa [Thread.moves] using hMove
        obtain ⟨-, rfl⟩ := check_unlock.mp hFirst
        exact ⟨⟨hRest, hOrdered.sublist List.erase_sublist⟩, by simp,
          fun x hx => .inl (List.mem_of_mem_erase hx)⟩
    | .access d =>
        obtain ⟨rfl, rfl⟩ : t' = ⟨rest, held⟩ ∧ started = [] := by
          simpa [Thread.moves] using hMove
        obtain ⟨-, rfl⟩ := check_access.mp hFirst
        exact ⟨⟨hRest, hOrdered⟩, by simp, fun m hm => .inl hm⟩
    | .andThen p q =>
        obtain ⟨rfl, rfl⟩ : t' = ⟨p :: q :: rest, held⟩ ∧ started = [] := by
          simpa [Thread.moves] using hMove
        obtain ⟨between, hp, hq⟩ := check_andThen.mp hFirst
        have hBoth := checkAll_cons.mpr ⟨between, hp, checkAll_cons.mpr ⟨middle, hq, hRest⟩⟩
        exact ⟨⟨hBoth, hOrdered⟩, by simp, fun m hm => .inl hm⟩
    | .either p q =>
        obtain ⟨hp, hq⟩ := check_either.mp hFirst
        rcases (by simpa [Thread.moves] using hMove :
          t' = ⟨p :: rest, held⟩ ∧ started = [] ∨ t' = ⟨q :: rest, held⟩ ∧ started = []) with
          ⟨rfl, rfl⟩ | ⟨rfl, rfl⟩
        · exact ⟨⟨checkAll_cons.mpr ⟨middle, hp, hRest⟩, hOrdered⟩, by simp, fun m hm => .inl hm⟩
        · exact ⟨⟨checkAll_cons.mpr ⟨middle, hq, hRest⟩, hOrdered⟩, by simp, fun m hm => .inl hm⟩
    | .loop p =>
        obtain ⟨hRound, rfl⟩ := check_loop.mp hFirst
        rcases (by simpa [Thread.moves] using hMove :
          t' = ⟨rest, held⟩ ∧ started = [] ∨
            t' = ⟨p :: .loop p :: rest, held⟩ ∧ started = []) with ⟨rfl, rfl⟩ | ⟨rfl, rfl⟩
        · exact ⟨⟨hRest, hOrdered⟩, by simp, fun m hm => .inl hm⟩
        · exact ⟨⟨checkAll_cons.mpr ⟨held, hRound, hChecks⟩, hOrdered⟩, by simp,
            fun m hm => .inl hm⟩
    | .go p =>
        obtain ⟨rfl, rfl⟩ : t' = ⟨rest, held⟩ ∧ started = [p] := by
          simpa [Thread.moves] using hMove
        obtain ⟨hKeeps, rfl⟩ := check_go.mp hFirst
        exact ⟨⟨hRest, hOrdered⟩, by simpa using hKeeps, fun m hm => .inl hm⟩

/-- A thread that follows the discipline and cannot move has ended, or is at
the `Lock` of a mutex that is not free. -/
theorem Follows.blocked (h : D.Follows t) (hStuck : t.moves free = []) :
    t = ⟨[], []⟩ ∨ ∃ m, t.wants = some m ∧ free m = false := by
  obtain ⟨todo, held⟩ := t
  obtain ⟨hChecks, -⟩ := h
  match todo with
  | [] =>
      obtain rfl : held = [] := by simpa [checkAll] using hChecks
      exact .inl rfl
  | .lock m :: rest =>
      refine .inr ⟨m, rfl, ?_⟩
      by_contra hFree
      simp [Thread.moves, hFree] at hStuck
  | .unlock m :: rest =>
      obtain ⟨_, hFirst, -⟩ := checkAll_cons.mp hChecks
      have hHeld := (check_unlock.mp hFirst).1
      simp [Thread.moves, hHeld] at hStuck
  | .skip :: rest | .access d :: rest | .andThen p q :: rest | .either p q :: rest
  | .loop p :: rest | .go p :: rest => simp [Thread.moves] at hStuck

/-- What a thread waits for comes after all that it holds. -/
theorem Follows.wants_above (h : D.Follows t) {m x : Mutex} (hWants : t.wants = some m)
    (hx : x ∈ t.held) : D.rank x < D.rank m := by
  obtain ⟨todo, held⟩ := t
  obtain ⟨hChecks, -⟩ := h
  match todo, hWants with
  | .lock _ :: rest, rfl =>
      obtain ⟨_, hFirst, -⟩ := checkAll_cons.mp hChecks
      exact (check_lock.mp hFirst).1 x hx

/-- A thread that holds a mutex is not done. -/
theorem Follows.todo_of_held (h : D.Follows t) {m : Mutex}
    (hm : m ∈ t.held) : t.todo ≠ [] := by
  obtain ⟨todo, held⟩ := t
  rintro rfl
  obtain rfl : held = [] := by simpa [checkAll] using h.checks
  exact List.not_mem_nil hm

/-- A thread that follows the discipline touches data under all its guards. -/
theorem Follows.touches (h : D.Follows t) {d : Data} (hTouches : t.touches = some d) :
    ∀ m ∈ D.guards d, m ∈ t.held := by
  obtain ⟨todo, held⟩ := t
  obtain ⟨hChecks, -⟩ := h
  match todo, hTouches with
  | .access _ :: rest, rfl =>
      obtain ⟨_, hFirst, -⟩ := checkAll_cons.mp hChecks
      exact (check_access.mp hFirst).1

end Discipline

namespace Pool

variable [DecidableEq Mutex] {D : Discipline Mutex Data} {pool pool' : Pool Mutex Data}

/-- Every thread follows the discipline, and no two hold one mutex. -/
structure Sound (D : Discipline Mutex Data) (pool : Pool Mutex Data) : Prop where
  follows : ∀ (i : Nat) t, pool[i]? = some t → D.Follows t
  exclusive : ∀ (i j : Nat) t u, i ≠ j → pool[i]? = some t → pool[j]? = some u →
    ∀ m ∈ t.held, m ∉ u.held

/-- A mutex is free when no thread holds it. -/
theorem free_iff {m : Mutex} :
    pool.free m = true ↔ ∀ (i : Nat) t, pool[i]? = some t → m ∉ t.held := by
  simp only [free, List.all_eq_true, decide_eq_true_eq]
  exact ⟨fun h i t ht => h t (List.mem_of_getElem? ht), fun h t ht => by
    obtain ⟨i, hi⟩ := List.mem_iff_getElem?.mp ht
    exact h i t hi⟩

omit [DecidableEq Mutex] in
/-- A thread of the pool was there before, or it was started just now. -/
theorem started_cases {ps : List (Skeleton Mutex Data)} {i : Nat} {t : Thread Mutex Data}
    (ht : (pool ++ ps.map Thread.start)[i]? = some t) :
    pool[i]? = some t ∨ ∃ p ∈ ps, t = .start p := by
  by_cases hi : i < pool.length
  · rw [List.getElem?_append_left hi] at ht
    exact .inl ht
  · rw [List.getElem?_append_right (Nat.not_lt.mp hi)] at ht
    obtain ⟨p, hp, rfl⟩ := List.mem_map.mp (List.mem_of_getElem? ht)
    exact .inr ⟨p, hp, rfl⟩

omit [DecidableEq Mutex] in
/-- A thread of the pool is the one that has moved, or it is where it was. -/
theorem moved_cases {i j : Nat} {t' u : Thread Mutex Data} (hu : (pool.set i t')[j]? = some u) :
    j = i ∧ u = t' ∨ j ≠ i ∧ pool[j]? = some u := by
  rw [List.getElem?_set] at hu
  split at hu
  · next hSame =>
      split at hu
      · exact .inl ⟨hSame.symm, by simpa using hu.symm⟩
      · cases hu
  · next hOther => exact .inr ⟨fun hj => hOther hj.symm, hu⟩

/-- Threads that start hold nothing yet. -/
theorem Sound.append (h : pool.Sound D) {ps : List (Skeleton Mutex Data)}
    (hKeeps : ∀ p ∈ ps, D.Keeps p) : Sound D (pool ++ ps.map .start) := by
  constructor
  · intro i t ht
    rcases started_cases ht with hOld | ⟨p, hp, rfl⟩
    · exact h.follows i t hOld
    · exact (hKeeps p hp).follows
  · intro i j t u hij ht hu m hm hm'
    rcases started_cases ht with hOld | ⟨p, hp, rfl⟩
    · rcases started_cases hu with hOld' | ⟨q, hq, rfl⟩
      · exact h.exclusive i j t u hij hOld hOld' m hm hm'
      · simp [Thread.start] at hm'
    · simp [Thread.start] at hm

/-- One thread moves on, with nothing but mutexes that were free or its own. -/
theorem Sound.set (h : pool.Sound D) {i : Nat} {t t' : Thread Mutex Data}
    (ht : pool[i]? = some t) (hFollows : D.Follows t')
    (hHeld : ∀ m ∈ t'.held, m ∈ t.held ∨ pool.free m = true) : Sound D (pool.set i t') := by
  have hApart : ∀ (j : Nat) u, j ≠ i → pool[j]? = some u → ∀ m ∈ t'.held, m ∉ u.held := by
    intro j u hj hu m hm
    rcases hHeld m hm with hm | hFree
    · exact h.exclusive i j t u (Ne.symm hj) ht hu m hm
    · exact free_iff.mp hFree j u hu
  constructor
  · intro j u hu
    rcases moved_cases hu with ⟨-, rfl⟩ | ⟨-, hOld⟩
    · exact hFollows
    · exact h.follows j u hOld
  · intro j k u v hjk hu hv m hm hm'
    rcases moved_cases hu with ⟨rfl, rfl⟩ | ⟨hj, hOld⟩
    · rcases moved_cases hv with ⟨rfl, -⟩ | ⟨hk, hOld⟩
      · exact hjk rfl
      · exact hApart k v hk hOld m hm hm'
    · rcases moved_cases hv with ⟨rfl, rfl⟩ | ⟨-, hOld'⟩
      · exact hApart j u hj hOld m hm' hm
      · exact h.exclusive j k u v hjk hOld hOld' m hm hm'

variable {skeleton : Routine → Skeleton Mutex Data}

/-- Every step of a pool keeps the discipline of all its threads. -/
theorem step_sound (hKeeps : ∀ r, D.Keeps (skeleton r)) (h : pool.Sound D) {l : Label Routine}
    (hStep : pool.step skeleton l = some pool') : pool'.Sound D := by
  cases l with
  | start r =>
      obtain rfl : pool ++ [.start (skeleton r)] = pool' := by simpa [step] using hStep
      have hOne : ∀ p ∈ [skeleton r], D.Keeps p := by simpa using hKeeps r
      exact h.append hOne
  | run i k =>
      simp only [step, Option.bind_eq_bind, Option.bind_eq_some_iff] at hStep
      obtain ⟨t, ht, ⟨t', started⟩, hMove, hPool⟩ := hStep
      obtain rfl := Option.some.inj hPool
      obtain ⟨hFollows, hStarted, hHeld⟩ :=
        (h.follows i t ht).move (List.mem_of_getElem? hMove)
      exact (h.set ht hFollows hHeld).append hStarted

/-- The invariant in every reachable state. -/
theorem sound (hKeeps : ∀ r, D.Keeps (skeleton r)) (h : Reachable (system skeleton) pool) :
    pool.Sound D := by
  refine Reachable.invariant (I := Sound D) ?_ (fun _ l _ hs hStep => step_sound hKeeps hs hStep) h
  intro pool hInitial
  obtain rfl : pool = [] := hInitial
  exact ⟨by simp, by simp⟩

/-- In a sound pool a thread that cannot move has ended or waits for another. -/
theorem Sound.waits (h : pool.Sound D) {i : Nat} {t : Thread Mutex Data} (ht : pool[i]? = some t)
    (hTodo : t.todo ≠ []) (hStuck : ¬ pool.CanMove i) :
    ∃ (j : Nat) (u : Thread Mutex Data) (m : Mutex), pool[j]? = some u ∧ t.wants = some m ∧
      m ∈ u.held := by
  have hNone : t.moves pool.free = [] := by
    by_contra hMoves
    exact hStuck ⟨t, ht, hMoves⟩
  rcases (h.follows i t ht).blocked hNone with rfl | ⟨m, hWants, hTaken⟩
  · exact absurd rfl hTodo
  · obtain ⟨j, u, hu, hHeld⟩ : ∃ (j : Nat) (u : Thread Mutex Data), pool[j]? = some u ∧ m ∈ u.held := by
      by_contra hNot
      have hFree : pool.free m = true := free_iff.mpr fun j u hu hm => hNot ⟨j, u, hu, hm⟩
      simp [hFree] at hTaken
    exact ⟨j, u, m, hu, hWants, hHeld⟩

/-- No thread waits in a circle: from every thread that has something left to
do, the chain of the threads that it waits for ends at one that can move. -/
theorem Sound.chain_ends (h : pool.Sound D) {i : Nat} {t : Thread Mutex Data}
    (ht : pool[i]? = some t) (hTodo : t.todo ≠ []) :
    ∃ j, Relation.ReflTransGen pool.WaitsFor i j ∧ pool.CanMove j := by
  obtain ⟨bound, hBound⟩ := D.exists_bound pool
  -- Along the chain the rank of what is waited for grows, up to the bound.
  have hChain : ∀ (n i : Nat) (t : Thread Mutex Data), pool[i]? = some t → t.todo ≠ [] →
      (∀ m, t.wants = some m → bound < D.rank m + n) →
      ∃ j, Relation.ReflTransGen pool.WaitsFor i j ∧ pool.CanMove j := by
    intro n
    induction n with
    | zero =>
        intro i t ht hTodo hRank
        refine ⟨i, .refl, ?_⟩
        by_contra hStuck
        obtain ⟨-, -, m, -, hWants, -⟩ := h.waits ht hTodo hStuck
        exact Nat.not_lt.mpr (hBound t (List.mem_of_getElem? ht) m hWants) (hRank m hWants)
    | succ n ih =>
        intro i t ht hTodo hRank
        by_cases hMove : pool.CanMove i
        · exact ⟨i, .refl, hMove⟩
        · obtain ⟨j, u, m, hu, hWants, hHeld⟩ := h.waits ht hTodo hMove
          have hFollows := h.follows j u hu
          obtain ⟨k, hRest, hEnd⟩ := ih j u hu (hFollows.todo_of_held hHeld) fun m' hWants' => by
            have hAbove := hFollows.wants_above hWants' hHeld
            have hBelow := hRank m hWants
            omega
          exact ⟨k, .head ⟨t, u, m, ht, hu, hWants, hHeld⟩ hRest, hEnd⟩
  exact hChain (bound + 1) i t ht hTodo fun m _ => by omega

/-- A thread that is about to touch data holds all its guards, and no other
thread holds one. -/
theorem Sound.touches_alone (h : pool.Sound D) {i : Nat} {t : Thread Mutex Data}
    (ht : pool[i]? = some t) {d : Data} (hTouches : t.touches = some d) {m : Mutex}
    (hGuard : m ∈ D.guards d) :
    m ∈ t.held ∧ ∀ (j : Nat) u, j ≠ i → pool[j]? = some u → m ∉ u.held := by
  have hHeld := (h.follows i t ht).touches hTouches m hGuard
  exact ⟨hHeld, fun j u hj hu => h.exclusive i j t u (Ne.symm hj) ht hu m hHeld⟩

end Pool

end Locks
