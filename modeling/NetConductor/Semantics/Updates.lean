import NetConductor.Semantics.Locks

/-! A shared value that threads replace by one that they derive from what they
have read. Where a routine acquires the value's mutex, reads the value and then
replaces it, what it replaces is what it has read: whoever replaces the value
holds the mutex, so nobody else's replacement falls in between and is lost. -/
namespace Locks

open Transition

variable {Mutex Data Routine : Type}

/-- The mutex under which a value is replaced, and how reading it and replacing
it show in the routines. -/
structure Replacement (Mutex Data : Type) where
  guard : Mutex
  read : Data
  replace : Data

/-- A pool with the number of replacements so far and, for each thread, the
version that it first read since it acquired the mutex. -/
structure Versioned (Mutex Data : Type) where
  pool : Pool Mutex Data
  version : Nat
  seen : Nat → Option Nat

namespace Replacement

variable [DecidableEq Mutex] [DecidableEq Data] (R : Replacement Mutex Data)

/-- What the move of thread `i` at this statement does to the versions. -/
def note (w : Versioned Mutex Data) (i : Nat) :
    Option (Skeleton Mutex Data) → Versioned Mutex Data
  | some (.lock m) => if m = R.guard then { w with seen := Function.update w.seen i none } else w
  | some (.access d) =>
      if d = R.replace then
        { w with version := w.version + 1, seen := Function.update w.seen i (some (w.version + 1)) }
      else if d = R.read then
        { w with seen := Function.update w.seen i (some ((w.seen i).getD w.version)) }
      else w
  | _ => w

def step (skeleton : Routine → Skeleton Mutex Data) (w : Versioned Mutex Data)
    (l : Label Routine) : Option (Versioned Mutex Data) :=
  (w.pool.step skeleton l).map fun pool' =>
    match l with
    | .start _ => { w with pool := pool' }
    | .run i _ => { R.note w i (w.pool[i]?.bind fun t => t.todo.head?) with pool := pool' }

def system (skeleton : Routine → Skeleton Mutex Data) :
    System (Versioned Mutex Data) (Label Routine) where
  initial w := w = ⟨[], 0, fun _ => none⟩
  step w l w' := R.step skeleton w l = some w'

variable {R} {skeleton : Routine → Skeleton Mutex Data}

/-- The versions are only noted: below them every run of the pool goes on as before. -/
theorem exists_versioned {pool : Pool Mutex Data} (h : Reachable (Pool.system skeleton) pool) :
    ∃ w, Reachable (R.system skeleton) w ∧ w.pool = pool := by
  refine Reachable.invariant (I := fun pool => ∃ w, Reachable (R.system skeleton) w ∧ w.pool = pool)
    ?_ ?_ h
  · rintro pool rfl
    exact ⟨_, Reachable.initial rfl, rfl⟩
  · rintro _ l pool' ⟨w, hReach, rfl⟩ hStep
    change w.pool.step skeleton l = some pool' at hStep
    obtain ⟨w', hNext, hPool⟩ : ∃ w', R.step skeleton w l = some w' ∧ w'.pool = pool' := by
      rw [step, hStep]
      cases l <;> exact ⟨_, rfl, rfl⟩
    exact ⟨w', hReach.next hNext, hPool⟩

/-! ### Routines that read before they replace -/

variable (R)

/-- Whether the value has been read since the mutex was acquired, after a routine
that starts with `known`; `none` where it may replace what it has not read. A
loop is taken to leave nothing known. -/
def check : Skeleton Mutex Data → Bool → Option Bool
  | .skip, known | .unlock _, known => some known
  | .lock m, known => some (known && m ≠ R.guard)
  | .access d, known =>
      if d = R.replace ∧ known = false then none else some (known || d = R.read)
  | .andThen p q, known => (check p known).bind (check q)
  | .either p q, known => (check p known).bind fun a => (check q known).map fun b => a && b
  | .loop p, _ => (check p false).map fun _ => false
  | .go p, known => (check p false).map fun _ => known

/-- The same of what a thread has left to do. -/
def checkAll : List (Skeleton Mutex Data) → Bool → Bool
  | [], _ => true
  | p :: rest, known => (R.check p known).any (checkAll rest)

/-- Run on its own, the routine reads before it replaces. -/
def Reads (p : Skeleton Mutex Data) : Prop := (R.check p false).isSome = true

variable {R} {p q : Skeleton Mutex Data} {rest : List (Skeleton Mutex Data)} {known : Bool}

/-- Knowing the value already does no harm. -/
theorem check_mono {known known' after : Bool} (hKnown : known = true → known' = true)
    (h : R.check p known = some after) :
    ∃ after', R.check p known' = some after' ∧ (after = true → after' = true) := by
  induction p generalizing known known' after with
  | skip | unlock =>
      obtain rfl := Option.some.inj h
      exact ⟨known', rfl, hKnown⟩
  | lock m =>
      obtain rfl := Option.some.inj h
      exact ⟨_, rfl, fun hAfter => by
        simp only [Bool.and_eq_true] at hAfter ⊢
        exact ⟨hKnown hAfter.1, hAfter.2⟩⟩
  | access d =>
      simp only [check] at h ⊢
      split_ifs at h with hUnread
      obtain rfl := Option.some.inj h
      have hRead : ¬(d = R.replace ∧ known' = false) := fun hBad => hUnread ⟨hBad.1, by
        cases known with
        | false => rfl
        | true => exact absurd (hKnown rfl) (by simp [hBad.2])⟩
      rw [if_neg hRead]
      exact ⟨_, rfl, fun hAfter => by
        rcases (Bool.or_eq_true_iff).mp hAfter with hOld | hNow
        · simp [hKnown hOld]
        · simp [hNow]⟩
  | andThen p q ihp ihq =>
      obtain ⟨middle, hp, hq⟩ := Option.bind_eq_some_iff.mp h
      obtain ⟨middle', hp', hMiddle⟩ := ihp hKnown hp
      obtain ⟨after', hq', hAfter⟩ := ihq hMiddle hq
      exact ⟨after', Option.bind_eq_some_iff.mpr ⟨middle', hp', hq'⟩, hAfter⟩
  | either p q ihp ihq =>
      obtain ⟨a, hp, hRest⟩ := Option.bind_eq_some_iff.mp h
      obtain ⟨b, hq, rfl⟩ := Option.map_eq_some_iff.mp hRest
      obtain ⟨a', hp', hA⟩ := ihp hKnown hp
      obtain ⟨b', hq', hB⟩ := ihq hKnown hq
      refine ⟨a' && b', by simp [check, hp', hq'], fun hBoth => ?_⟩
      simp only [Bool.and_eq_true] at hBoth ⊢
      exact ⟨hA hBoth.1, hB hBoth.2⟩
  | loop p =>
      obtain ⟨a, hp, rfl⟩ := Option.map_eq_some_iff.mp h
      exact ⟨false, by simp [check, hp], nofun⟩
  | go p =>
      obtain ⟨a, hp, rfl⟩ := Option.map_eq_some_iff.mp h
      exact ⟨known', by simp [check, hp], hKnown⟩

theorem checkAll_cons : R.checkAll (p :: rest) known = true ↔
    ∃ after, R.check p known = some after ∧ R.checkAll rest after = true := by
  simp [checkAll, Option.any_eq_true]

/-- Knowing more does no harm. -/
theorem checkAll_mono {known known' : Bool} (hKnown : known = true → known' = true)
    (h : R.checkAll rest known = true) : R.checkAll rest known' = true := by
  induction rest generalizing known known' with
  | nil => rfl
  | cons p rest ih =>
      obtain ⟨after, hp, hRest⟩ := checkAll_cons.mp h
      obtain ⟨after', hp', hAfter⟩ := check_mono hKnown hp
      exact checkAll_cons.mpr ⟨after', hp', ih hAfter hRest⟩

/-- What is known of a thread's value: while it holds the mutex, what it has
seen is the present version, and where it is known it has seen it. -/
structure Derives (R : Replacement Mutex Data) (version : Nat) (seen : Option Nat)
    (t : Thread Mutex Data) (known : Bool) : Prop where
  checks : R.checkAll t.todo known = true
  present : R.guard ∈ t.held → ∀ v ∈ seen, v = version
  read : R.guard ∈ t.held → known = true → seen = some version

/-- A routine that replaces the value nowhere. -/
def Avoids (R : Replacement Mutex Data) : Skeleton Mutex Data → Prop
  | .skip | .lock _ | .unlock _ => True
  | .access d => d ≠ R.replace
  | .andThen p q | .either p q => Avoids R p ∧ Avoids R q
  | .loop p | .go p => Avoids R p

/-- A routine that neither reads nor replaces the value passes the check. -/
theorem Avoids.check (h : R.Avoids p) (known : Bool) : (R.check p known).isSome = true := by
  induction p generalizing known with
  | skip | unlock | lock => rfl
  | access d =>
      have hOther : ¬(d = R.replace ∧ known = false) := fun hBoth => h hBoth.1
      rw [Replacement.check, if_neg hOther]
      rfl
  | andThen p q ihp ihq =>
      obtain ⟨middle, hp⟩ := Option.isSome_iff_exists.mp (ihp h.1 known)
      simp [Replacement.check, hp, ihq h.2 middle]
  | either p q ihp ihq =>
      obtain ⟨a, hp⟩ := Option.isSome_iff_exists.mp (ihp h.1 known)
      simp [Replacement.check, hp, ihq h.2 known]
  | loop p ih | go p ih => simp [Replacement.check, ih h false]

omit [DecidableEq Mutex] [DecidableEq Data] in
theorem avoids_anyOf {α : Type} {f : α → Skeleton Mutex Data} {xs : List α}
    (h : ∀ x ∈ xs, R.Avoids (f x)) : R.Avoids (.anyOf f xs) := by
  induction xs with
  | nil => trivial
  | cons x xs ih =>
      exact ⟨h x (List.mem_cons_self ..), ih fun y hy => h y (List.mem_cons_of_mem x hy)⟩

omit [DecidableEq Mutex] [DecidableEq Data] in
theorem avoids_block {ps : List (Skeleton Mutex Data)} :
    R.Avoids (.block ps) ↔ ∀ p ∈ ps, R.Avoids p := by
  induction ps with
  | nil => simp [Skeleton.block, Avoids]
  | cons p ps ih => simp [Skeleton.block, Avoids, ih]

/-- A thread that has not acquired the mutex has nothing to keep. -/
theorem Derives.of_not_held {version : Nat} {seen : Option Nat} {t : Thread Mutex Data}
    (hChecks : R.checkAll t.todo known = true) (hHeld : R.guard ∉ t.held) :
    R.Derives version seen t known :=
  ⟨hChecks, fun h => absurd h hHeld, fun h => absurd h hHeld⟩

variable {w : Versioned Mutex Data} {i : Nat} {t t' : Thread Mutex Data} {free : Mutex → Bool}
  {started : List (Skeleton Mutex Data)}

/-- With the mutex, what was seen before it does not count. -/
theorem Derives.lock {m : Mutex} {held : List Mutex}
    (h : R.Derives w.version (w.seen i) ⟨.lock m :: rest, held⟩ known) :
    ∃ known', R.Derives (R.note w i (some (.lock m))).version ((R.note w i (some (.lock m))).seen i)
      ⟨rest, m :: held⟩ known' := by
  obtain ⟨after, hFirst, hRest⟩ := checkAll_cons.mp h.checks
  obtain rfl := Option.some.inj hFirst
  by_cases hGuard : m = R.guard
  · refine ⟨_, hRest, ?_, ?_⟩
    · simp [note, hGuard]
    · simp [hGuard]
  · have hOther : R.guard ∈ m :: held → R.guard ∈ held := fun hMem =>
      (List.mem_cons.mp hMem).resolve_left fun hSame => hGuard hSame.symm
    refine ⟨_, hRest, ?_, ?_⟩
    · simpa [note, hGuard] using fun hHeld => h.present (hOther (by simpa using hHeld))
    · intro hHeld hKnown
      simpa [note, hGuard] using h.read (hOther hHeld) (by simpa [hGuard] using hKnown)

/-- The thread knows what it puts in the place of the value, and what it has read:
the first look since the mutex was acquired counts. -/
theorem Derives.access {d : Data} {held : List Mutex}
    (h : R.Derives w.version (w.seen i) ⟨.access d :: rest, held⟩ known) :
    ∃ known', R.Derives (R.note w i (some (.access d))).version
      ((R.note w i (some (.access d))).seen i) ⟨rest, held⟩ known' := by
  obtain ⟨after, hFirst, hRest⟩ := checkAll_cons.mp h.checks
  simp only [check] at hFirst
  split_ifs at hFirst with hUnread
  obtain rfl := Option.some.inj hFirst
  by_cases hReplace : d = R.replace
  · exact ⟨_, hRest, by simp [note, hReplace], by simp [note, hReplace]⟩
  · by_cases hReads : d = R.read
    · have hSeen : R.guard ∈ held → (w.seen i).getD w.version = w.version := by
        intro hHeld
        cases hOld : w.seen i with
        | none => rfl
        | some v => exact h.present hHeld v hOld
      subst hReads
      refine ⟨_, hRest, fun hHeld => ?_, fun hHeld _ => ?_⟩
      · simp [note, hReplace, hSeen hHeld]
      · simp [note, hReplace, hSeen hHeld]
    · refine ⟨_, hRest, ?_, ?_⟩
      · simpa [note, hReplace, hReads] using h.present
      · simpa [note, hReplace, hReads] using h.read

/-- One move of a thread, with what it does to the versions. -/
theorem Derives.move (h : R.Derives w.version (w.seen i) t known)
    (hMove : (t', started) ∈ t.moves free) :
    (∃ known', R.Derives (R.note w i t.todo.head?).version ((R.note w i t.todo.head?).seen i) t'
      known') ∧ ∀ p ∈ started, R.Reads p := by
  obtain ⟨todo, held⟩ := t
  cases todo with
  | nil => simp [Thread.moves] at hMove
  | cons first rest =>
      obtain ⟨after, hFirst, hRest⟩ := checkAll_cons.mp h.checks
      cases first with
      | skip =>
          obtain ⟨rfl, rfl⟩ : t' = ⟨rest, held⟩ ∧ started = [] := by
            simpa [Thread.moves] using hMove
          obtain rfl := Option.some.inj hFirst
          exact ⟨⟨known, hRest, h.present, h.read⟩, by simp⟩
      | lock m =>
          obtain ⟨-, rfl, rfl⟩ : free m = true ∧ t' = ⟨rest, m :: held⟩ ∧ started = [] := by
            simpa [Thread.moves] using hMove
          exact ⟨h.lock, by simp⟩
      | unlock m =>
          obtain ⟨-, rfl, rfl⟩ : m ∈ held ∧ t' = ⟨rest, held.erase m⟩ ∧ started = [] := by
            simpa [Thread.moves] using hMove
          obtain rfl := Option.some.inj hFirst
          exact ⟨⟨known, hRest, fun hHeld => h.present (List.mem_of_mem_erase hHeld),
            fun hHeld => h.read (List.mem_of_mem_erase hHeld)⟩, by simp⟩
      | access d =>
          obtain ⟨rfl, rfl⟩ : t' = ⟨rest, held⟩ ∧ started = [] := by
            simpa [Thread.moves] using hMove
          exact ⟨h.access, by simp⟩
      | andThen p q =>
          obtain ⟨rfl, rfl⟩ : t' = ⟨p :: q :: rest, held⟩ ∧ started = [] := by
            simpa [Thread.moves] using hMove
          obtain ⟨between, hp, hq⟩ := Option.bind_eq_some_iff.mp hFirst
          have hBoth := checkAll_cons.mpr ⟨between, hp, checkAll_cons.mpr ⟨after, hq, hRest⟩⟩
          exact ⟨⟨known, hBoth, h.present, h.read⟩, by simp⟩
      | either p q =>
          obtain ⟨a, hp, hEnd⟩ := Option.bind_eq_some_iff.mp hFirst
          obtain ⟨b, hq, rfl⟩ := Option.map_eq_some_iff.mp hEnd
          rcases (by simpa [Thread.moves] using hMove :
            t' = ⟨p :: rest, held⟩ ∧ started = [] ∨ t' = ⟨q :: rest, held⟩ ∧ started = []) with
            ⟨rfl, rfl⟩ | ⟨rfl, rfl⟩
          · have hLeft := checkAll_mono (fun hBoth => (Bool.and_eq_true_iff.mp hBoth).1) hRest
            exact ⟨⟨known, checkAll_cons.mpr ⟨a, hp, hLeft⟩, h.present, h.read⟩, by simp⟩
          · have hRight := checkAll_mono (fun hBoth => (Bool.and_eq_true_iff.mp hBoth).2) hRest
            exact ⟨⟨known, checkAll_cons.mpr ⟨b, hq, hRight⟩, h.present, h.read⟩, by simp⟩
      | loop p =>
          obtain ⟨a, hp, rfl⟩ := Option.map_eq_some_iff.mp hFirst
          have hNothing : false = true → known = true := fun hNo => absurd hNo Bool.false_ne_true
          rcases (by simpa [Thread.moves] using hMove :
            t' = ⟨rest, held⟩ ∧ started = [] ∨
              t' = ⟨p :: .loop p :: rest, held⟩ ∧ started = []) with ⟨rfl, rfl⟩ | ⟨rfl, rfl⟩
          · exact ⟨⟨known, checkAll_mono hNothing hRest, h.present, h.read⟩, by simp⟩
          · obtain ⟨a', hp', -⟩ := check_mono hNothing hp
            have hAgain : R.checkAll (.loop p :: rest) a' = true :=
              checkAll_cons.mpr ⟨false, by simp [check, hp], hRest⟩
            exact ⟨⟨known, checkAll_cons.mpr ⟨a', hp', hAgain⟩, h.present, h.read⟩, by simp⟩
      | go p =>
          obtain ⟨rfl, rfl⟩ : t' = ⟨rest, held⟩ ∧ started = [p] := by
            simpa [Thread.moves] using hMove
          obtain ⟨a, hp, rfl⟩ := Option.map_eq_some_iff.mp hFirst
          have hReads : ∀ x ∈ [p], R.Reads x := by simp [Reads, hp]
          exact ⟨⟨known, hRest, h.present, h.read⟩, hReads⟩

/-- Another thread's moves leave what a thread has seen as it is, and they
replace the value only while that thread does not hold the mutex. -/
theorem Derives.other (h : R.Derives w.version (w.seen i) t known) {j : Nat} (hji : j ≠ i)
    {first : Option (Skeleton Mutex Data)}
    (hReplace : first = some (.access R.replace) → R.guard ∉ t.held) :
    R.Derives (R.note w j first).version ((R.note w j first).seen i) t known := by
  by_cases hFirst : first = some (.access R.replace)
  · exact .of_not_held h.checks (hReplace hFirst)
  · have hSame : (R.note w j first).version = w.version ∧ (R.note w j first).seen i = w.seen i := by
      unfold note
      split
      · split
        · exact ⟨rfl, Function.update_of_ne hji.symm _ _⟩
        · exact ⟨rfl, rfl⟩
      · next d =>
          split
          · next hd => exact absurd (by rw [hd]) hFirst
          · split
            · exact ⟨rfl, Function.update_of_ne hji.symm _ _⟩
            · exact ⟨rfl, rfl⟩
      · exact ⟨rfl, rfl⟩
    rw [hSame.1, hSame.2]
    exact h

/-- In a sound pool every thread derives what it replaces. -/
structure Kept (R : Replacement Mutex Data) (D : Discipline Mutex Data)
    (w : Versioned Mutex Data) : Prop where
  sound : w.pool.Sound D
  derives : ∀ i t, w.pool[i]? = some t → ∃ known, R.Derives w.version (w.seen i) t known

variable {D : Discipline Mutex Data}

/-- A thread that starts has nothing to keep. -/
theorem Reads.starts (hReads : R.Reads p) (version : Nat) (seen : Option Nat) :
    ∃ known, R.Derives version seen (.start p) known := by
  obtain ⟨after, hAfter⟩ := Option.isSome_iff_exists.mp hReads
  exact ⟨false, .of_not_held (checkAll_cons.mpr ⟨after, hAfter, rfl⟩) (by simp [Thread.start])⟩

/-- The thread that moves keeps what it has to, and the others are not disturbed. -/
theorem Kept.run (hGuard : R.guard ∈ D.guards R.replace) (h : R.Kept D w) {i : Nat}
    {t t' : Thread Mutex Data} (ht : w.pool[i]? = some t) {free : Mutex → Bool}
    {started : List (Skeleton Mutex Data)} (hMove : (t', started) ∈ t.moves free) {j : Nat}
    {u : Thread Mutex Data} (hu : (w.pool.set i t' ++ started.map Thread.start)[j]? = some u) :
    ∃ known, R.Derives (R.note w i t.todo.head?).version ((R.note w i t.todo.head?).seen j) u known := by
  obtain ⟨known, hDerives⟩ := h.derives i t ht
  obtain ⟨hMoved, hStarted⟩ := hDerives.move hMove
  rcases Pool.started_cases hu with hOld | ⟨p, hp, rfl⟩
  · rcases Pool.moved_cases hOld with ⟨rfl, rfl⟩ | ⟨hji, hSame⟩
    · exact hMoved
    · obtain ⟨known', hOther⟩ := h.derives j u hSame
      refine ⟨known', hOther.other (Ne.symm hji) fun hReplace => ?_⟩
      have hTouches : t.touches = some R.replace := by
        unfold Thread.touches
        cases hTodo : t.todo with
        | nil => simp [hTodo] at hReplace
        | cons p rest =>
            obtain rfl : p = .access R.replace := by simpa [hTodo] using hReplace
            rfl
      exact (h.sound.touches_alone ht hTouches hGuard).2 j u hji hSame
  · exact (hStarted p hp).starts _ _

/-- One step of the pool. -/
theorem Kept.step (hKeeps : ∀ r, D.Keeps (skeleton r)) (hReads : ∀ r, R.Reads (skeleton r))
    (hGuard : R.guard ∈ D.guards R.replace) {w w' : Versioned Mutex Data} (h : R.Kept D w)
    {l : Label Routine} (hStep : R.step skeleton w l = some w') : R.Kept D w' := by
  obtain ⟨pool', hPool, rfl⟩ := Option.map_eq_some_iff.mp hStep
  have hSound := Pool.step_sound hKeeps h.sound hPool
  cases l with
  | start r =>
      refine ⟨hSound, fun j u hu => ?_⟩
      obtain rfl : w.pool ++ [.start (skeleton r)] = pool' := by simpa [Pool.step] using hPool
      have hAdded : (w.pool ++ [skeleton r].map Thread.start)[j]? = some u := hu
      rcases Pool.started_cases hAdded with hOld | ⟨p, hp, rfl⟩
      · exact h.derives j u hOld
      · obtain rfl := List.mem_singleton.mp hp
        exact (hReads r).starts _ _
  | run i k =>
      refine ⟨hSound, fun j u hu => ?_⟩
      simp only [Pool.step, Option.bind_eq_bind, Option.bind_eq_some_iff] at hPool
      obtain ⟨t, ht, ⟨t', started⟩, hMove, hEnd⟩ := hPool
      obtain rfl := Option.some.inj hEnd
      have hFirst : (w.pool[i]?.bind fun t => t.todo.head?) = t.todo.head? := by
        rw [ht, Option.bind_some]
      simp only [hFirst]
      exact h.run hGuard ht (List.mem_of_getElem? hMove) hu

/-- The invariant in every reachable state. -/
theorem kept (hKeeps : ∀ r, D.Keeps (skeleton r)) (hReads : ∀ r, R.Reads (skeleton r))
    (hGuard : R.guard ∈ D.guards R.replace) {w : Versioned Mutex Data}
    (h : Reachable (R.system skeleton) w) : R.Kept D w := by
  refine Reachable.invariant (I := R.Kept D) ?_
    (fun _ l _ hKept hStep => hKept.step hKeeps hReads hGuard hStep) h
  rintro w rfl
  exact ⟨⟨by simp, by simp⟩, by simp⟩

/-- No update is lost: a thread that is about to replace the value has seen the
present version since it acquired the mutex, so from its first look on nobody
else has replaced the value. -/
theorem Kept.replaces_what_it_read (h : R.Kept D w) (hGuard : R.guard ∈ D.guards R.replace)
    (ht : w.pool[i]? = some t) (hTouches : t.touches = some R.replace) :
    w.seen i = some w.version := by
  obtain ⟨known, hDerives⟩ := h.derives i t ht
  have hHeld := (h.sound.touches_alone ht hTouches hGuard).1
  obtain ⟨rest, hTodo⟩ : ∃ rest, t.todo = .access R.replace :: rest := by
    unfold Thread.touches at hTouches
    split at hTouches
    · next d rest hTodo =>
        obtain rfl := Option.some.inj hTouches
        exact ⟨rest, hTodo⟩
    · cases hTouches
  have hChecks := hDerives.checks
  rw [hTodo] at hChecks
  obtain ⟨after, hFirst, -⟩ := checkAll_cons.mp hChecks
  apply hDerives.read hHeld
  simp only [check, true_and] at hFirst
  split_ifs at hFirst with hUnread
  simpa using hUnread

end Replacement

end Locks
