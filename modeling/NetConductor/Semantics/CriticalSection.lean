import NetConductor.Semantics.Transition

/-! A process with one mutex, an in-memory state and one saved file. A request
runs in a critical section that either answers or saves and then answers
according to the outcome; the process may die at any point and be started
again from the file. Requests are arbitrary, and so are memory and file. -/
namespace Durable
open Transition

/-- What is left of a critical section once its in-place changes are made:
an answer, or a save whose outcome decides between two continuations. -/
inductive Section (Mem Ans : Type*) where
  | answer (mem : Mem) (ans : Ans)
  | persist (mem : Mem) (saved failed : Mem × Ans)

namespace Section
variable {Mem Ans Disk : Type*}

/-- Memory and answer at the end, `ok` being the outcome of the save. -/
def result : Section Mem Ans → Bool → Mem × Ans
  | answer mem ans, _ => (mem, ans)
  | persist _ saved _, true => saved
  | persist _ _ failed, false => failed

/-- The file at the end, `ok` telling whether the save replaced it. -/
def written (content : Mem → Disk) : Section Mem Ans → Bool → Disk → Disk
  | persist mem _ _, true, _ => content mem
  | _, _, disk => disk

/-- Every memory the section can leave satisfies `I`, every memory it saves `J`. -/
def Holds (I J : Mem → Prop) : Section Mem Ans → Prop
  | answer mem _ => I mem
  | persist mem saved failed => J mem ∧ I saved.1 ∧ I failed.1

@[simp] theorem holds_answer (I J : Mem → Prop) (mem : Mem) (ans : Ans) :
    (answer mem ans).Holds I J ↔ I mem := Iff.rfl

@[simp] theorem holds_persist (I J : Mem → Prop) (mem : Mem) (saved failed : Mem × Ans) :
    (persist mem saved failed).Holds I J ↔ J mem ∧ I saved.1 ∧ I failed.1 := Iff.rfl

/-- Whether or not the save succeeds, the memory left meets the invariant. -/
theorem Holds.result {I J : Mem → Prop} {sec : Section Mem Ans} (h : sec.Holds I J) (ok : Bool) :
    I (sec.result ok).1 := by
  cases sec with
  | answer mem ans => exact h
  | persist mem saved failed =>
      cases ok with
      | true => exact h.2.1
      | false => exact h.2.2

/-- Whether or not the save succeeds, the disk meets its invariant. -/
theorem Holds.written {I J : Mem → Prop} {K : Disk → Prop} {content : Mem → Disk}
    {sec : Section Mem Ans} (h : sec.Holds I J) (hSaved : ∀ mem, J mem → K (content mem))
    {disk : Disk} (hDisk : K disk) (ok : Bool) : K (sec.written content ok disk) := by
  cases sec with
  | answer mem ans => exact hDisk
  | persist mem saved failed =>
      cases ok with
      | true => exact hSaved mem h.1
      | false => exact hDisk

theorem Holds.mono {I I' J J' : Mem → Prop} {sec : Section Mem Ans} (h : sec.Holds I J)
    (hI : ∀ mem, I mem → I' mem) (hJ : ∀ mem, J mem → J' mem) : sec.Holds I' J' := by
  cases sec with
  | answer mem ans => exact hI _ h
  | persist mem saved failed => exact ⟨hJ _ h.1, hI _ h.2.1, hI _ h.2.2⟩

/-- Two invariants of one section are one. -/
theorem Holds.and {I I' J J' : Mem → Prop} {sec : Section Mem Ans} (left : sec.Holds I J)
    (right : sec.Holds I' J') :
    sec.Holds (fun mem => I mem ∧ I' mem) (fun mem => J mem ∧ J' mem) := by
  cases sec with
  | answer mem ans => exact ⟨left, right⟩
  | persist mem saved failed =>
      exact ⟨⟨left.1, right.1⟩, ⟨left.2.1, right.2.1⟩, ⟨left.2.2, right.2.2⟩⟩

variable {Mem' : Type*}

/-- The section of a part of the memory, run on the whole. -/
def map (f : Mem → Mem') : Section Mem Ans → Section Mem' Ans
  | answer mem ans => answer (f mem) ans
  | persist mem saved failed =>
      persist (f mem) (f saved.1, saved.2) (f failed.1, failed.2)

@[simp] theorem result_map (f : Mem → Mem') (sec : Section Mem Ans) (ok : Bool) :
    (sec.map f).result ok = (f (sec.result ok).1, (sec.result ok).2) := by
  cases sec <;> cases ok <;> rfl

@[simp] theorem written_map (f : Mem → Mem') (content : Mem' → Disk) (sec : Section Mem Ans)
    (ok : Bool) (disk : Disk) :
    (sec.map f).written content ok disk = sec.written (fun mem => content (f mem)) ok disk := by
  cases sec <;> cases ok <;> rfl

@[simp] theorem holds_map (f : Mem → Mem') (I J : Mem' → Prop) (sec : Section Mem Ans) :
    (sec.map f).Holds I J ↔ sec.Holds (fun mem => I (f mem)) (fun mem => J (f mem)) := by
  cases sec <;> rfl

end Section

/-- How the process starts from the file, what it saves, and the critical
section of each request; `none` when the request cannot run in this state. -/
structure Service (Mem Disk Op Ans : Type*) where
  boot : Disk → Mem
  content : Mem → Disk
  exec : Mem → Op → Option (Section Mem Ans)

/-- What an observer outside the process knows of a request: its answer, or
that the process died before it answered. The interrupted request keeps the
answer it was about to give had its save gone through. -/
inductive Event (Op Ans : Type*) where
  | answered (op : Op) (ans : Ans)
  | interrupted (op : Op) (ans : Ans)

def Event.op {Op Ans : Type*} : Event Op Ans → Op
  | answered op _ | interrupted op _ => op

def Event.ans {Op Ans : Type*} : Event Op Ans → Ans
  | answered _ ans | interrupted _ ans => ans

/-- `mem` is `none` while the process is down. -/
structure Machine (Mem Disk Op Ans : Type*) where
  mem : Option Mem
  disk : Disk
  history : List (Event Op Ans)

/-- `saved` is the outcome of the save in the section, `renamed` tells whether
the save had already replaced the file when the process died. -/
inductive Label (Op : Type*) where
  | run (op : Op) (saved : Bool)
  | crash
  | crashDuring (op : Op) (renamed : Bool)
  | boot

/-- The request named by a label, if any. -/
def Label.op {Op : Type*} : Label Op → Option Op
  | .run op _ | .crashDuring op _ => some op
  | .crash | .boot => none

/-- The request named by a label, and whether its save goes through. -/
def Label.outcome {Op : Type*} : Label Op → Option (Op × Bool)
  | .run op ok | .crashDuring op ok => some (op, ok)
  | .crash | .boot => none

theorem Label.op_of_outcome {Op : Type*} {l : Label Op} {op : Op} {ok : Bool}
    (h : l.outcome = some (op, ok)) : l.op = some op := by
  cases l with
  | run | crashDuring =>
      simp only [Label.outcome, Option.some.injEq, Prod.mk.injEq] at h
      exact congrArg some h.1
  | crash | boot => cases h

namespace Service
variable {Mem Disk Op Ans : Type*} (S : Service Mem Disk Op Ans)

def step (s : Machine Mem Disk Op Ans) : Label Op → Option (Machine Mem Disk Op Ans)
  | .run op saved => s.mem.bind fun mem => (S.exec mem op).bind fun sec =>
      some ⟨some (sec.result saved).1, sec.written S.content saved s.disk,
        s.history ++ [.answered op (sec.result saved).2]⟩
  | .crash => s.mem.bind fun _ => some { s with mem := none }
  | .crashDuring op renamed => s.mem.bind fun mem => (S.exec mem op).bind fun sec =>
      some ⟨none, sec.written S.content renamed s.disk,
        s.history ++ [.interrupted op (sec.result true).2]⟩
  | .boot =>
      match s.mem with
      | none => some { s with mem := some (S.boot s.disk) }
      | some _ => none

/-- All runs of the process from one memory and file, with the requests that
the environment may make restricted by `allowed`. -/
def system (start : Mem) (file : Disk) (allowed : Mem → Op → Prop) :
    System (Machine Mem Disk Op Ans) (Label Op) where
  initial s := s = ⟨some start, file, []⟩
  step s l t := (∀ mem op, s.mem = some mem → l.op = some op → allowed mem op) ∧
    S.step s l = some t

/-- The same with a condition on the whole step, which may depend on how the
save in it ends. -/
def systemWhen (start : Mem) (file : Disk) (allowed : Mem → Label Op → Prop) :
    System (Machine Mem Disk Op Ans) (Label Op) where
  initial s := s = ⟨some start, file, []⟩
  step s l t := (∀ mem, s.mem = some mem → allowed mem l) ∧ S.step s l = some t

/-- The step, taken only when the memory it finds meets the condition. -/
def stepWhen (allowed : Mem → Label Op → Prop) [∀ mem l, Decidable (allowed mem l)]
    (s : Machine Mem Disk Op Ans) (l : Label Op) : Option (Machine Mem Disk Op Ans) :=
  match s.mem with
  | some mem => if allowed mem l then S.step s l else none
  | none => S.step s l

/-- The step, taken only when the request in it is allowed. -/
def allowedStep (allowed : Mem → Op → Prop) [∀ mem op, Decidable (allowed mem op)]
    (s : Machine Mem Disk Op Ans) (l : Label Op) : Option (Machine Mem Disk Op Ans) :=
  match s.mem, l.op with
  | some mem, some op => if allowed mem op then S.step s l else none
  | _, _ => S.step s l

variable {S}

/-- A list of steps that can be followed leads to a reachable state; `view` is
what is to be known of it. -/
theorem exists_machine {α : Type*} {start : Mem} {file : Disk} (allowed : Mem → Op → Prop)
    [∀ mem op, Decidable (allowed mem op)] (labels : List (Label Op))
    (view : Machine Mem Disk Op Ans → Option α) (v : α)
    (h : (follow (S.allowedStep allowed) ⟨some start, file, []⟩ labels).bind view = some v) :
    ∃ s, Reachable (S.system start file allowed) s ∧ view s = some v := by
  obtain ⟨s, hFollow, hView⟩ := Option.bind_eq_some_iff.mp h
  refine ⟨s, ⟨_, labels, rfl, runs_of_follow (fun s l t hStep => ?_) hFollow⟩, hView⟩
  unfold allowedStep at hStep
  split at hStep
  · next mem op hMem hOp =>
      split at hStep
      · next hAllowed =>
          refine ⟨fun mem' op' hMem' hOp' => ?_, hStep⟩
          cases hMem.symm.trans hMem'
          cases hOp.symm.trans hOp'
          exact hAllowed
      · cases hStep
  · next hNone => exact ⟨fun mem op hMem hOp => (hNone mem op hMem hOp).elim, hStep⟩

/-- The same, with `view` looking at the memory. -/
theorem exists_reachable {α : Type*} {start : Mem} {file : Disk} (allowed : Mem → Op → Prop)
    [∀ mem op, Decidable (allowed mem op)] (labels : List (Label Op)) (view : Mem → α) (v : α)
    (h : ((follow (S.allowedStep allowed) ⟨some start, file, []⟩ labels).bind
      fun s => s.mem.map view) = some v) :
    ∃ s mem, Reachable (S.system start file allowed) s ∧ s.mem = some mem ∧ view mem = v := by
  obtain ⟨s, hReach, hView⟩ := exists_machine allowed labels (fun s => s.mem.map view) v h
  obtain ⟨mem, hMem, hView⟩ := Option.map_eq_some_iff.mp hView
  exact ⟨s, mem, hReach, hMem, hView⟩

/-- Steps that meet the condition, followed from the start. -/
theorem exists_reachableWhen {α : Type*} {start : Mem} {file : Disk}
    (allowed : Mem → Label Op → Prop) [∀ mem l, Decidable (allowed mem l)]
    (labels : List (Label Op)) (view : Mem → α) (v : α)
    (h : ((follow (S.stepWhen allowed) ⟨some start, file, []⟩ labels).bind
      fun s => s.mem.map view) = some v) :
    ∃ s mem, Reachable (S.systemWhen start file allowed) s ∧ s.mem = some mem ∧ view mem = v := by
  obtain ⟨s, hFollow, hView⟩ := Option.bind_eq_some_iff.mp h
  obtain ⟨mem, hMem, hView⟩ := Option.map_eq_some_iff.mp hView
  refine ⟨s, mem, ⟨_, labels, rfl, runs_of_follow (fun s l t hStep => ?_) hFollow⟩, hMem, hView⟩
  unfold stepWhen at hStep
  split at hStep
  · next mem hUp =>
      split at hStep
      · next hAllowed =>
          exact ⟨fun mem' hMem' => Option.some.inj (hUp.symm.trans hMem') ▸ hAllowed, hStep⟩
      · cases hStep
  · next hDown => exact ⟨fun mem hMem => (by cases hDown.symm.trans hMem), hStep⟩

/-- What one step can do, said once. -/
theorem step_cases {s t : Machine Mem Disk Op Ans} {l : Label Op} (h : S.step s l = some t) :
    (∃ op saved mem sec, l = .run op saved ∧ s.mem = some mem ∧ S.exec mem op = some sec ∧
      t = ⟨some (sec.result saved).1, sec.written S.content saved s.disk,
        s.history ++ [.answered op (sec.result saved).2]⟩) ∨
    (∃ mem, l = .crash ∧ s.mem = some mem ∧ t = { s with mem := none }) ∨
    (∃ op renamed mem sec, l = .crashDuring op renamed ∧ s.mem = some mem ∧
      S.exec mem op = some sec ∧
      t = ⟨none, sec.written S.content renamed s.disk,
        s.history ++ [.interrupted op (sec.result true).2]⟩) ∨
    (l = .boot ∧ s.mem = none ∧ t = { s with mem := some (S.boot s.disk) }) := by
  cases l with
  | run op saved =>
      obtain ⟨mem, hMem, h⟩ := Option.bind_eq_some_iff.mp h
      obtain ⟨sec, hSec, h⟩ := Option.bind_eq_some_iff.mp h
      exact .inl ⟨op, saved, mem, sec, rfl, hMem, hSec, (Option.some.inj h).symm⟩
  | crash =>
      obtain ⟨mem, hMem, h⟩ := Option.bind_eq_some_iff.mp h
      exact .inr (.inl ⟨mem, rfl, hMem, (Option.some.inj h).symm⟩)
  | crashDuring op renamed =>
      obtain ⟨mem, hMem, h⟩ := Option.bind_eq_some_iff.mp h
      obtain ⟨sec, hSec, h⟩ := Option.bind_eq_some_iff.mp h
      exact .inr (.inr (.inl ⟨op, renamed, mem, sec, rfl, hMem, hSec, (Option.some.inj h).symm⟩))
  | boot =>
      unfold step at h
      cases hMem : s.mem with
      | some mem => simp [hMem] at h
      | none =>
          simp only [hMem, Option.some.injEq] at h
          exact .inr (.inr (.inr ⟨rfl, rfl, h.symm⟩))

/-- With fewer requests allowed there are fewer runs. -/
theorem reachable_mono {start : Mem} {file : Disk} {allowed allowed' : Mem → Op → Prop}
    (hAllowed : ∀ mem op, allowed mem op → allowed' mem op) {s : Machine Mem Disk Op Ans}
    (h : Reachable (S.system start file allowed) s) :
    Reachable (S.system start file allowed') s := by
  refine Reachable.invariant (I := Reachable (S.system start file allowed')) ?_ ?_ h
  · exact fun s hs => Reachable.initial hs
  · exact fun s l t hs hStep =>
      hs.next ⟨fun mem op hMem hOp => hAllowed mem op (hStep.1 mem op hMem hOp), hStep.2⟩

/-- A condition on the requests is one on the steps. -/
theorem reachable_when {start : Mem} {file : Disk} {allowed : Mem → Op → Prop}
    {s : Machine Mem Disk Op Ans} (h : Reachable (S.system start file allowed) s) :
    Reachable (S.systemWhen start file fun mem l => ∀ op, l.op = some op → allowed mem op) s := by
  refine Reachable.invariant (I := Reachable (S.systemWhen start file _)) ?_ ?_ h
  · exact fun s hs => Reachable.initial hs
  · exact fun s l t hs hStep => hs.next ⟨fun mem hMem op hOp => hStep.1 mem op hMem hOp, hStep.2⟩

/-- What one step keeps of memory and file: the section has to keep the memory
invariant on the way out that it takes, and to write only what the file may hold. -/
theorem step_invariant_when {I : Mem → Prop} {K : Disk → Prop}
    (hBoot : ∀ disk, K disk → I (S.boot disk)) {s t : Machine Mem Disk Op Ans} {l : Label Op}
    (hStep : S.step s l = some t)
    (hExec : ∀ mem op ok sec, s.mem = some mem → l.outcome = some (op, ok) → I mem →
      S.exec mem op = some sec →
      I (sec.result ok).1 ∧ ∀ disk, K disk → K (sec.written S.content ok disk))
    (h : (∀ mem, s.mem = some mem → I mem) ∧ K s.disk) :
    (∀ mem, t.mem = some mem → I mem) ∧ K t.disk := by
  obtain ⟨hMem, hDisk⟩ := h
  rcases step_cases hStep with ⟨op, saved, mem, sec, rfl, hs, hSec, rfl⟩ | ⟨mem, rfl, hs, rfl⟩ |
    ⟨op, renamed, mem, sec, rfl, hs, hSec, rfl⟩ | ⟨rfl, hs, rfl⟩
  · obtain ⟨hResult, hWritten⟩ := hExec mem op saved sec hs rfl (hMem mem hs) hSec
    exact ⟨fun m hm => by cases hm; exact hResult, hWritten _ hDisk⟩
  · exact ⟨by simp, hDisk⟩
  · exact ⟨by simp, (hExec mem op renamed sec hs rfl (hMem mem hs) hSec).2 _ hDisk⟩
  · exact ⟨fun m hm => by cases hm; exact hBoot _ hDisk, hDisk⟩

/-- An invariant of memory and file, over whole runs whose steps meet a condition. -/
theorem invariant_when {start : Mem} {file : Disk} {allowed : Mem → Label Op → Prop}
    {I : Mem → Prop} {K : Disk → Prop} (hStart : I start) (hFile : K file)
    (hBoot : ∀ disk, K disk → I (S.boot disk))
    (hExec : ∀ mem l op ok sec, allowed mem l → l.outcome = some (op, ok) → I mem →
      S.exec mem op = some sec →
      I (sec.result ok).1 ∧ ∀ disk, K disk → K (sec.written S.content ok disk))
    {s : Machine Mem Disk Op Ans} (h : Reachable (S.systemWhen start file allowed) s) :
    (∀ mem, s.mem = some mem → I mem) ∧ K s.disk := by
  refine Reachable.invariant
    (I := fun s : Machine Mem Disk Op Ans => (∀ mem, s.mem = some mem → I mem) ∧ K s.disk)
    ?_ ?_ h
  · rintro s rfl
    exact ⟨fun mem hMem => by cases hMem; exact hStart, hFile⟩
  · rintro s l t hBoth ⟨hAllowed, hStep⟩
    exact step_invariant_when hBoot hStep
      (fun mem op ok sec hMem => hExec mem l op ok sec (hAllowed mem hMem)) hBoth

/-- What one step keeps when the section keeps the memory invariant on all its
ways out. -/
theorem step_invariant {I : Mem → Prop} {K : Disk → Prop} (hBoot : ∀ disk, K disk → I (S.boot disk))
    {s t : Machine Mem Disk Op Ans} {l : Label Op} (hStep : S.step s l = some t)
    (hExec : ∀ mem op sec, s.mem = some mem → l.op = some op → I mem → S.exec mem op = some sec →
      sec.Holds I (fun m => K (S.content m)))
    (h : (∀ mem, s.mem = some mem → I mem) ∧ K s.disk) :
    (∀ mem, t.mem = some mem → I mem) ∧ K t.disk := by
  refine step_invariant_when hBoot hStep (fun mem op ok sec hMem hOutcome hIn hSec => ?_) h
  have hHolds := hExec mem op sec hMem (Label.op_of_outcome hOutcome) hIn hSec
  exact ⟨hHolds.result ok, fun disk hDisk => hHolds.written (fun _ hm => hm) hDisk ok⟩

/-- An invariant of memory and file, over whole runs. -/
theorem invariant {start : Mem} {file : Disk} {allowed : Mem → Op → Prop}
    {I : Mem → Prop} {K : Disk → Prop} (hStart : I start) (hFile : K file)
    (hBoot : ∀ disk, K disk → I (S.boot disk))
    (hExec : ∀ mem op sec, allowed mem op → I mem → S.exec mem op = some sec →
      sec.Holds I (fun m => K (S.content m)))
    {s : Machine Mem Disk Op Ans} (h : Reachable (S.system start file allowed) s) :
    (∀ mem, s.mem = some mem → I mem) ∧ K s.disk := by
  refine invariant_when hStart hFile hBoot (fun mem l op ok sec hAllowed hOutcome hIn hSec => ?_)
    (reachable_when h)
  have hHolds := hExec mem op sec (hAllowed op (Label.op_of_outcome hOutcome)) hIn hSec
  exact ⟨hHolds.result ok, fun disk hDisk => hHolds.written (fun _ hm => hm) hDisk ok⟩

end Service
end Durable
