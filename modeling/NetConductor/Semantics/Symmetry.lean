import NetConductor.Semantics.CriticalSection

/-! Symmetries of a service: renamings of memory, file, requests and answers
that its critical sections carry over. A renamed run is a run again, so nobody
learns from the answers what the renaming leaves out of them. -/
namespace Durable
open Transition

variable {Mem Disk Op Ans : Type*}

namespace Section

def rename (f : Mem → Mem) (g : Ans → Ans) : Section Mem Ans → Section Mem Ans
  | answer mem ans => answer (f mem) (g ans)
  | persist mem saved failed => persist (f mem) (f saved.1, g saved.2) (f failed.1, g failed.2)

@[simp] theorem rename_answer (f : Mem → Mem) (g : Ans → Ans) (mem : Mem) (ans : Ans) :
    (answer mem ans).rename f g = answer (f mem) (g ans) := rfl

@[simp] theorem rename_persist (f : Mem → Mem) (g : Ans → Ans) (mem : Mem)
    (saved failed : Mem × Ans) : (persist mem saved failed).rename f g =
      persist (f mem) (f saved.1, g saved.2) (f failed.1, g failed.2) := rfl

theorem result_rename (f : Mem → Mem) (g : Ans → Ans) (sec : Section Mem Ans) (ok : Bool) :
    (sec.rename f g).result ok = (f (sec.result ok).1, g (sec.result ok).2) := by
  cases sec <;> cases ok <;> rfl

theorem written_rename {f : Mem → Mem} (g : Ans → Ans) {content : Mem → Disk} {d : Disk → Disk}
    (hContent : ∀ mem, content (f mem) = d (content mem)) (sec : Section Mem Ans) (ok : Bool)
    (disk : Disk) : (sec.rename f g).written content ok (d disk) = d (sec.written content ok disk) := by
  cases sec with
  | answer mem ans => rfl
  | persist mem saved failed =>
      cases ok with
      | true => exact hContent mem
      | false => rfl

/-- The section of a part of the memory, renamed in that part. -/
theorem rename_map {Mem' : Type*} {part : Mem → Mem'} {part' : Mem → Mem'} {f : Mem → Mem}
    {f' : Mem' → Mem'} (g : Ans → Ans) (h : ∀ mem, part' (f mem) = f' (part mem))
    (sec : Section Mem Ans) : (sec.rename f g).map part' = (sec.map part).rename f' g := by
  cases sec with
  | answer mem ans => simp [map, h]
  | persist mem saved failed => simp [map, h]

end Section

def Event.map (f : Op → Op) (g : Ans → Ans) : Event Op Ans → Event Op Ans
  | answered op ans => .answered (f op) (g ans)
  | interrupted op ans => .interrupted (f op) (g ans)

def Label.map (f : Op → Op) : Label Op → Label Op
  | run op saved => .run (f op) saved
  | crash => .crash
  | crashDuring op renamed => .crashDuring (f op) renamed
  | boot => .boot

/-- A renaming that starting, saving and every critical section carry over. -/
structure Symmetry (S : Service Mem Disk Op Ans) where
  mem : Mem → Mem
  disk : Disk → Disk
  op : Op → Op
  ans : Ans → Ans
  boot : ∀ d, S.boot (disk d) = mem (S.boot d)
  content : ∀ m, S.content (mem m) = disk (S.content m)
  exec : ∀ m o, S.exec (mem m) (op o) = (S.exec m o).map (Section.rename mem ans)

namespace Symmetry
variable {S : Service Mem Disk Op Ans} (σ : Symmetry S)

def machine (s : Machine Mem Disk Op Ans) : Machine Mem Disk Op Ans where
  mem := s.mem.map σ.mem
  disk := σ.disk s.disk
  history := s.history.map (Event.map σ.op σ.ans)

/-- A step of the renamed machine is the renamed step. -/
theorem step (s : Machine Mem Disk Op Ans) (l : Label Op) :
    S.step (σ.machine s) (l.map σ.op) = (S.step s l).map σ.machine := by
  obtain ⟨mem, disk, history⟩ := s
  cases mem with
  | none => cases l <;> simp [Service.step, machine, Label.map, σ.boot]
  | some mem =>
      cases l with
      | run op saved =>
          cases hExec : S.exec mem op with
          | none => simp [Service.step, machine, Label.map, σ.exec, hExec]
          | some sec => simp [Service.step, machine, Label.map, σ.exec, hExec, Event.map,
              Section.result_rename, Section.written_rename σ.ans σ.content]
      | crashDuring op renamed =>
          cases hExec : S.exec mem op with
          | none => simp [Service.step, machine, Label.map, σ.exec, hExec]
          | some sec => simp [Service.step, machine, Label.map, σ.exec, hExec, Event.map,
              Section.result_rename, Section.written_rename σ.ans σ.content]
      | crash => simp [Service.step, machine, Label.map]
      | boot => simp [Service.step, machine, Label.map]

/-- The renamed labels lead to the renamed machine, or neither leads anywhere. -/
theorem follow_map (s : Machine Mem Disk Op Ans) (labels : List (Label Op)) :
    follow S.step (σ.machine s) (labels.map (Label.map σ.op)) =
      (follow S.step s labels).map σ.machine := by
  induction labels generalizing s with
  | nil => rfl
  | cons l rest ih =>
      rw [List.map_cons, follow, follow, σ.step]
      cases S.step s l with
      | none => rfl
      | some t => exact ih t

end Symmetry
end Durable
