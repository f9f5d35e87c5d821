import NetConductor.Semantics.Refinement

/-! `core.Save`: the value is written to a temporary file beside the target,
which then takes the target's place. -/
namespace NetConductor
open Durable

/-- The next system call of a save. -/
inductive SavePhase where
  | marshal | mkdir | createTemp | chmod | write | sync | close | rename
deriving DecidableEq

/-- A save under way, with the value it was called for. -/
structure SaveJob (Disk : Type) where
  value : Disk
  phase : SavePhase

/-- The directory: the file that `Load` reads, and how many temporary files
lie beside it. -/
structure SaveDir (Disk : Type) where
  target : Disk
  temps : Nat

namespace SaveDir
variable {Disk : Type}

/-- The deferred `os.Remove`. -/
def remove (dir : SaveDir Disk) : SaveDir Disk := { dir with temps := dir.temps - 1 }

/-- One system call, and whether it succeeds. Once `Write` has returned without
an error the temporary file holds the whole value. -/
def advance (dir : SaveDir Disk) (job : SaveJob Disk) (ok : Bool) :
    SaveDir Disk × (SaveJob Disk ⊕ Bool) :=
  match job.phase, ok with
  | .marshal, true => (dir, .inl { job with phase := .mkdir })
  | .marshal, false => (dir, .inr false)
  | .mkdir, true => (dir, .inl { job with phase := .createTemp })
  | .mkdir, false => (dir, .inr false)
  | .createTemp, true => ({ dir with temps := dir.temps + 1 }, .inl { job with phase := .chmod })
  | .createTemp, false => (dir, .inr false)
  | .chmod, true => (dir, .inl { job with phase := .write })
  | .chmod, false => (dir.remove, .inr false)
  | .write, true => (dir, .inl { job with phase := .sync })
  | .write, false => (dir.remove, .inr false)
  | .sync, true => (dir, .inl { job with phase := .close })
  | .sync, false => (dir.remove, .inr false)
  | .close, true => (dir, .inl { job with phase := .rename })
  | .close, false => (dir.remove, .inr false)
  | .rename, true => ({ dir.remove with target := job.value }, .inr true)
  | .rename, false => (dir.remove, .inr false)

end SaveDir

/-- Until the rename the target is what it was, and the rename makes it the
value that was to be saved. -/
def saver (Disk : Type) : Saver Disk (SaveDir Disk) (SaveJob Disk) where
  target := SaveDir.target
  start value := ⟨value, .marshal⟩
  goal := SaveJob.value
  advance := SaveDir.advance
  goal_start _ := rfl
  goal_advance dir job ok job' h := by
    obtain ⟨value, phase⟩ := job
    cases phase <;> cases ok <;> simp only [SaveDir.advance, reduceCtorEq, Sum.inl.injEq] at h <;>
      rw [← h]
  unchanged dir job ok h := by
    obtain ⟨value, phase⟩ := job
    cases phase <;> cases ok <;> first | rfl | exact absurd rfl h
  replaced dir job ok h := by
    obtain ⟨value, phase⟩ := job
    cases phase <;> cases ok <;> simp [SaveDir.advance] at h ⊢

end NetConductor
