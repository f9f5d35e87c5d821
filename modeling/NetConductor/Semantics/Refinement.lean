import NetConductor.Semantics.CriticalSection

/-! The purpose of a durable process, stated on an abstract content: it is a
fold of the requests that were answered with success, and the file holds it
too. A request cut short by a crash may or may not be part of the fold. -/
namespace Durable
open Transition

variable {Mem Disk Op Ans Content : Type*}

/-- `content` is what the history accounts for, `apply` being the effect of a
request given its answer. -/
inductive Explains (apply : Op → Ans → Content → Content) (start : Content) :
    List (Event Op Ans) → Content → Prop where
  | nil : Explains apply start [] start
  | answered {history : List (Event Op Ans)} {c : Content} (op : Op) (ans : Ans)
      (prior : Explains apply start history c) :
      Explains apply start (history ++ [.answered op ans]) (apply op ans c)
  | lost {history : List (Event Op Ans)} {c : Content} (op : Op) (ans : Ans)
      (prior : Explains apply start history c) :
      Explains apply start (history ++ [.interrupted op ans]) c
  | kept {history : List (Event Op Ans)} {c : Content} (op : Op) (ans : Ans)
      (prior : Explains apply start history c) :
      Explains apply start (history ++ [.interrupted op ans]) (apply op ans c)

/-- Without crashes the content is the fold of the answered requests. -/
theorem Explains.fold {apply : Op → Ans → Content → Content} {start c : Content}
    {history : List (Event Op Ans)} (h : Explains apply start history c)
    {answered : List (Op × Ans)}
    (hAnswered : history = answered.map fun e => Event.answered e.1 e.2) :
    c = answered.foldl (fun c e => apply e.1 e.2 c) start := by
  induction h generalizing answered with
  | nil =>
      obtain rfl : answered = [] := by simpa using hAnswered.symm
      rfl
  | answered op ans prior ih =>
      obtain ⟨before, last, rfl, hBefore, hLast⟩ := List.map_eq_append_iff.mp hAnswered.symm
      obtain ⟨e, rfl, hEvent⟩ := List.map_eq_singleton_iff.mp hLast
      obtain ⟨rfl, rfl⟩ := by simpa using hEvent
      rw [List.foldl_append, ih hBefore.symm]
      rfl
  | lost op ans prior ih =>
      obtain ⟨before, last, rfl, hBefore, hLast⟩ := List.map_eq_append_iff.mp hAnswered.symm
      obtain ⟨e, rfl, hEvent⟩ := List.map_eq_singleton_iff.mp hLast
      cases hEvent
  | kept op ans prior ih =>
      obtain ⟨before, last, rfl, hBefore, hLast⟩ := List.map_eq_append_iff.mp hAnswered.symm
      obtain ⟨e, rfl, hEvent⟩ := List.map_eq_singleton_iff.mp hLast
      cases hEvent

/-- Requests without an effect leave the content alone. -/
theorem Explains.unchanged {apply : Op → Ans → Content → Content} {start c : Content}
    {history : List (Event Op Ans)} (h : Explains apply start history c)
    (hAll : ∀ e ∈ history, ∃ op ans, e = .answered op ans ∧ ∀ c, apply op ans c = c) :
    c = start := by
  induction h with
  | nil => rfl
  | answered op ans prior ih =>
      obtain ⟨op', ans', hEvent, hSame⟩ := hAll (.answered op ans) (by simp)
      cases hEvent
      exact (hSame _).trans (ih fun e he => hAll e (by simp [he]))
  | lost op ans prior ih | kept op ans prior ih =>
      obtain ⟨op', ans', hEvent, -⟩ := hAll (.interrupted op ans) (by simp)
      cases hEvent

namespace Section

/-- The section does to the content exactly what its answer says: a section
that answers without saving changes nothing, one that saves writes the changed
content and keeps or takes back the change as the save went. -/
def Implements (view : Mem → Content) (file : Mem → Content) (apply : Ans → Content → Content)
    (before : Content) : Section Mem Ans → Prop
  | answer mem ans => view mem = before ∧ apply ans before = before
  | persist mem saved failed =>
      file mem = apply saved.2 before ∧ view saved.1 = apply saved.2 before ∧
      view failed.1 = before ∧ apply failed.2 before = before

theorem Implements.result {view file : Mem → Content} {apply : Ans → Content → Content}
    {before : Content} {sec : Section Mem Ans} (h : sec.Implements view file apply before)
    (ok : Bool) : view (sec.result ok).1 = apply (sec.result ok).2 before := by
  cases sec with
  | answer mem ans => exact h.1.trans h.2.symm
  | persist mem saved failed =>
      cases ok with
      | true => exact h.2.1
      | false => exact h.2.2.1.trans h.2.2.2.symm

/-- The file after the section, as content. -/
theorem Implements.written {view : Mem → Content} {content : Mem → Disk}
    {fileView : Disk → Content} {apply : Ans → Content → Content} {before : Content}
    {sec : Section Mem Ans} (h : sec.Implements view (fun m => fileView (content m)) apply before)
    {disk : Disk} (hDisk : fileView disk = before) (ok : Bool) :
    fileView (sec.written content ok disk) = apply (sec.result ok).2 before := by
  cases sec with
  | answer mem ans => exact hDisk.trans h.2.symm
  | persist mem saved failed =>
      cases ok with
      | true => exact h.1
      | false => exact hDisk.trans h.2.2.2.symm

/-- A section that never touches the content implements every request that
does nothing to it. -/
theorem Implements.of_holds {view file : Mem → Content} {apply : Ans → Content → Content}
    {before : Content} {sec : Section Mem Ans}
    (h : sec.Holds (fun mem => view mem = before) (fun mem => file mem = before))
    (hApply : ∀ ans c, apply ans c = c) : sec.Implements view file apply before := by
  cases sec with
  | answer mem ans => exact ⟨h, hApply ans before⟩
  | persist mem saved failed =>
      exact ⟨h.1.trans (hApply _ _).symm, h.2.1.trans (hApply _ _).symm, h.2.2, hApply _ _⟩

/-- What the effect of a request keeps holds wherever the section leads. -/
theorem Implements.holds {view file : Mem → Content} {apply : Ans → Content → Content}
    {before : Content} {sec : Section Mem Ans} (h : sec.Implements view file apply before)
    {I : Content → Prop} (hBefore : I before) (hAfter : I (apply (sec.result true).2 before)) :
    sec.Holds (fun mem => I (view mem)) (fun mem => I (file mem)) := by
  cases sec with
  | answer mem ans =>
      rw [holds_answer, h.1]
      exact hBefore
  | persist mem saved failed =>
      obtain ⟨hFile, hSaved, hFailed, -⟩ := h
      rw [holds_persist, hFile, hSaved, hFailed]
      exact ⟨hAfter, hAfter, hBefore⟩

@[simp] theorem implements_map {Mem' : Type*} (f : Mem → Mem') (view file : Mem' → Content)
    (apply : Ans → Content → Content) (before : Content) (sec : Section Mem Ans) :
    (sec.map f).Implements view file apply before ↔
      sec.Implements (fun mem => view (f mem)) (fun mem => file (f mem)) apply before := by
  cases sec <;> rfl

/-- A request that dies leaves the content it was about to answer for, or the
one before it. -/
theorem Implements.interrupted {view : Mem → Content} {content : Mem → Disk}
    {fileView : Disk → Content} {apply : Ans → Content → Content} {before : Content}
    {sec : Section Mem Ans} (h : sec.Implements view (fun m => fileView (content m)) apply before)
    {disk : Disk} (hDisk : fileView disk = before) (renamed : Bool) :
    fileView (sec.written content renamed disk) = before ∨
    fileView (sec.written content renamed disk) = apply (sec.result true).2 before := by
  cases sec with
  | answer mem ans => exact .inl hDisk
  | persist mem saved failed =>
      cases renamed with
      | true => exact .inr h.1
      | false => exact .inl hDisk

end Section

/-- A save that went through is not answered with a refusal. -/
def Section.Honest (refused : Ans → Prop) : Section Mem Ans → Prop
  | .answer _ _ => True
  | .persist _ saved _ => ¬refused saved.2

@[simp] theorem Section.honest_map {Mem' : Type*} (f : Mem → Mem') (refused : Ans → Prop)
    (sec : Section Mem Ans) : (sec.map f).Honest refused ↔ sec.Honest refused := by
  cases sec <;> rfl

/-- A refused operation leaves the disk as it was. -/
theorem Section.Honest.written {refused : Ans → Prop} {sec : Section Mem Ans}
    (h : sec.Honest refused) {ok : Bool} (hRefused : refused (sec.result ok).2)
    (content : Mem → Disk) (disk : Disk) : sec.written content ok disk = disk := by
  cases sec with
  | answer mem ans => rfl
  | persist mem saved failed =>
      cases ok with
      | true => exact absurd hRefused h
      | false => rfl

namespace Service
variable {S : Service Mem Disk Op Ans}

/-- The refinement of the abstract content by the process: from a state whose
memory and file hold one content, every run leads to such a state again, and
what the history has gained explains the new content. -/
theorem explains_run {start : Mem} {file : Disk} {allowed : Mem → Op → Prop}
    (view : Mem → Content) (fileView : Disk → Content) {apply : Op → Ans → Content → Content}
    (hBoot : ∀ disk, view (S.boot disk) = fileView disk)
    (hExec : ∀ mem op sec, S.exec mem op = some sec →
      sec.Implements view (fun m => fileView (S.content m)) (apply op) (view mem))
    {s t : Machine Mem Disk Op Ans} {labels : List (Label Op)}
    (run : Runs (S.system start file allowed) s labels t)
    (hView : ∀ mem, s.mem = some mem → view mem = fileView s.disk) :
    (∀ mem, t.mem = some mem → view mem = fileView t.disk) ∧
    ∃ extra, t.history = s.history ++ extra ∧
      Explains apply (fileView s.disk) extra (fileView t.disk) := by
  induction run with
  | nil => exact ⟨hView, [], (List.append_nil _).symm, Explains.nil⟩
  | snoc prior last ih =>
      obtain ⟨hMiddle, extra, hHistory, hExplains⟩ := ih
      rcases step_cases last.2 with ⟨op, saved, mem, sec, rfl, hs, hSec, rfl⟩ |
        ⟨mem, rfl, hs, rfl⟩ | ⟨op, renamed, mem, sec, rfl, hs, hSec, rfl⟩ | ⟨rfl, hs, rfl⟩
      · have hBefore := hMiddle mem hs
        have hImplements := hExec mem op sec hSec
        have hFile := hImplements.written hBefore.symm saved
        refine ⟨fun m hm => ?_, extra ++ [.answered op (sec.result saved).2], ?_, ?_⟩
        · cases hm
          rw [hFile]
          exact hImplements.result saved
        · rw [hHistory, List.append_assoc]
        · rw [hFile, hBefore]
          exact hExplains.answered op _
      · exact ⟨by simp, extra, hHistory, hExplains⟩
      · have hBefore := hMiddle mem hs
        refine ⟨by simp, extra ++ [.interrupted op (sec.result true).2], ?_, ?_⟩
        · rw [hHistory, List.append_assoc]
        · rcases (hExec mem op sec hSec).interrupted hBefore.symm renamed with hFile | hFile
          · rw [hFile, hBefore]
            exact hExplains.lost op _
          · rw [hFile, hBefore]
            exact hExplains.kept op _
      · exact ⟨fun m hm => by cases hm; exact hBoot _, extra, hHistory, hExplains⟩

/-- A run in which every request was answered, and refused, leaves the whole
file as it was. -/
theorem refused_run {start : Mem} {file : Disk} {allowed : Mem → Op → Prop}
    {refused : Ans → Prop}
    (hHonest : ∀ mem op sec, S.exec mem op = some sec → sec.Honest refused)
    {s t : Machine Mem Disk Op Ans} {labels : List (Label Op)}
    (run : Runs (S.system start file allowed) s labels t) :
    ∃ extra, t.history = s.history ++ extra ∧
      ((∀ e ∈ extra, ∃ op ans, e = .answered op ans ∧ refused ans) → t.disk = s.disk) := by
  induction run with
  | nil => exact ⟨[], (List.append_nil _).symm, fun _ => rfl⟩
  | snoc prior last ih =>
      obtain ⟨extra, hHistory, hKept⟩ := ih
      rcases step_cases last.2 with ⟨op, saved, mem, sec, rfl, hs, hSec, rfl⟩ |
        ⟨mem, rfl, hs, rfl⟩ | ⟨op, renamed, mem, sec, rfl, hs, hSec, rfl⟩ | ⟨rfl, hs, rfl⟩
      · refine ⟨extra ++ [.answered op (sec.result saved).2], ?_, fun hAll => ?_⟩
        · rw [hHistory, List.append_assoc]
        · obtain ⟨op', ans, hEvent, hRefused⟩ := hAll (.answered op (sec.result saved).2) (by simp)
          cases hEvent
          have hFile := (hHonest mem op sec hSec).written hRefused S.content
          exact (hFile _).trans (hKept fun e he => hAll e (by simp [he]))
      · exact ⟨extra, hHistory, hKept⟩
      · refine ⟨extra ++ [.interrupted op (sec.result true).2], ?_, fun hAll => ?_⟩
        · rw [hHistory, List.append_assoc]
        · obtain ⟨op', ans, hEvent, -⟩ := hAll (.interrupted op (sec.result true).2) (by simp)
          cases hEvent
      · exact ⟨extra, hHistory, hKept⟩

end Service

/-! The same process with its saves taken apart. A saver replaces the file in
steps, any of which may fail; only its last step changes the file. -/

/-- One save in progress is a `Job`. `advance files job ok` makes its next step,
which succeeds or fails as `ok` tells, and either goes on or ends with the
outcome of the save. -/
structure Saver (Disk Files Job : Type*) where
  target : Files → Disk
  start : Disk → Job
  goal : Job → Disk
  advance : Files → Job → Bool → Files × (Job ⊕ Bool)
  goal_start : ∀ disk, goal (start disk) = disk
  goal_advance : ∀ files job ok job', (advance files job ok).2 = .inl job' → goal job' = goal job
  unchanged : ∀ files job ok, (advance files job ok).2 ≠ .inr true →
    target (advance files job ok).1 = target files
  replaced : ∀ files job ok, (advance files job ok).2 = .inr true →
    target (advance files job ok).1 = goal job

/-- The request that holds the mutex: its save is under way, or has ended and
the answer is due. -/
inductive Busy (Mem Op Ans Job : Type*) where
  | saving (op : Op) (mem : Mem) (saved failed : Mem × Ans) (job : Job)
  | answering (op : Op) (mem : Mem) (saved failed : Mem × Ans) (ok : Bool)

structure Fine (Mem Files Op Ans Job : Type*) where
  mem : Option Mem
  busy : Option (Busy Mem Op Ans Job)
  files : Files
  history : List (Event Op Ans)

inductive FineLabel (Op : Type*) where
  | enter (op : Op)
  | advance (ok : Bool)
  | reply
  | crash
  | boot

namespace Service
variable {Files Job : Type*} (S : Service Mem Disk Op Ans) (V : Saver Disk Files Job)

def fineStep (s : Fine Mem Files Op Ans Job) :
    FineLabel Op → Option (Fine Mem Files Op Ans Job)
  | .enter op =>
      match s.mem, s.busy with
      | some mem, none => (S.exec mem op).map fun
          | .answer mem' ans =>
              { s with mem := some mem', history := s.history ++ [.answered op ans] }
          | .persist mem' saved failed =>
              { s with mem := some mem'
                       busy := some (.saving op mem' saved failed (V.start (S.content mem'))) }
      | _, _ => none
  | .advance ok =>
      match s.busy with
      | some (.saving op mem saved failed job) =>
          let next := V.advance s.files job ok
          match next.2 with
          | .inl job' =>
              some { s with files := next.1, busy := some (.saving op mem saved failed job') }
          | .inr outcome =>
              some { s with files := next.1
                            busy := some (.answering op mem saved failed outcome) }
      | _ => none
  | .reply =>
      match s.busy with
      | some (.answering op _ saved failed ok) =>
          let out := if ok then saved else failed
          some { s with mem := some out.1, busy := none
                        history := s.history ++ [.answered op out.2] }
      | _ => none
  | .crash =>
      match s.mem, s.busy with
      | none, _ => none
      | some _, none => some { s with mem := none }
      | some _, some (.saving op _ saved _ _) | some _, some (.answering op _ saved _ _) =>
          some { s with mem := none, busy := none
                        history := s.history ++ [.interrupted op saved.2] }
  | .boot =>
      match s.mem with
      | none => some { s with mem := some (S.boot (V.target s.files)) }
      | some _ => none

/-- Every request that enters is one the environment may make. -/
def fineSystem (start : Mem) (files : Files) (allowed : Mem → Op → Prop) :
    System (Fine Mem Files Op Ans Job) (FineLabel Op) where
  initial s := s = ⟨some start, none, files, []⟩
  step s l t := (∀ mem op, s.mem = some mem → l = .enter op → allowed mem op) ∧
    S.fineStep V s l = some t

/-- The state above a fine state: between `enter` and `reply` the coarse
process has not begun the request yet, whatever its save has already done. -/
inductive Abstracts (allowed : Mem → Op → Prop) :
    Fine Mem Files Op Ans Job → Machine Mem Disk Op Ans → Prop where
  | idle (mem : Option Mem) (files : Files) (history : List (Event Op Ans)) :
      Abstracts allowed ⟨mem, none, files, history⟩ ⟨mem, V.target files, history⟩
  | saving {before mem : Mem} {op : Op} {saved failed : Mem × Ans} {job : Job}
      (files : Files) (history : List (Event Op Ans)) (hAllowed : allowed before op)
      (hExec : S.exec before op = some (.persist mem saved failed))
      (hGoal : V.goal job = S.content mem) :
      Abstracts allowed ⟨some mem, some (.saving op mem saved failed job), files, history⟩
        ⟨some before, V.target files, history⟩
  | answering {before mem : Mem} {op : Op} {saved failed : Mem × Ans} {ok : Bool} {disk : Disk}
      (files : Files) (history : List (Event Op Ans)) (hAllowed : allowed before op)
      (hExec : S.exec before op = some (.persist mem saved failed))
      (hFile : V.target files = if ok then S.content mem else disk) :
      Abstracts allowed ⟨some mem, some (.answering op mem saved failed ok), files, history⟩
        ⟨some before, disk, history⟩

variable {S V}

/-- Dying in a section is the coarse step that tells whether the file was
already replaced. -/
theorem runs_crashDuring {start : Mem} {file : Disk} {allowed : Mem → Op → Prop}
    {before mem : Mem} {op : Op} {saved failed : Mem × Ans} {disk : Disk}
    {history : List (Event Op Ans)} (hAllowed : allowed before op)
    (hExec : S.exec before op = some (.persist mem saved failed)) (renamed : Bool) :
    Runs (S.system start file allowed) ⟨some before, disk, history⟩ [.crashDuring op renamed]
      ⟨none, if renamed then S.content mem else disk, history ++ [.interrupted op saved.2]⟩ := by
  apply Runs.single
  refine ⟨fun m o hm ho => ?_, ?_⟩
  · cases hm
    cases ho
    exact hAllowed
  · cases renamed <;> simp [step, hExec, Section.written, Section.result]

/-- Entering a critical section runs it in the abstract store, or begins a save. -/
theorem abstracts_enter {start : Mem} {file : Disk} {allowed : Mem → Op → Prop} {mem : Mem}
    {op : Op} {files : Files} {history : List (Event Op Ans)} {t : Fine Mem Files Op Ans Job}
    (hAllowed : allowed mem op)
    (h : S.fineStep V ⟨some mem, none, files, history⟩ (.enter op) = some t) :
    ∃ labels s', Runs (S.system start file allowed) ⟨some mem, V.target files, history⟩ labels s' ∧
      Abstracts S V allowed t s' := by
  simp only [fineStep, Option.map_eq_some_iff] at h
  obtain ⟨sec, hSec, rfl⟩ := h
  cases sec with
  | answer mem' ans =>
      refine ⟨[.run op true], ⟨some mem', V.target files, history ++ [.answered op ans]⟩,
        Runs.single ⟨fun m o hm ho => ?_, ?_⟩, Abstracts.idle (some mem') files _⟩
      · cases hm
        cases ho
        exact hAllowed
      · simp [step, hSec, Section.result, Section.written]
  | persist mem' saved failed =>
      exact ⟨[], _, Runs.nil _, Abstracts.saving files history hAllowed hSec (V.goal_start _)⟩

/-- The reply after a save is the step of the abstract store, with the same file. -/
theorem abstracts_reply {start : Mem} {file : Disk} {allowed : Mem → Op → Prop}
    {before mem : Mem} {op : Op} {saved failed : Mem × Ans} {ok : Bool} {disk : Disk}
    {files : Files} {history : List (Event Op Ans)} (hAllowed : allowed before op)
    (hExec : S.exec before op = some (.persist mem saved failed))
    (hFile : V.target files = if ok then S.content mem else disk) :
    Runs (S.system start file allowed) ⟨some before, disk, history⟩ [.run op ok]
      ⟨some (if ok then saved else failed).1, V.target files,
        history ++ [.answered op (if ok then saved else failed).2]⟩ := by
  apply Runs.single
  refine ⟨fun m o hm ho => ?_, ?_⟩
  · cases hm
    cases ho
    exact hAllowed
  · cases ok <;> simp_all [step, Section.written, Section.result]

/-- The process with its saves taken apart is simulated by the process whose
sections are single steps. -/
def fineSimulation (start : Mem) (files : Files) (allowed : Mem → Op → Prop) :
    Simulation (S.fineSystem V start files allowed)
      (S.system start (V.target files) allowed) where
  related := Abstracts S V allowed
  initial c hc := by
    subst hc
    exact ⟨_, rfl, Abstracts.idle (some start) files []⟩
  step c s l c' hRelated hStep := by
    obtain ⟨hAllowed, hStep⟩ := hStep
    cases hRelated with
    | idle mem files history =>
        cases l with
        | enter op =>
            cases mem with
            | none => simp [fineStep] at hStep
            | some mem => exact abstracts_enter (hAllowed mem op rfl rfl) hStep
        | advance ok => simp [fineStep] at hStep
        | reply => simp [fineStep] at hStep
        | crash =>
            cases mem with
            | none => simp [fineStep] at hStep
            | some mem =>
                simp only [fineStep, Option.some.injEq] at hStep
                subst hStep
                exact ⟨[.crash], _, Runs.single ⟨by simp [Label.op], rfl⟩,
                  Abstracts.idle none files history⟩
        | boot =>
            cases mem with
            | some mem => simp [fineStep] at hStep
            | none =>
                simp only [fineStep, Option.some.injEq] at hStep
                subst hStep
                exact ⟨[.boot], _, Runs.single ⟨by simp, rfl⟩,
                  Abstracts.idle (some _) files history⟩
    | @saving before mem op saved failed job files history hOp hExec hGoal =>
        cases l with
        | enter op' => simp [fineStep] at hStep
        | advance ok =>
            simp only [fineStep] at hStep
            cases hNext : (V.advance files job ok).2 with
            | inl job' =>
                simp only [hNext, Option.some.injEq] at hStep
                subst hStep
                have hTarget := V.unchanged files job ok (by simp [hNext])
                refine ⟨[], _, Runs.nil _, ?_⟩
                rw [← hTarget]
                exact Abstracts.saving _ history hOp hExec
                  ((V.goal_advance files job ok job' hNext).trans hGoal)
            | inr outcome =>
                simp only [hNext, Option.some.injEq] at hStep
                subst hStep
                refine ⟨[], _, Runs.nil _, Abstracts.answering _ history hOp hExec ?_⟩
                cases outcome with
                | true => simpa [hGoal] using V.replaced files job ok hNext
                | false => simpa using V.unchanged files job ok (by simp [hNext])
        | reply => simp [fineStep] at hStep
        | crash =>
            simp only [fineStep, Option.some.injEq] at hStep
            subst hStep
            exact ⟨_, _, runs_crashDuring hOp hExec false, Abstracts.idle none files _⟩
        | boot => simp [fineStep] at hStep
    | @answering before mem op saved failed ok disk files history hOp hExec hFile =>
        cases l with
        | enter op' => simp [fineStep] at hStep
        | advance ok' => simp [fineStep] at hStep
        | reply =>
            simp only [fineStep, Option.some.injEq] at hStep
            subst hStep
            exact ⟨_, _, abstracts_reply hOp hExec hFile, Abstracts.idle (some _) files _⟩
        | crash =>
            simp only [fineStep, Option.some.injEq] at hStep
            subst hStep
            refine ⟨_, _, runs_crashDuring hOp hExec ok, ?_⟩
            rw [← hFile]
            exact Abstracts.idle none files _
        | boot => simp [fineStep] at hStep

end Service
end Durable
