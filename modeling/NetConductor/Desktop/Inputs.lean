import Mathlib.Logic.Function.Basic
import NetConductor.Desktop.Controller

/-! The promises of the controller's `input`. Helpers are replaced while a call
is waiting, their lines and answers travel in pipes, and the timer of a call
kills whatever helper is in use: still every call is settled once, and an
answer settles the call whose line it answers. -/
namespace NetConductor
open Transition

/-- How a promise is settled: by a helper's answer, which is an error or none,
because another call is waiting, because the helper is gone, or by the timer. -/
inductive InputOutcome where
  | answered (error : Option String)
  | busy
  | gone
  | late

structure InputCall where
  line : Option InputLine
  outcomes : List InputOutcome

/-- `waiting` is the call whose `resolve` and `reject` are in `pending`. For each
helper there is the record of what was written to it, with the call, and of
what it answered, with the line. -/
structure InputCalls where
  controller : Controller
  calls : List InputCall
  waiting : Option Nat
  writes : Nat → List (Nat × Option InputLine)
  answers : Nat → List (InputLine × Option String)

/-- The helper in use, if its stdin still takes lines. -/
def Controller.taking (w : Controller) : Option Nat :=
  w.helper.filter fun i => w.processes[i]?.any fun p => !p.closed

/-- The line that a helper handles next, with its answer. -/
def HelperProcess.answer (o : Nat → Bool) (p : HelperProcess) : Option (InputLine × Option String) :=
  p.unread.head?.join.map fun line => (line, (p.helper.handle o line).2)

namespace InputCalls

def start : InputCalls := ⟨.start, [], none, fun _ => [], fun _ => []⟩

/-- A call of `input`; `w` is the controller after it. -/
def call (line : Option InputLine) (w : Controller) (s : InputCalls) : InputCalls :=
  if s.controller.pending then { s with controller := w, calls := s.calls ++ [⟨line, [.busy]⟩] }
  else { s with
    controller := w
    calls := s.calls ++ [⟨line, []⟩]
    waiting := some s.calls.length
    writes := match w.taking with
      | none => s.writes
      | some i => Function.update s.writes i (s.writes i ++ [(s.calls.length, line)]) }

/-- `pending.resolve` or `pending.reject`, after which `pending` is null. -/
def settle (out : InputOutcome) (w : Controller) (s : InputCalls) : InputCalls :=
  match s.waiting with
  | none => { s with controller := w }
  | some c => { s with
      controller := w
      calls := s.calls.modify c fun call => { call with outcomes := call.outcomes ++ [out] }
      waiting := none }

/-- The answer that the next line of the helper's stdout holds. -/
def nextReply (i : Nat) (s : InputCalls) : Option String :=
  (s.controller.processes[i]?.bind fun p => p.replies.head?).join

/-- What helper `i` answers next, recorded. -/
def record (o : Nat → Bool) (i : Nat) (s : InputCalls) : Nat → List (InputLine × Option String) :=
  match s.controller.processes[i]?.bind fun p => p.answer o with
  | some a => Function.update s.answers i (s.answers i ++ [a])
  | none => s.answers

def step (o : Nat → Nat → Bool) (s : InputCalls) (l : ControllerLabel) : Option InputCalls :=
  (s.controller.step o l).map fun w =>
    match l with
    | .input line _ _ => s.call line w
    | .tick order _ => s.call (some (Controller.releaseLine order)) w
    | .reply i =>
        if s.controller.helper = some i then s.settle (.answered (s.nextReply i)) w
        else { s with controller := w }
    | .timeout => s.settle .late w
    | .gone i => if s.controller.helper = some i then s.settle .gone w else { s with controller := w }
    | .work i _ => { s with controller := w, answers := s.record (o i) i }
    | _ => { s with controller := w }

def system (o : Nat → Nat → Bool) : System InputCalls ControllerLabel where
  initial s := s = start
  step s l t := s.step o l = some t

/-- Call `c` wrote a line that some helper answered with `e`: the line and the
answer are at one place in what the helper was given and in what it gave. -/
def Answered (s : InputCalls) (c : Nat) (e : Option String) : Prop :=
  ∃ (i k : Nat) (line : InputLine),
    (s.writes i)[k]? = some (c, some line) ∧ (s.answers i)[k]? = some (line, e)

/-- What a helper has answered are the first lines that it was given; the last
answers may not have been read yet. -/
structure Ledger (writes : List (Nat × Option InputLine))
    (answers : List (InputLine × Option String)) (p : HelperProcess) : Prop where
  lines : ∃ rest, writes.map Prod.snd = answers.map (fun a => some a.1) ++ rest ∧
    (p.alive = true → rest = p.unread)
  replies : ∃ read, answers.map Prod.snd = read ++ p.replies

/-- The helper in use owes an answer to the waiting call at most, and to that
only for its last line. -/
def Owes (s : InputCalls) (i : Nat) (p : HelperProcess) : Prop :=
  (s.writes i).length + p.replies.length = (s.answers i).length ∨
    ∃ c line before, s.waiting = some c ∧ s.writes i = before ++ [(c, line)] ∧
      before.length + p.replies.length = (s.answers i).length

structure Sound (s : InputCalls) : Prop where
  ledger : ∀ (i : Nat) p, s.controller.processes[i]? = some p → Ledger (s.writes i) (s.answers i) p
  fresh : ∀ i : Nat, s.controller.processes[i]? = none → s.writes i = [] ∧ s.answers i = []
  helper : ∀ i : Nat, s.controller.helper = some i → i < s.controller.processes.length
  owes : ∀ (i : Nat) p, s.controller.helper = some i → s.controller.processes[i]? = some p →
    s.Owes i p
  pending : s.controller.ended = false → s.controller.pending = s.waiting.isSome
  written : ∀ i c line, (c, line) ∈ s.writes i →
    ∃ call, s.calls[c]? = some call ∧ call.line = line
  present : ∀ c, s.waiting = some c → c < s.calls.length
  unsettled : ∀ (c : Nat) call, s.calls[c]? = some call → (call.outcomes = [] ↔ s.waiting = some c)
  settled : ∀ (c : Nat) call out, s.calls[c]? = some call → out ∈ call.outcomes →
    call.outcomes = [out] ∧ ∀ e, out = .answered e → s.Answered c e

/-- A step of the controller in which no line is written and none is handled:
helpers end or are told to, and what they answered is read. -/
structure Calm (w v : Controller) : Prop where
  processes : ∀ (i : Nat) q, v.processes[i]? = some q → ∃ p, w.processes[i]? = some p ∧
    (q.alive = true → p.alive = true ∧ q.unread = p.unread) ∧ ∃ read, p.replies = read ++ q.replies
  length : v.processes.length = w.processes.length

variable {s t : InputCalls} {w : Controller}

/-- A step that writes nothing and reads nothing keeps the ledger. -/
theorem Ledger.calm {writes : List (Nat × Option InputLine)}
    {answers : List (InputLine × Option String)} {p q : HelperProcess} (h : Ledger writes answers p)
    (hAlive : q.alive = true → p.alive = true ∧ q.unread = p.unread)
    (hReplies : ∃ read, p.replies = read ++ q.replies) : Ledger writes answers q := by
  obtain ⟨rest, hLines, hRest⟩ := h.lines
  obtain ⟨earlier, hEarlier⟩ := h.replies
  obtain ⟨read, hRead⟩ := hReplies
  exact ⟨⟨rest, hLines, fun hq => (hRest (hAlive hq).1).trans (hAlive hq).2.symm⟩,
    ⟨earlier ++ read, by rw [hEarlier, hRead, List.append_assoc]⟩⟩

/-- The part of the invariant that does not read who is waiting. -/
theorem Sound.ledger_calm (h : s.Sound) (hCalm : Calm s.controller w) :
    (∀ (i : Nat) q, w.processes[i]? = some q → Ledger (s.writes i) (s.answers i) q) ∧
      ∀ i : Nat, w.processes[i]? = none → s.writes i = [] ∧ s.answers i = [] := by
  constructor
  · intro i q hq
    obtain ⟨p, hp, hAlive, hReplies⟩ := hCalm.processes i q hq
    exact (h.ledger i p hp).calm hAlive hReplies
  · intro i hNone
    apply h.fresh
    rw [List.getElem?_eq_none_iff] at hNone ⊢
    exact hCalm.length ▸ hNone

/-- A step in which no line is written and none handled leaves calls and answers as they
are. -/
theorem Sound.calm (h : s.Sound) (hCalm : Calm s.controller w)
    (hHelper : ∀ (i : Nat) q, w.helper = some i → w.processes[i]? = some q →
      ∃ p, s.controller.processes[i]? = some p ∧ q.replies = p.replies)
    (hSame : ∀ i, w.helper = some i → s.controller.helper = some i)
    (hPending : w.ended = false → s.controller.ended = false ∧ w.pending = s.controller.pending) :
    Sound { s with controller := w } where
  ledger := (h.ledger_calm hCalm).1
  fresh := (h.ledger_calm hCalm).2
  helper i hi := hCalm.length ▸ h.helper i (hSame i hi)
  owes i q hi hq := by
    obtain ⟨p, hp, hReplies⟩ := hHelper i q hi hq
    have hOwes := h.owes i p (hSame i hi) hp
    unfold Owes at hOwes ⊢
    rw [hReplies]
    exact hOwes
  pending hEnded := (hPending hEnded).2.trans (h.pending (hPending hEnded).1)
  written := h.written
  present := h.present
  unsettled := h.unsettled
  settled := h.settled

/-- The call that waits is settled, with the answer that its helper owed it if it has
one. -/
theorem Sound.settle (h : s.Sound) {out : InputOutcome} (hCalm : Calm s.controller w)
    (hSame : ∀ i, w.helper = some i → s.controller.helper = some i)
    (hRead : ∀ (i : Nat) q, w.helper = some i → w.processes[i]? = some q →
      (s.writes i).length + q.replies.length = (s.answers i).length)
    (hPending : w.pending = false)
    (hOut : ∀ c e, s.waiting = some c → out = .answered e → s.Answered c e) :
    Sound (s.settle out w) := by
  unfold InputCalls.settle
  split
  · next hNone =>
      exact {
        ledger := (h.ledger_calm hCalm).1
        fresh := (h.ledger_calm hCalm).2
        helper := fun i hi => hCalm.length ▸ h.helper i (hSame i hi)
        owes := fun i q hi hq => .inl (hRead i q hi hq)
        pending := fun _ => by rw [hPending, hNone]; rfl
        written := h.written
        present := h.present
        unsettled := h.unsettled
        settled := h.settled }
  · next c hWaiting =>
      have hCall : ∀ (d : Nat) call, (s.calls.modify c fun call =>
          { call with outcomes := call.outcomes ++ [out] })[d]? = some call →
          d = c ∧ call.outcomes = [out] ∧ (∃ old, s.calls[d]? = some old ∧ old.line = call.line) ∨
            d ≠ c ∧ s.calls[d]? = some call := by
        intro d call hd
        rw [List.getElem?_modify] at hd
        obtain ⟨old, hOld, hNew⟩ := Option.map_eq_some_iff.mp hd
        by_cases hdc : c = d
        · subst hdc
          have hOpen := (h.unsettled c old hOld).mpr hWaiting
          rw [if_pos rfl] at hNew
          subst hNew
          exact .inl ⟨rfl, by simp [hOpen], old, hOld, rfl⟩
        · rw [if_neg hdc] at hNew
          exact .inr ⟨Ne.symm hdc, hNew ▸ hOld⟩
      exact {
        ledger := (h.ledger_calm hCalm).1
        fresh := (h.ledger_calm hCalm).2
        helper := fun i hi => hCalm.length ▸ h.helper i (hSame i hi)
        owes := fun i q hi hq => .inl (hRead i q hi hq)
        pending := fun _ => hPending
        written := fun i d line hd => by
          obtain ⟨call, hOld, hLine⟩ := h.written i d line hd
          rw [List.getElem?_modify, hOld]
          exact ⟨_, rfl, by dsimp only; split <;> exact hLine⟩
        present := fun d hd => by cases hd
        unsettled := fun d call hd => by
          refine ⟨fun hOpen => ?_, fun hNone => by cases hNone⟩
          rcases hCall d call hd with ⟨-, hOutcomes, -⟩ | ⟨hdc, hOld⟩
          · rw [hOutcomes] at hOpen
            cases hOpen
          · have hd := (h.unsettled d call hOld).mp hOpen
            exact absurd (Option.some.inj (hd.symm.trans hWaiting)) hdc
        settled := fun d call out' hd hOut' => by
          rcases hCall d call hd with ⟨rfl, hOutcomes, -⟩ | ⟨-, hOld⟩
          · rw [hOutcomes, List.mem_singleton] at hOut'
            subst hOut'
            exact ⟨hOutcomes, fun e he => hOut d e hWaiting he⟩
          · exact h.settled d call out' hOld hOut' }

/-- A helper that starts owes nothing. -/
theorem Sound.spawn (h : s.Sound) (starts : Bool) :
    Sound { s with controller := s.controller.spawn starts } := by
  unfold Controller.spawn
  split
  · exact h
  · next hNone =>
      have hFresh := h.fresh s.controller.processes.length (List.getElem?_eq_none (Nat.le_refl _))
      exact {
        ledger := fun i q hq => by
          rcases Slots.getElem?_concat.mp hq with hOld | ⟨rfl, rfl⟩
          · exact h.ledger i q hOld
          · rw [hFresh.1, hFresh.2]
            exact ⟨⟨[], rfl, fun _ => rfl⟩, [], rfl⟩
        fresh := fun i hi => by
          apply h.fresh
          rw [List.getElem?_eq_none_iff] at hi ⊢
          simp only [List.length_append, List.length_singleton] at hi
          omega
        helper := fun i hi => by
          obtain rfl := Option.some.inj hi
          simp
        owes := fun i q hi hq => by
          obtain rfl := Option.some.inj hi
          rcases Slots.getElem?_concat.mp hq with hOld | ⟨-, rfl⟩
          · simp at hOld
          · refine .inl ?_
            dsimp only
            rw [hFresh.1, hFresh.2]
            rfl
        pending := h.pending
        written := h.written
        present := h.present
        unsettled := h.unsettled
        settled := h.settled }

/-- A call that finds another one waiting. -/
theorem Sound.busy (h : s.Sound) (line : Option InputLine) :
    Sound { s with calls := s.calls ++ [⟨line, [.busy]⟩] } where
  ledger := h.ledger
  fresh := h.fresh
  helper := h.helper
  owes := h.owes
  pending := h.pending
  written i c line hc := by
    obtain ⟨call, hCall, hLine⟩ := h.written i c line hc
    exact ⟨call, Slots.getElem?_concat.mpr (.inl hCall), hLine⟩
  present c hc := by
    have hLt := h.present c hc
    simp only [List.length_append, List.length_singleton]
    omega
  unsettled c call hc := by
    rcases Slots.getElem?_concat.mp hc with hOld | ⟨rfl, rfl⟩
    · exact h.unsettled c call hOld
    · exact ⟨fun hOpen => (by cases hOpen), fun hWaiting =>
        absurd (h.present _ hWaiting) (Nat.lt_irrefl _)⟩
  settled c call out hc hOut := by
    rcases Slots.getElem?_concat.mp hc with hOld | ⟨-, rfl⟩
    · exact h.settled c call out hOld hOut
    · obtain rfl := List.mem_singleton.mp hOut
      exact ⟨rfl, fun e he => by cases he⟩

theorem getElem?_of_prefix {α : Type} {xs ys : List α} (h : xs <+: ys) {k : Nat} {x : α}
    (hx : xs[k]? = some x) : ys[k]? = some x := by
  obtain ⟨hLt, rfl⟩ := List.getElem?_eq_some_iff.mp hx
  exact List.prefix_iff_getElem?.mp h k hLt

/-- What was answered stays answered when more is written and answered. -/
theorem Answered.grows {c : Nat} {e : Option String} (h : s.Answered c e)
    (hWrites : ∀ i, s.writes i <+: t.writes i) (hAnswers : ∀ i, s.answers i <+: t.answers i) :
    t.Answered c e := by
  obtain ⟨i, k, line, hWrite, hAnswer⟩ := h
  exact ⟨i, k, line, getElem?_of_prefix (hWrites i) hWrite,
    getElem?_of_prefix (hAnswers i) hAnswer⟩

theorem prefix_update {α : Type} (f : Nat → List α) (i : Nat) (x : α) (j : Nat) :
    f j <+: Function.update f i (f i ++ [x]) j := by
  rw [Function.update_apply]
  split
  · next hj => exact hj ▸ List.prefix_append _ _
  · exact List.prefix_refl _

/-- A call that nobody keeps from waiting; what there is for the processes is
left to show. -/
theorem Sound.waits (h : s.Sound) {line : Option InputLine} (hWaiting : s.waiting = none)
    (hPending : w.pending = true) {writes : Nat → List (Nat × Option InputLine)}
    (hWrites : ∀ i, s.writes i <+: writes i)
    (hNew : ∀ i c l, (c, l) ∈ writes i → (c, l) ∈ s.writes i ∨ c = s.calls.length ∧ l = line)
    (hProcesses : ∀ (i : Nat) q, w.processes[i]? = some q → Ledger (writes i) (s.answers i) q)
    (hFresh : ∀ i : Nat, w.processes[i]? = none → writes i = [] ∧ s.answers i = [])
    (hHelper : ∀ i : Nat, w.helper = some i → i < w.processes.length)
    (hOwes : ∀ (i : Nat) q, w.helper = some i → w.processes[i]? = some q →
      Owes ⟨w, s.calls ++ [⟨line, []⟩], some s.calls.length, writes, s.answers⟩ i q) :
    Sound ⟨w, s.calls ++ [⟨line, []⟩], some s.calls.length, writes, s.answers⟩ where
  ledger := hProcesses
  fresh := hFresh
  helper := hHelper
  owes := hOwes
  pending _ := hPending
  written i c l hc := by
    rcases hNew i c l hc with hOld | ⟨rfl, rfl⟩
    · obtain ⟨call, hCall, hLine⟩ := h.written i c l hOld
      exact ⟨call, Slots.getElem?_concat.mpr (.inl hCall), hLine⟩
    · exact ⟨_, Slots.getElem?_concat.mpr (.inr ⟨rfl, rfl⟩), rfl⟩
  present c hc := by
    obtain rfl := Option.some.inj hc
    simp
  unsettled c call hc := by
    rcases Slots.getElem?_concat.mp hc with hOld | ⟨rfl, rfl⟩
    · have hLt := (List.getElem?_eq_some_iff.mp hOld).1
      refine ⟨fun hOpen => ?_, fun hSame => ?_⟩
      · rw [(h.unsettled c call hOld).mp hOpen] at hWaiting
        cases hWaiting
      · exact absurd (Option.some.inj hSame) (Nat.ne_of_gt hLt)
    · exact ⟨fun _ => rfl, fun _ => rfl⟩
  settled c call out hc hOut := by
    rcases Slots.getElem?_concat.mp hc with hOld | ⟨-, rfl⟩
    · obtain ⟨hOne, hAnswered⟩ := h.settled c call out hOld hOut
      exact ⟨hOne, fun e he => (hAnswered e he).grows hWrites fun _ => List.prefix_refl _⟩
    · cases hOut

theorem length_onHelper (f : HelperProcess → HelperProcess) (w : Controller) :
    (w.onHelper f).processes.length = w.processes.length := by
  unfold Controller.onHelper
  split
  · rfl
  · simp

theorem helper_onHelper (f : HelperProcess → HelperProcess) (w : Controller) :
    (w.onHelper f).helper = w.helper := by
  unfold Controller.onHelper
  split <;> rfl

@[simp] theorem pending_onHelper (f : HelperProcess → HelperProcess) (w : Controller) :
    (w.onHelper f).pending = w.pending := by
  unfold Controller.onHelper
  split <;> rfl

@[simp] theorem ended_onHelper (f : HelperProcess → HelperProcess) (w : Controller) :
    (w.onHelper f).ended = w.ended := by
  unfold Controller.onHelper
  split <;> rfl

@[simp] theorem closed_write (line : Option InputLine) (p : HelperProcess) :
    (p.write line).closed = p.closed := by
  unfold HelperProcess.write
  split <;> rfl

@[simp] theorem replies_write (line : Option InputLine) (p : HelperProcess) :
    (p.write line).replies = p.replies := by
  unfold HelperProcess.write
  split <;> rfl

theorem taking_iff {i : Nat} : w.taking = some i ↔
    w.helper = some i ∧ ∃ p, w.processes[i]? = some p ∧ p.closed = false := by
  simp [Controller.taking, Option.filter_eq_some_iff, Option.any_eq_true]

/-- A line that is written joins the end of the ledger. -/
theorem Ledger.write {writes : List (Nat × Option InputLine)}
    {answers : List (InputLine × Option String)} {p : HelperProcess} (h : Ledger writes answers p)
    (hOpen : p.closed = false) (c : Nat) (line : Option InputLine) :
    Ledger (writes ++ [(c, line)]) answers (p.write line) := by
  obtain ⟨rest, hLines, hRest⟩ := h.lines
  have hWrite : p.write line = { p with unread := p.unread ++ [line] } := by
    simp [HelperProcess.write, hOpen]
  rw [hWrite]
  exact ⟨⟨rest ++ [line], by simp [hLines], fun hAlive => by rw [hRest hAlive]⟩, h.replies⟩

/-- Nobody waits while `pending` is null. -/
theorem Sound.idle (h : s.Sound) (hEnded : s.controller.ended = false)
    (hIdle : s.controller.pending = false) : s.waiting = none := by
  have hNone := h.pending hEnded
  rw [hIdle] at hNone
  exact Option.isNone_iff_eq_none.mp (by simpa using hNone.symm)

/-- While nobody waits, the helper in use owes no answer. -/
theorem Sound.even (h : s.Sound) (hWaiting : s.waiting = none) {i : Nat} {p : HelperProcess}
    (hi : s.controller.helper = some i) (hp : s.controller.processes[i]? = some p) :
    (s.writes i).length + p.replies.length = (s.answers i).length := by
  rcases h.owes i p hi hp with hEven | ⟨c, -, -, hc, -⟩
  · exact hEven
  · rw [hWaiting] at hc
    cases hc

theorem Sound.fresh_onHelper (h : s.Sound) {f : HelperProcess → HelperProcess} {i : Nat}
    (hi : (s.controller.onHelper f).processes[i]? = none) : s.writes i = [] ∧ s.answers i = [] := by
  apply h.fresh
  rw [List.getElem?_eq_none_iff] at hi ⊢
  exact length_onHelper f s.controller ▸ hi

theorem Sound.bound_onHelper (h : s.Sound) {f : HelperProcess → HelperProcess} {i : Nat}
    (hi : (s.controller.onHelper f).helper = some i) : i < (s.controller.onHelper f).processes.length := by
  rw [length_onHelper]
  exact h.helper i (helper_onHelper f s.controller ▸ hi)

/-- The stdin of the helper in use is closed: the line is lost, and every process
is as it was. -/
theorem Sound.lost (h : s.Sound) {line : Option InputLine} {now : Nat} (hWaiting : s.waiting = none)
    (hTaking : Controller.taking { s.controller.onHelper (.write line) with pending := true, lastInput := now } =
      none) :
    Sound ⟨{ s.controller.onHelper (.write line) with pending := true, lastInput := now },
      s.calls ++ [⟨line, []⟩], some s.calls.length, s.writes, s.answers⟩ := by
  -- The line is lost: every process is as it was.
  have hSame : ∀ (i : Nat) q, (s.controller.onHelper (.write line)).processes[i]? = some q →
      s.controller.processes[i]? = some q := by
    intro i q hq
    have hq' := hq
    rw [Controller.getElem?_onHelper] at hq
    split_ifs at hq with hi
    · obtain ⟨p, hp, rfl⟩ := Option.map_eq_some_iff.mp hq
      have hClosed : p.closed = true := by
        by_contra hOpen
        refine absurd hTaking (Option.ne_none_iff_exists'.mpr ⟨i, taking_iff.mpr ⟨?_, _, hq', ?_⟩⟩)
        · exact (helper_onHelper (.write line) s.controller).trans hi
        · simpa using hOpen
      simpa [HelperProcess.write, hClosed] using hp
    · exact hq
  exact h.waits hWaiting rfl (fun _ => List.prefix_refl _) (fun _ _ _ => .inl)
    (fun i q hq => h.ledger i q (hSame i q hq)) (fun _ => h.fresh_onHelper)
    (fun _ => h.bound_onHelper)
    fun i q hi hq => .inl (h.even hWaiting (helper_onHelper (.write line) s.controller ▸ hi) (hSame i q hq))

/-- The line is written to helper `i`, which owes its answer from then on. -/
theorem Sound.taken (h : s.Sound) {line : Option InputLine} {now i : Nat} (hWaiting : s.waiting = none)
    (hTaking : Controller.taking { s.controller.onHelper (.write line) with pending := true, lastInput := now } =
      some i) :
    Sound ⟨{ s.controller.onHelper (.write line) with pending := true, lastInput := now },
      s.calls ++ [⟨line, []⟩], some s.calls.length,
      Function.update s.writes i (s.writes i ++ [(s.calls.length, line)]), s.answers⟩ := by
  obtain ⟨hi, q, hq, hOpen⟩ := taking_iff.mp hTaking
  have hi : s.controller.helper = some i :=
    (helper_onHelper (.write line) s.controller).symm.trans hi
  have hq : (s.controller.onHelper (.write line)).processes[i]? = some q := hq
  rw [Controller.getElem?_onHelper, if_pos hi] at hq
  obtain ⟨p, hp, rfl⟩ := Option.map_eq_some_iff.mp hq
  rw [closed_write] at hOpen
  refine h.waits hWaiting rfl (prefix_update s.writes i _) ?_ ?_ ?_ (fun _ => h.bound_onHelper) ?_
  · intro j c l hc
    rw [Function.update_apply] at hc
    split at hc
    · next hj =>
        subst hj
        rcases List.mem_append.mp hc with hOld | hNew
        · exact .inl hOld
        · simpa using Or.inr (Prod.mk.injEq .. ▸ List.mem_singleton.mp hNew)
    · exact .inl hc
  · intro j r hr
    have hr : (s.controller.onHelper (.write line)).processes[j]? = some r := hr
    rw [Controller.getElem?_onHelper] at hr
    split_ifs at hr with hj
    · obtain rfl := Option.some.inj (hi.symm.trans hj)
      obtain ⟨p', hp', rfl⟩ := Option.map_eq_some_iff.mp hr
      obtain rfl := Option.some.inj (hp.symm.trans hp')
      rw [Function.update_self]
      exact (h.ledger i p hp).write hOpen _ line
    · rw [Function.update_of_ne fun hSame : j = i => hj (hSame ▸ hi)]
      exact h.ledger j r hr
  · intro j hj
    have hNe : j ≠ i := by
      rintro rfl
      exact Nat.lt_irrefl _ (Nat.lt_of_lt_of_le (h.bound_onHelper (f := .write line)
        ((helper_onHelper (.write line) s.controller).trans hi)) (List.getElem?_eq_none_iff.mp hj))
    rw [Function.update_of_ne hNe]
    exact h.fresh_onHelper hj
  · intro j r hj hr
    obtain rfl := Option.some.inj
      (hi.symm.trans ((helper_onHelper (.write line) s.controller).symm.trans hj))
    have hr : (s.controller.onHelper (.write line)).processes[i]? = some r := hr
    rw [Controller.getElem?_onHelper, if_pos hi, hp] at hr
    obtain rfl := Option.some.inj hr
    refine .inr ⟨_, line, s.writes i, rfl, Function.update_self .., ?_⟩
    rw [replies_write]
    exact h.even hWaiting hi hp

/-- A call that finds nobody waiting: the line is written to the helper in use,
if its stdin is still open. -/
theorem Sound.write (h : s.Sound) (line : Option InputLine) (now : Nat)
    (hEnded : s.controller.ended = false) (hIdle : s.controller.pending = false) :
    (s.call line { s.controller.onHelper (.write line) with
      pending := true, lastInput := now }).Sound := by
  have hWaiting := h.idle hEnded hIdle
  unfold InputCalls.call
  rw [if_neg (by simp [hIdle])]
  split
  · next hTaking => exact h.lost hWaiting hTaking
  · next i hTaking => exact h.taken hWaiting hTaking

/-- A call of `input`, with the helper that it starts if there is none. -/
theorem Sound.input (h : s.Sound) (line : Option InputLine) (now : Nat) (starts : Bool)
    (hEnded : s.controller.ended = false) :
    (s.call line (s.controller.input line now starts)).Sound := by
  have hSpawn := h.spawn starts
  have hPending : (s.controller.spawn starts).pending = s.controller.pending := by
    unfold Controller.spawn
    split <;> rfl
  have hStill : (s.controller.spawn starts).ended = false := by
    unfold Controller.spawn
    split <;> exact hEnded
  unfold Controller.input
  dsimp only
  split
  · next hBusy =>
      have hCall := hSpawn.busy line
      unfold InputCalls.call
      rw [if_pos (hPending ▸ hBusy)]
      exact hCall
  · next hIdle =>
      have hIdle := Bool.eq_false_iff.mpr hIdle
      have hCall := hSpawn.write line now hStill hIdle
      unfold InputCalls.call at hCall ⊢
      rw [if_neg (by simp [hIdle])] at hCall
      rw [if_neg (by simp [← hPending, hIdle])]
      exact hCall

/-- One process ends, or has an answer read. -/
theorem Calm.set {i : Nat} {p q : HelperProcess} (hp : w.processes[i]? = some p)
    (hAlive : q.alive = true → p.alive = true ∧ q.unread = p.unread)
    (hReplies : ∃ read, p.replies = read ++ q.replies) :
    Calm w { w with processes := w.processes.set i q } where
  processes j r hr := by
    rw [List.getElem?_set] at hr
    split_ifs at hr with hj hLt
    · obtain rfl := Option.some.inj hr
      exact ⟨p, hj ▸ hp, hAlive, hReplies⟩
    · exact ⟨r, hr, fun hr => ⟨hr, rfl⟩, [], rfl⟩
  length := by simp

/-- A calm change of the helper in use leaves the writes and answers alone. -/
theorem calm_onHelper {f : HelperProcess → HelperProcess} (w : Controller)
    (hf : ∀ p, ((f p).alive = true → p.alive = true ∧ (f p).unread = p.unread) ∧
      (f p).replies = p.replies) : Calm w (w.onHelper f) where
  processes i q hq := by
    rw [Controller.getElem?_onHelper] at hq
    split_ifs at hq with hi
    · obtain ⟨p, hp, rfl⟩ := Option.map_eq_some_iff.mp hq
      exact ⟨p, hp, (hf p).1, [], (hf p).2.symm⟩
    · exact ⟨q, hq, fun hAlive => ⟨hAlive, rfl⟩, [], rfl⟩
  length := length_onHelper f w

/-- A helper ends; nothing is written, answered or read. -/
theorem Sound.ends (h : s.Sound) {i : Nat} {p q : HelperProcess}
    (hp : s.controller.processes[i]? = some p) (hDead : q.alive = false)
    (hReplies : q.replies = p.replies) :
    Sound { s with controller := { s.controller with processes := s.controller.processes.set i q } } := by
  refine h.calm (.set hp (fun hAlive => ?_) ⟨[], hReplies.symm⟩) (fun j r hj hr => ?_) (fun _ => id)
    fun hEnded => ⟨hEnded, rfl⟩
  · rw [hDead] at hAlive
    cases hAlive
  · rw [List.getElem?_set] at hr
    split_ifs at hr with hSame hLt
    · obtain rfl := Option.some.inj hr
      exact ⟨p, hSame ▸ hp, hReplies⟩
    · exact ⟨r, hr, rfl⟩

/-- A helper handles its next line and answers it. -/
theorem Sound.answer (h : s.Sound) {i : Nat} {p q : HelperProcess} {line : InputLine}
    {rest : List (Option InputLine)} {e : Option String}
    (hp : s.controller.processes[i]? = some p) (hAlive : p.alive = true)
    (hUnread : p.unread = some line :: rest) (hRest : q.unread = rest)
    (hReplies : q.replies = p.replies ++ [e]) :
    Sound { s with
      controller := { s.controller with processes := s.controller.processes.set i q }
      answers := Function.update s.answers i (s.answers i ++ [(line, e)]) } where
  ledger j r hr := by
    rw [List.getElem?_set] at hr
    split_ifs at hr with hj hLt
    · obtain rfl := Option.some.inj hr
      obtain rfl := hj
      obtain ⟨left, hLines, hLeft⟩ := (h.ledger i p hp).lines
      obtain ⟨read, hRead⟩ := (h.ledger i p hp).replies
      dsimp only
      rw [Function.update_self]
      refine ⟨⟨rest, ?_, fun _ => hRest.symm⟩, read, ?_⟩
      · simp [hLines, hLeft hAlive, hUnread]
      · simp [hRead, hReplies]
    · dsimp only
      rw [Function.update_of_ne (Ne.symm hj)]
      exact h.ledger j r hr
  fresh j hj := by
    have hOld : s.controller.processes[j]? = none := by
      rw [List.getElem?_eq_none_iff] at hj ⊢
      simpa using hj
    have hNe : j ≠ i := by
      rintro rfl
      rw [hp] at hOld
      cases hOld
    dsimp only
    rw [Function.update_of_ne hNe]
    exact h.fresh j hOld
  helper j hj := by simpa using h.helper j hj
  owes j r hj hr := by
    rw [List.getElem?_set] at hr
    split_ifs at hr with hSame hLt
    · obtain rfl := Option.some.inj hr
      obtain rfl := hSame
      unfold Owes
      dsimp only
      rw [Function.update_self, hReplies, List.length_append, List.length_append]
      rcases h.owes i p hj hp with hEven | ⟨c, l, before, hc, hBefore, hLast⟩
      · exact .inl (by rw [← hEven]; simp [Nat.add_assoc])
      · exact .inr ⟨c, l, before, hc, hBefore, by rw [← hLast]; simp [Nat.add_assoc]⟩
    · unfold Owes
      dsimp only
      rw [Function.update_of_ne (Ne.symm hSame)]
      exact h.owes j r hj hr
  pending := h.pending
  written := h.written
  present := h.present
  unsettled := h.unsettled
  settled c call out hc hOut := by
    obtain ⟨hOne, hAnswered⟩ := h.settled c call out hc hOut
    exact ⟨hOne, fun e he => (hAnswered e he).grows (fun _ => List.prefix_refl _)
      (prefix_update s.answers i _)⟩

theorem process_eq_some {i : Nat} {enabled : HelperProcess → Bool}
    {f : HelperProcess → Option HelperProcess} {v : Controller} :
    w.process i enabled f = some v ↔ ∃ p q, w.processes[i]? = some p ∧
      enabled p = true ∧ f p = some q ∧ { w with processes := w.processes.set i q } = v := by
  unfold Controller.process
  split
  · next hNone => simp [hNone]
  · next p hp => simp [hp]

/-- A helper handles a line and answers it, or is ended by its length. -/
theorem Sound.work (h : s.Sound) {o : Nat → Bool} {i : Nat} {order : MapOrder}
    (hStep : s.controller.process i (fun p => p.alive) (fun p => p.work o order) = some w) :
    Sound { s with controller := w, answers := s.record o i } := by
  obtain ⟨p, q, hp, hAlive, hWork, rfl⟩ := process_eq_some.mp hStep
  unfold HelperProcess.work at hWork
  split at hWork
  · next line rest hUnread =>
      have hRecord : s.record o i = Function.update s.answers i
          (s.answers i ++ [(line, (p.helper.handle o line).2)]) := by
        simp [InputCalls.record, hp, HelperProcess.answer, hUnread]
      obtain rfl := Option.some.inj hWork
      rw [hRecord]
      exact h.answer hp hAlive hUnread rfl rfl
  · next rest hUnread =>
      have hRecord : s.record o i = s.answers := by
        simp [InputCalls.record, hp, HelperProcess.answer, hUnread]
      obtain rfl := Option.some.inj hWork
      rw [hRecord]
      exact h.ends hp rfl rfl
  · cases hWork

/-- The answer that is read is the waiting call's. -/
theorem Sound.read (h : s.Sound) {i : Nat} {p : HelperProcess} {e : Option String}
    {rest : List (Option String)} (hi : s.controller.helper = some i)
    (hp : s.controller.processes[i]? = some p) (hReplies : p.replies = e :: rest) :
    rest = [] ∧ (s.writes i).length = (s.answers i).length ∧
      ∃ c, s.waiting = some c ∧ s.Answered c e := by
  obtain ⟨left, hLines, -⟩ := (h.ledger i p hp).lines
  obtain ⟨read, hRead⟩ := (h.ledger i p hp).replies
  have hLe : (s.answers i).length ≤ (s.writes i).length := by
    have hLengths := congrArg List.length hLines
    simp only [List.length_map, List.length_append] at hLengths
    omega
  rcases h.owes i p hi hp with hEven | ⟨c, l, before, hc, hBefore, hLast⟩
  · simp only [hReplies, List.length_cons] at hEven
    omega
  · have hWrites : (s.writes i).length = before.length + 1 := by simp [hBefore]
    simp only [hReplies, List.length_cons] at hLast
    obtain rfl : rest = [] := List.length_eq_zero_iff.mp (by omega)
    simp only [List.length_nil] at hLast
    rcases List.eq_nil_or_concat' (s.answers i) with hNil | ⟨init, ⟨line, e'⟩, hLastAnswer⟩
    · simp only [hNil, List.length_nil] at hLast
      omega
    · have hInit : init.length = before.length := by
        simp only [hLastAnswer, List.length_append, List.length_singleton] at hLast
        omega
      -- Both records end in one entry more than was settled before.
      have hLine : l = some line := by
        rw [hBefore, hLastAnswer] at hLines
        have hLeft : left = [] := List.length_eq_zero_iff.mp (by
          have hLengths := congrArg List.length hLines
          simp only [List.length_map, List.length_append, List.length_singleton] at hLengths
          omega)
        simp only [hLeft, List.append_nil, List.map_append, List.map_cons, List.map_nil] at hLines
        exact List.singleton_inj.mp (List.append_inj' hLines rfl).2
      have hAnswer : e' = e := by
        rw [hLastAnswer, hReplies] at hRead
        simp only [List.map_append, List.map_cons, List.map_nil] at hRead
        exact List.singleton_inj.mp (List.append_inj' hRead rfl).2
      subst hLine hAnswer
      refine ⟨rfl, by omega, c, hc, i, before.length, line, ?_, ?_⟩
      · rw [hBefore]
        exact List.getElem?_concat_length
      · rw [hLastAnswer, ← hInit]
        exact List.getElem?_concat_length

/-- A line of the stdout of helper `i` is read. -/
theorem Sound.reply (h : s.Sound) {o : Nat → Nat → Bool} {i : Nat}
    (hController : s.controller.step o (.reply i) = some w) :
    (if s.controller.helper = some i then s.settle (.answered (s.nextReply i)) w
      else { s with controller := w }).Sound := by
  simp only [Controller.step] at hController
  split at hController
  · cases hController
  · next p hp =>
      split at hController
      · cases hController
      · next e rest hReplies =>
          simp only [Option.ite_none_left_eq_some, Option.some.injEq] at hController
          obtain ⟨hEnded, rfl⟩ := hController
          have hCalm : Calm s.controller { s.controller with
              processes := s.controller.processes.set i { p with replies := rest } } :=
            .set hp (fun hAlive => ⟨hAlive, rfl⟩) ⟨[e], hReplies⟩
          by_cases hi : s.controller.helper = some i
          · obtain ⟨rfl, hEven, c, hWaiting, hAnswered⟩ := h.read hi hp hReplies
            have hNext : s.nextReply i = e := by simp [nextReply, hp, hReplies]
            simp only [if_pos hi, hNext]
            refine h.settle ⟨hCalm.processes, hCalm.length⟩ (fun _ => id)
              (fun j q hj hq => ?_) rfl fun d f hd hf => ?_
            · obtain rfl := Option.some.inj (hi.symm.trans hj)
              rw [List.getElem?_set_self (List.getElem?_eq_some_iff.mp hp).1] at hq
              obtain rfl := Option.some.inj hq
              exact hEven
            · cases hf
              exact Option.some.inj (hWaiting.symm.trans hd) ▸ hAnswered
          · simp only [if_neg hi]
            refine h.calm hCalm (fun j q hj hq => ?_) (fun _ => id) fun hEnded => ⟨hEnded, rfl⟩
            have hNe : i ≠ j := fun hSame => hi (hSame ▸ hj)
            rw [List.getElem?_set_ne hNe] at hq
            exact ⟨q, hq, rfl⟩

/-- The timer kills the helper in use, and with it the call. -/
theorem Sound.timeout (h : s.Sound) {o : Nat → Nat → Bool}
    (hController : s.controller.step o .timeout = some w) :
    (s.settle .late w).Sound := by
  simp only [Controller.step, Option.ite_none_left_eq_some, Option.some.injEq] at hController
  obtain ⟨-, rfl⟩ := hController
  have hCalm := calm_onHelper (f := fun p => p.drop.kill) s.controller
    fun p => ⟨fun hAlive => (by cases hAlive), rfl⟩
  exact h.settle ⟨hCalm.processes, hCalm.length⟩ (fun _ hj => by cases hj)
    (fun _ _ hj => by cases hj) rfl fun _ _ _ he => by cases he

/-- A lock drops the helper; whoever waits goes on waiting. -/
theorem Sound.lock (h : s.Sound) {o : Nat → Nat → Bool}
    (hController : s.controller.step o .lock = some w) :
    Sound { s with controller := w } := by
  simp only [Controller.step, Option.ite_none_left_eq_some, Option.some.injEq] at hController
  obtain ⟨-, rfl⟩ := hController
  have hCalm := calm_onHelper (f := fun p => p.drop.endInput) s.controller
    fun p => ⟨fun hAlive => ⟨hAlive, rfl⟩, rfl⟩
  exact h.calm ⟨hCalm.processes, hCalm.length⟩ (fun _ _ hj => by cases hj)
    (fun _ hj => by cases hj) fun hEnded =>
      ⟨(ended_onHelper _ s.controller).symm.trans hEnded, pending_onHelper _ s.controller⟩

theorem Sound.unlock (h : s.Sound) {o : Nat → Nat → Bool}
    (hController : s.controller.step o .unlock = some w) :
    Sound { s with controller := w } := by
  simp only [Controller.step, Option.ite_none_left_eq_some, Option.some.injEq] at hController
  obtain ⟨-, rfl⟩ := hController
  exact h.calm ⟨fun i q hq => ⟨q, hq, fun hAlive => ⟨hAlive, rfl⟩, [], rfl⟩, rfl⟩
    (fun _ q _ hq => ⟨q, hq, rfl⟩) (fun _ => id) fun hEnded => ⟨hEnded, rfl⟩

/-- The end of a helper settles the call, if the helper is the one in use. -/
theorem Sound.gone (h : s.Sound) {o : Nat → Nat → Bool} {i : Nat}
    (hController : s.controller.step o (.gone i) = some w) :
    (if s.controller.helper = some i then s.settle .gone w else { s with controller := w }).Sound := by
  simp only [Controller.step] at hController
  split at hController
  · cases hController
  · next p hp =>
      simp only [Option.ite_none_left_eq_some, Option.some.injEq] at hController
      obtain ⟨-, rfl⟩ := hController
      have hCalm : Calm s.controller s.controller :=
        ⟨fun i q hq => ⟨q, hq, fun hAlive => ⟨hAlive, rfl⟩, [], rfl⟩, rfl⟩
      by_cases hi : s.controller.helper = some i
      · simp only [if_pos hi]
        exact h.settle ⟨hCalm.processes, hCalm.length⟩ (fun _ hj => by cases hj)
          (fun _ _ hj => by cases hj) rfl fun _ _ _ he => by cases he
      · simp only [if_neg hi]
        exact h

/-- Stopping ends every process without settling a call. -/
theorem Sound.stop (h : s.Sound) {o : Nat → Nat → Bool}
    (hController : s.controller.step o .stop = some w) :
    Sound { s with controller := w } := by
  simp only [Controller.step, Option.ite_none_left_eq_some, Option.some.injEq] at hController
  obtain ⟨-, rfl⟩ := hController
  have hCalm := calm_onHelper (f := fun p => p.drop.endInput) s.controller
    fun p => ⟨fun hAlive => ⟨hAlive, rfl⟩, rfl⟩
  refine h.calm ⟨hCalm.processes, hCalm.length⟩ (fun j q hj hq => ?_)
    (fun j hj => (helper_onHelper _ s.controller).symm.trans hj) fun hEnded =>
      ⟨(ended_onHelper _ s.controller).symm.trans hEnded, pending_onHelper _ s.controller⟩
  have hq : (s.controller.onHelper fun p => p.drop.endInput).processes[j]? = some q := hq
  rw [Controller.getElem?_onHelper] at hq
  split_ifs at hq
  · obtain ⟨p, hp, rfl⟩ := Option.map_eq_some_iff.mp hq
    exact ⟨p, hp, rfl⟩
  · exact ⟨q, hq, rfl⟩

/-- Without the controller nobody is settled any more. -/
theorem Sound.quit (h : s.Sound) {o : Nat → Nat → Bool}
    (hController : s.controller.step o .quit = some w) :
    Sound { s with controller := w } := by
  simp only [Controller.step, Option.ite_none_left_eq_some, Option.some.injEq] at hController
  obtain ⟨-, rfl⟩ := hController
  have hCalm := calm_onHelper (f := .drop) s.controller
    fun p => ⟨fun hAlive => ⟨hAlive, rfl⟩, rfl⟩
  refine h.calm ⟨fun i q hq => ?_, ?_⟩ (fun _ _ hj => by cases hj) (fun _ hj => by cases hj)
    fun hEnded => by cases hEnded
  · rw [List.getElem?_map] at hq
    obtain ⟨r, hr, rfl⟩ := Option.map_eq_some_iff.mp hq
    exact hCalm.processes i r hr
  · simp [hCalm.length]

/-- One step of the controller or of a helper. -/
theorem Sound.step (h : s.Sound) {o : Nat → Nat → Bool} {l : ControllerLabel}
    (hStep : s.step o l = some t) : t.Sound := by
  obtain ⟨w, hController, rfl⟩ := Option.map_eq_some_iff.mp hStep
  cases l with
  | input line now starts =>
      simp only [Controller.step, Option.ite_none_left_eq_some, Option.some.injEq, not_or,
        Bool.not_eq_true] at hController
      obtain ⟨⟨-, hEnded⟩, rfl⟩ := hController
      exact h.input line now starts hEnded
  | tick order now =>
      simp only [Controller.step, Option.ite_none_right_eq_some, Option.some.injEq] at hController
      obtain ⟨⟨-, -, -, -, hEnded⟩, rfl⟩ := hController
      exact h.input _ now true hEnded
  | reply i => exact h.reply hController
  | timeout => exact h.timeout hController
  | lock => exact h.lock hController
  | unlock => exact h.unlock hController
  | gone i => exact h.gone hController
  | stop => exact h.stop hController
  | quit => exact h.quit hController
  | work i order => exact h.work hController
  | finish i order =>
      obtain ⟨p, q, hp, -, hq, rfl⟩ := process_eq_some.mp hController
      obtain rfl := Option.some.inj hq
      exact h.ends hp rfl rfl
  | crash i =>
      obtain ⟨p, q, hp, -, hq, rfl⟩ := process_eq_some.mp hController
      obtain rfl := Option.some.inj hq
      exact h.ends hp rfl rfl

/-- In every reachable state. -/
theorem sound {o : Nat → Nat → Bool} (h : Reachable (system o) s) : s.Sound := by
  refine h.invariant (fun s hs => ?_) fun s l t hSound hStep => hSound.step hStep
  obtain rfl : s = start := hs
  exact {
    ledger := fun i p hp => by cases hp
    fresh := fun i _ => ⟨rfl, rfl⟩
    helper := fun i hi => by cases hi
    owes := fun i p hi => by cases hi
    pending := fun _ => rfl
    written := fun i c line hc => by cases hc
    present := fun c hc => by cases hc
    unsettled := fun c call hc => by cases hc
    settled := fun c call out hc => by cases hc }

/-- Every call is settled exactly once, but for the one that is waiting, whose
timer is set; and where an answer settles it, that is some helper's answer to
its own line, whatever helpers were started, locked out or killed meanwhile. -/
theorem input_settled_by_its_answer {o : Nat → Nat → Bool} (h : Reachable (system o) s) {c : Nat}
    {call : InputCall} (hCall : s.calls[c]? = some call) :
    (call.outcomes = [] ↔ s.waiting = some c) ∧ call.outcomes.length ≤ 1 ∧
      (s.controller.ended = false → s.waiting.isSome = s.controller.pending) ∧
      ∀ e, .answered e ∈ call.outcomes → ∃ (i k : Nat) (line : InputLine), call.line = some line ∧
        (s.writes i)[k]? = some (c, some line) ∧ (s.answers i)[k]? = some (line, e) := by
  have hSound := sound h
  refine ⟨hSound.unsettled c call hCall, ?_, fun hEnded => (hSound.pending hEnded).symm,
    fun e he => ?_⟩
  · cases hOutcomes : call.outcomes with
    | nil => simp
    | cons out rest =>
        have hOne := (hSound.settled c call out hCall (by simp [hOutcomes])).1
        rw [← hOutcomes, hOne, List.length_singleton]
  · obtain ⟨i, k, line, hWrite, hAnswer⟩ := (hSound.settled c call _ hCall he).2 e rfl
    obtain ⟨call', hCall', hLine⟩ := hSound.written i c _ (List.mem_of_getElem? hWrite)
    obtain rfl := Option.some.inj (hCall.symm.trans hCall')
    exact ⟨i, k, line, hLine, hWrite, hAnswer⟩

/-- The first helper is locked out with its answer still in the pipe, the second
is killed by the first call's timer, the third answers the last call. -/
def lockedBetween : List ControllerLabel :=
  [.input Controller.pressA 1 true, .work 0 InputHelper.plainOrder, .lock, .unlock,
    .input Controller.pressA 2 true, .reply 0, .timeout,
    .input Controller.pressA 3 true, .work 2 InputHelper.plainOrder, .reply 2]

def isAnswered : InputOutcome → Bool
  | .answered none => true
  | _ => false

/-- Two lines are answered before a lock, and the third one by a helper of its own. -/
theorem input_settled_by_its_answer_locked : ∃ s call, Reachable (system Controller.willing) s ∧
    s.calls[2]? = some call ∧ ∃ (i k : Nat) (line : InputLine), call.line = some line ∧
      (s.writes i)[k]? = some (2, some line) ∧ (s.answers i)[k]? = some (line, none) := by
  have hFollow : (follow (step Controller.willing) start lockedBetween).any (fun s =>
      s.calls[2]?.any fun call => call.outcomes.any isAnswered) = true := by decide +kernel
  obtain ⟨s, hRun, hEnd⟩ := (Option.any_eq_true _ _).mp hFollow
  obtain ⟨call, hCall, hEnd⟩ := (Option.any_eq_true _ _).mp hEnd
  obtain ⟨out, hOut, hAnswered⟩ := List.any_eq_true.mp hEnd
  have hReach : Reachable (system Controller.willing) s :=
    ⟨start, lockedBetween, rfl, runs_of_follow (fun _ _ _ hStep => hStep) hRun⟩
  match out, hAnswered with
  | .answered none, _ =>
      exact ⟨s, call, hReach, hCall,
        (input_settled_by_its_answer hReach hCall).2.2.2 none hOut⟩

end InputCalls

end NetConductor
