import NetConductor.Remote.Interrupted
import NetConductor.Semantics.Slots

/-! The calls of a page: each takes an id and a timer, and waits in a map until
a result, the timer or the end of the link settles it. -/
namespace NetConductor

/-- The messages of a session to its browser. -/
inductive Response (E V : Type) where
  | result (id : Nat) (answer : Except E V)
  | terminal (data : Bytes)
  | terminalEnd

/-- `{ id, op, ...fields }`; none of the fields is called `id`. -/
structure Request (B : Type) where
  id : Nat
  body : B
deriving DecidableEq

/-- What `resolve` and `reject` of a call were told: the result, that of the
timer, of `close`, or what sending threw. -/
inductive Outcome (E V : Type) where
  | answered (answer : Except E V)
  | timedOut
  | closed
  | unsent

/-- One call, with the outcomes of its promise in order. -/
structure Call (B E V : Type) where
  body : B
  waiting : Bool
  id : Option Nat
  outcomes : List (Outcome E V)

inductive Ready where
  | pending
  | resolved
  | rejected

/-- `pending` and `timers` name the calls by their places in `calls`. -/
structure Page (B E V N : Type) where
  link : Link (Response E V) N
  ready : Ready
  seq : Nat
  pending : AList fun _ : Nat => Nat
  timers : AList fun _ : Nat => Nat
  calls : List (Call B E V)

namespace Page

variable {B E V N : Type}

def new : Page B E V N := ⟨.new, .pending, 0, ∅, ∅, []⟩

def settle (c : Nat) (o : Outcome E V) (p : Page B E V N) : Page B E V N :=
  { p with calls := p.calls.modify c fun call => { call with outcomes := call.outcomes ++ [o] } }

/-- The timer and the entry of an id go, and the call is settled. -/
def finish (id c : Nat) (o : Outcome E V) (p : Page B E V N) : Page B E V N :=
  { p with timers := p.timers.erase id, pending := p.pending.erase id }.settle c o

/-- `call` as far as `await this.ready`. -/
def call (b : B) (p : Page B E V N) : Page B E V N :=
  { p with calls := p.calls ++ [⟨b, true, none, []⟩] }

/-- `this.resolve()`: the data channel opens, or `useRelay` is called. -/
def resolve (p : Page B E V N) : Page B E V N :=
  match p.ready with
  | .pending => { p with ready := .resolved }
  | _ => p

/-- The call throws: the link has failed, or is closed. -/
def refuse (c : Nat) (call : Call B E V) (p : Page B E V N) : Page B E V N :=
  { p with calls := p.calls.set c { call with waiting := false } }.settle c .closed

/-- The call takes the next id, and its timer starts. -/
def start (c : Nat) (call : Call B E V) (p : Page B E V N) : Page B E V N :=
  { p with
    seq := p.seq + 1
    pending := p.pending.insert (p.seq + 1) c
    timers := p.timers.insert (p.seq + 1) c
    calls := p.calls.set c { call with waiting := false, id := some (p.seq + 1) } }

/-- `call` from `await this.ready` on, with the request it sends. -/
def resume (c : Nat) (throws : Bool) (p : Page B E V N) :
    Option (Page B E V N × Option (Request B)) :=
  match p.calls[c]? with
  | none => none
  | some call =>
      if call.waiting = false then none
      else
        match p.ready with
        | .pending => none
        | .rejected => some (p.refuse c call, none)
        | .resolved =>
            if p.link.closed then some (p.refuse c call, none)
            else if throws then some ((p.start c call).finish (p.seq + 1) c .unsent, none)
            else some (p.start c call, some ⟨p.seq + 1, call.body⟩)

/-- The timer of a call fires. -/
def timeout (id : Nat) (p : Page B E V N) : Option (Page B E V N) :=
  (p.timers.lookup id).map fun c => p.finish id c .timedOut

/-- `receive` of a message that is no chunk. -/
def dispatch (p : Page B E V N) : Response E V → Page B E V N
  | .result id answer =>
      match p.pending.lookup id with
      | some c => p.finish id c (.answered answer)
      | none => p
  | _ => p

/-- One entry in the loop of `close`. -/
def rejectEntry (p : Page B E V N) (e : Sigma fun _ : Nat => Nat) : Page B E V N :=
  { p with timers := p.timers.erase e.1 }.settle e.2 .closed

/-- `close` rejects what is in the map, and clears it. -/
def rejectAll (p : Page B E V N) : Page B E V N :=
  { p.pending.entries.foldl rejectEntry p with pending := ∅ }

def close (p : Page B E V N) : Page B E V N :=
  if p.link.closed then p else { p with link := p.link.fail }.rejectAll

/-- `this.reject(err)`; a promise is resolved or rejected once. -/
def reject (p : Page B E V N) : Page B E V N :=
  match p.ready with
  | .pending => { p with ready := .rejected }
  | _ => p

def fail (p : Page B E V N) : Page B E V N :=
  if p.link.closed then p else p.reject.close

variable [DecidableEq N]

/-- A frame arrives: the messages that it completes are received, and where the
link fails on it, so does the page. -/
def deliver (J : JSON (Response E V) N) (depth : Nat) (f : Path × Bytes) (p : Page B E V N) :
    Page B E V N :=
  let link := p.link.deliver J depth f
  let q := (link.dispatched.drop p.link.dispatched.length).foldl dispatch { p with link := link }
  if link.closed = true ∧ p.link.closed = false then q.reject.rejectAll else q

/-! ### Calls and ids -/

/-- What a call has at its place: an entry in the map says that it has an id and
is not settled, and a result that settled it answers its own request. -/
structure Fits (answers : List (Request B × Except E V)) (p : Page B E V N) (c : Nat)
    (call : Call B E V) : Prop where
  waiting : call.waiting = true → call.id = none ∧ call.outcomes = []
  once : call.outcomes.length ≤ 1
  numbered : ∀ id, call.id = some id → id ≤ p.seq
  awaited : ∀ id, p.pending.lookup id = some c ↔ call.id = some id ∧ call.outcomes = []
  own : ∀ answer, .answered answer ∈ call.outcomes →
    ∃ id, call.id = some id ∧ (⟨id, call.body⟩, answer) ∈ answers

structure Sound (answers : List (Request B × Except E V)) (p : Page B E V N) : Prop where
  timers : p.timers = p.pending
  placed : ∀ id c, p.pending.lookup id = some c → c < p.calls.length
  calls : ∀ (c : Nat) (call : Call B E V), p.calls[c]? = some call → p.Fits answers c call
  named : ∀ (c d : Nat) (call other : Call B E V) (id : Nat), p.calls[c]? = some call →
    p.calls[d]? = some other → call.id = some id → other.id = some id → c = d

/-- Once the link is closed, nothing is in the map any more. -/
structure Consistent (answers : List (Request B × Except E V)) (p : Page B E V N) : Prop
    extends Sound answers p where
  ended : p.link.closed = true → p.pending = ∅

/-- Every call stays, with its body and its id. -/
def Keeps (p q : Page B E V N) : Prop :=
  ∀ (c : Nat) (call : Call B E V), p.calls[c]? = some call →
    ∃ call', q.calls[c]? = some call' ∧ call'.body = call.body ∧
      ∀ id, call.id = some id → call'.id = some id

/-- What a step of the page keeps. -/
structure Moves (answers : List (Request B × Except E V)) (p q : Page B E V N) : Prop where
  consistent : q.Consistent answers
  keeps : p.Keeps q
  seq : p.seq ≤ q.seq

omit [DecidableEq N]

variable {answers : List (Request B × Except E V)} {p q r : Page B E V N} {c id : Nat}
  {o : Outcome E V}

theorem Keeps.refl (p : Page B E V N) : p.Keeps p := fun _ call h => ⟨call, h, rfl, fun _ hid => hid⟩

theorem Keeps.trans (h : p.Keeps q) (h' : q.Keeps r) : p.Keeps r := by
  intro c call hCall
  obtain ⟨call', hCall', hBody, hId⟩ := h c call hCall
  obtain ⟨call'', hCall'', hBody', hId'⟩ := h' c call' hCall'
  exact ⟨call'', hCall'', hBody'.trans hBody, fun id hid => hId' id (hId id hid)⟩

theorem finish_calls (p : Page B E V N) (id c : Nat) (o : Outcome E V) (d : Nat) :
    (p.finish id c o).calls[d]? = (p.calls[d]?).map fun call =>
      if c = d then { call with outcomes := call.outcomes ++ [o] } else call :=
  List.getElem?_modify ..

@[simp] theorem finish_pending (p : Page B E V N) (id c : Nat) (o : Outcome E V) :
    (p.finish id c o).pending = p.pending.erase id := rfl

/-- Finishing a call keeps what the other calls have. -/
theorem keeps_finish (p : Page B E V N) (id c : Nat) (o : Outcome E V) : p.Keeps (p.finish id c o) := by
  intro d call hCall
  rw [finish_calls, hCall, Option.map_some]
  refine ⟨_, rfl, ?_⟩
  split
  · exact ⟨rfl, fun _ hid => hid⟩
  · exact ⟨rfl, fun _ hid => hid⟩

/-- An entry of the map leaves it together with its timer, and settles its call. -/
theorem Sound.finish (h : p.Sound answers) (hc : p.pending.lookup id = some c)
    (hOwn : ∀ call answer, p.calls[c]? = some call → o = .answered answer →
      (⟨id, call.body⟩, answer) ∈ answers) : (p.finish id c o).Sound answers := by
  refine ⟨?_, fun k d hLookup => ?_, fun d call hCall => ?_,
    fun d e call other k hCall hOther hk hk' => ?_⟩
  · show p.timers.erase id = p.pending.erase id
    rw [h.timers]
  · show d < (p.calls.modify c _).length
    rw [List.length_modify]
    by_cases hk : k = id
    · rw [finish_pending, hk, AList.lookup_erase] at hLookup
      cases hLookup
    · rw [finish_pending, AList.lookup_erase_ne hk] at hLookup
      exact h.placed k d hLookup
  · rw [finish_calls] at hCall
    obtain ⟨before, hBefore, hNow⟩ := Option.map_eq_some_iff.mp hCall
    have hFits := h.calls d before hBefore
    split at hNow
    · next hSame =>
        subst hSame hNow
        -- the call that the entry names
        obtain ⟨hId, hOpen⟩ := (hFits.awaited id).mp hc
        refine ⟨fun hWaiting => ?_, ?_, hFits.numbered, fun k => ?_, fun answer hAnswer => ?_⟩
        · have hNone := (hFits.waiting hWaiting).1
          rw [hId] at hNone
          cases hNone
        · simp [hOpen]
        · refine ⟨fun hLookup => ?_, fun hBoth => ?_⟩
          · rw [finish_pending] at hLookup
            by_cases hk : k = id
            · rw [hk, AList.lookup_erase] at hLookup
              cases hLookup
            · rw [AList.lookup_erase_ne hk] at hLookup
              have hSame := ((hFits.awaited k).mp hLookup).1
              rw [hId] at hSame
              exact absurd (Option.some.inj hSame).symm hk
          · simp [hOpen] at hBoth
        · rw [hOpen, List.nil_append, List.mem_singleton] at hAnswer
          exact ⟨id, hId, hOwn before answer hBefore hAnswer.symm⟩
    · next hOther =>
        subst hNow
        refine ⟨hFits.waiting, hFits.once, hFits.numbered, fun k => ?_, hFits.own⟩
        rw [finish_pending, ← hFits.awaited k]
        by_cases hk : k = id
        · rw [hk, AList.lookup_erase, hc]
          simp [hOther]
        · rw [AList.lookup_erase_ne hk]
  · rw [finish_calls] at hCall hOther
    obtain ⟨before, hBefore, rfl⟩ := Option.map_eq_some_iff.mp hCall
    obtain ⟨before', hBefore', rfl⟩ := Option.map_eq_some_iff.mp hOther
    refine h.named d e before before' k hBefore hBefore' ?_ ?_
    · split at hk <;> exact hk
    · split at hk' <;> exact hk'

/-- Soundness looks at four parts of a page only. -/
theorem Sound.same (h : p.Sound answers) (hTimers : q.timers = p.timers)
    (hPending : q.pending = p.pending) (hSeq : q.seq = p.seq) (hCalls : q.calls = p.calls) :
    q.Sound answers := by
  refine ⟨by rw [hTimers, hPending, h.timers], by rw [hPending, hCalls]; exact h.placed,
    fun c call hCall => ?_, by rw [hCalls]; exact h.named⟩
  rw [hCalls] at hCall
  have hFits := h.calls c call hCall
  exact ⟨hFits.waiting, hFits.once, by rw [hSeq]; exact hFits.numbered,
    by rw [hPending]; exact hFits.awaited, hFits.own⟩

/-- More answers do no harm. -/
theorem Sound.more (h : p.Sound answers) (more : List (Request B × Except E V)) :
    p.Sound (answers ++ more) := by
  refine ⟨h.timers, h.placed, fun c call hCall => ?_, h.named⟩
  have hFits := h.calls c call hCall
  refine ⟨hFits.waiting, hFits.once, hFits.numbered, hFits.awaited, fun answer hAnswer => ?_⟩
  obtain ⟨id, hId, hMem⟩ := hFits.own answer hAnswer
  exact ⟨id, hId, List.mem_append_left more hMem⟩

theorem sound_new : (new : Page B E V N).Sound answers :=
  ⟨rfl, fun id c hLookup => by simp [new] at hLookup, fun c call hCall => by simp [new] at hCall,
    fun c d call other id hCall => by simp [new] at hCall⟩

/-! ### Waiting and going on -/

theorem keeps_call (b : B) (p : Page B E V N) : p.Keeps (p.call b) := by
  intro c call hCall
  obtain ⟨hc, -⟩ := List.getElem?_eq_some_iff.mp hCall
  exact ⟨call, by rw [← hCall]; exact List.getElem?_append_left hc, rfl, fun _ hid => hid⟩

/-- A new call waits for the link, under no id yet. -/
theorem Sound.call (h : p.Sound answers) (b : B) : (p.call b).Sound answers := by
  -- a place of the longer list is an old one, or that of the new call
  have hPlace : ∀ (c : Nat) (call : Call B E V), (p.call b).calls[c]? = some call →
      p.calls[c]? = some call ∨ (call = ⟨b, true, none, []⟩ ∧ p.calls.length ≤ c) := by
    intro c call hCall
    rcases Nat.lt_or_ge c p.calls.length with hc | hc
    · exact .inl ((List.getElem?_append_left hc).symm.trans hCall)
    · refine .inr ⟨?_, hc⟩
      have hNew := (List.getElem?_append_right hc).symm.trans hCall
      simpa using List.mem_of_getElem? hNew
  have hLength : (p.call b).calls.length = p.calls.length + 1 := List.length_append
  refine ⟨h.timers, fun id c hLookup => ?_, fun c call hCall => ?_,
    fun c d call other id hCall hOther hid hid' => ?_⟩
  · have hOld := h.placed id c hLookup
    omega
  · rcases hPlace c call hCall with hOld | ⟨rfl, hc⟩
    · have hFits := h.calls c call hOld
      exact ⟨hFits.waiting, hFits.once, hFits.numbered, hFits.awaited, hFits.own⟩
    · refine ⟨fun _ => ⟨rfl, rfl⟩, Nat.zero_le _, fun id hid => (by cases hid), fun id => ?_,
        fun answer hAnswer => (by cases hAnswer)⟩
      refine ⟨fun hLookup => ?_, fun hBoth => (by cases hBoth.1)⟩
      have hOld := h.placed id c hLookup
      omega
  · rcases hPlace c call hCall with hOld | ⟨rfl, -⟩
    · rcases hPlace d other hOther with hOld' | ⟨rfl, -⟩
      · exact h.named c d call other id hOld hOld' hid hid'
      · cases hid'
    · cases hid

/-- A call that goes on is refused, fails to be sent, or sends its request under the
next id. -/
theorem resume_some {throws : Bool} {sent : Option (Request B)}
    (h : p.resume c throws = some (q, sent)) :
    ∃ call, p.calls[c]? = some call ∧ call.waiting = true ∧
      ((q = p.refuse c call ∧ sent = none) ∨
        p.link.closed = false ∧
          ((q = (p.start c call).finish (p.seq + 1) c .unsent ∧ sent = none) ∨
            (q = p.start c call ∧ sent = some ⟨p.seq + 1, call.body⟩))) := by
  unfold resume at h
  split at h
  · cases h
  · next call hCall =>
      split at h
      · cases h
      · next hWaiting =>
          refine ⟨call, hCall, by simpa using hWaiting, ?_⟩
          split at h
          · cases h
          · cases h
            exact .inl ⟨rfl, rfl⟩
          · split at h
            · cases h
              exact .inl ⟨rfl, rfl⟩
            · next hOpen =>
                refine .inr ⟨by simpa using hOpen, ?_⟩
                split at h
                · cases h
                  exact .inl ⟨rfl, rfl⟩
                · cases h
                  exact .inr ⟨rfl, rfl⟩

/-- No entry has the next id. -/
theorem Sound.fresh (h : p.Sound answers) : p.pending.lookup (p.seq + 1) = none := by
  cases hLookup : p.pending.lookup (p.seq + 1) with
  | none => rfl
  | some c =>
      have hc := h.placed (p.seq + 1) c hLookup
      have hFits := h.calls c _ (List.getElem?_eq_getElem hc)
      have hNumbered := hFits.numbered _ ((hFits.awaited _).mp hLookup).1
      omega

/-- A call that waited changes at its place, and may take an id of its own. -/
theorem Sound.changed {call call' : Call B E V} (h : p.Sound answers) (hCall : p.calls[c]? = some call)
    (hCalls : q.calls = p.calls.set c call') (hTimers : q.timers = q.pending) (hSeq : p.seq ≤ q.seq)
    (hPending : ∀ id d, d ≠ c → (q.pending.lookup id = some d ↔ p.pending.lookup id = some d))
    (hFits : q.Fits answers c call') (hNew : ∀ id, call'.id = some id → p.seq < id) :
    q.Sound answers := by
  obtain ⟨hc, -⟩ := List.getElem?_eq_some_iff.mp hCall
  have hPlace : ∀ (d : Nat) (other : Call B E V), q.calls[d]? = some other →
      (d = c ∧ other = call') ∨ (d ≠ c ∧ p.calls[d]? = some other) := by
    intro d other hOther
    rw [hCalls, List.getElem?_set] at hOther
    split at hOther
    · next hSame =>
        exact .inl ⟨hSame.symm, (Option.some.inj hOther).symm⟩
    · next hOther' => exact .inr ⟨Ne.symm hOther', hOther⟩
  refine ⟨hTimers, fun id d hLookup => ?_, fun d other hOther => ?_,
    fun d e other other' id hOther hOther' hid hid' => ?_⟩
  · rw [hCalls, List.length_set]
    by_cases hd : d = c
    · rw [hd]
      exact hc
    · exact h.placed id d ((hPending id d hd).mp hLookup)
  · rcases hPlace d other hOther with ⟨rfl, rfl⟩ | ⟨hd, hOld⟩
    · exact hFits
    · have hBefore := h.calls d other hOld
      exact ⟨hBefore.waiting, hBefore.once, fun id hid => (hBefore.numbered id hid).trans hSeq,
        fun id => (hPending id d hd).trans (hBefore.awaited id), hBefore.own⟩
  · rcases hPlace d other hOther with ⟨rfl, rfl⟩ | ⟨hd, hOld⟩
    · rcases hPlace e other' hOther' with ⟨rfl, rfl⟩ | ⟨he, hOld'⟩
      · rfl
      · have hOldId := (h.calls e other' hOld').numbered id hid'
        have hNewId := hNew id hid
        omega
    · rcases hPlace e other' hOther' with ⟨rfl, rfl⟩ | ⟨he, hOld'⟩
      · have hOldId := (h.calls d other hOld).numbered id hid
        have hNewId := hNew id hid'
        omega
      · exact h.named d e other other' id hOld hOld' hid hid'

theorem refuse_calls (p : Page B E V N) (c : Nat) (call : Call B E V) :
    (p.refuse c call).calls =
      p.calls.set c { call with waiting := false, outcomes := call.outcomes ++ [.closed] } :=
  Slots.set_modify ..

/-- A call that is refused is over, with no id. -/
theorem Sound.refuse {call : Call B E V} (h : p.Sound answers) (hCall : p.calls[c]? = some call)
    (hWaiting : call.waiting = true) : (p.refuse c call).Sound answers := by
  have hFits := h.calls c call hCall
  obtain ⟨hNone, hOpen⟩ := hFits.waiting hWaiting
  refine h.changed hCall (refuse_calls p c call) h.timers (Nat.le_refl _) (fun _ _ _ => Iff.rfl) ?_ ?_
  · refine ⟨fun hFalse => (by cases hFalse), by simp [hOpen], hFits.numbered, fun id => ?_, ?_⟩
    · refine ⟨fun hLookup => ?_, fun hBoth => ?_⟩
      · have hSome := ((hFits.awaited id).mp hLookup).1
        rw [hNone] at hSome
        cases hSome
      · rw [hNone] at hBoth
        cases hBoth.1
    · intro answer hAnswer
      rw [hOpen] at hAnswer
      simp at hAnswer
  · intro id hid
    rw [hNone] at hid
    cases hid

/-- A call that starts has an id above all others. -/
theorem Sound.start {call : Call B E V} (h : p.Sound answers) (hCall : p.calls[c]? = some call)
    (hWaiting : call.waiting = true) : (p.start c call).Sound answers := by
  have hFits := h.calls c call hCall
  obtain ⟨hNone, hOpen⟩ := hFits.waiting hWaiting
  refine h.changed hCall rfl ?_ (Nat.le_succ _) (fun id d hd => ?_) ?_ ?_
  · show p.timers.insert (p.seq + 1) c = p.pending.insert (p.seq + 1) c
    rw [h.timers]
  · show (p.pending.insert (p.seq + 1) c).lookup id = some d ↔ _
    by_cases hid : id = p.seq + 1
    · rw [hid, AList.lookup_insert, h.fresh]
      simp [Ne.symm hd]
    · rw [AList.lookup_insert_ne hid]
  · refine ⟨fun hFalse => (by cases hFalse), hFits.once, fun id hid => ?_, fun id => ?_, ?_⟩
    · cases hid
      exact Nat.le_refl _
    · show (p.pending.insert (p.seq + 1) c).lookup id = some c ↔ _
      by_cases hid : id = p.seq + 1
      · rw [hid, AList.lookup_insert]
        simp [hOpen]
      · rw [AList.lookup_insert_ne hid, hFits.awaited id, hNone]
        simp [Ne.symm hid]
    · intro answer hAnswer
      rw [hOpen] at hAnswer
      cases hAnswer
  · intro id hid
    cases hid
    exact Nat.lt_succ_self _

/-- Changing the state of one call keeps what was known of it and all of the others. -/
theorem keeps_set {call call' : Call B E V} (hCall : p.calls[c]? = some call)
    (hCalls : q.calls = p.calls.set c call') (hBody : call'.body = call.body)
    (hId : ∀ id, call.id = some id → call'.id = some id) : p.Keeps q := by
  obtain ⟨hc, -⟩ := List.getElem?_eq_some_iff.mp hCall
  intro d other hOther
  rw [hCalls, List.getElem?_set]
  split
  · next hSame =>
      subst hSame
      cases hCall.symm.trans hOther
      exact ⟨call', rfl, hBody, hId⟩
  · exact ⟨other, hOther, rfl, fun _ hid => hid⟩

/-- `call` goes on: it is refused, or its send throws, or its request is sent
under an id beyond all before. -/
theorem Sound.resume {throws : Bool} {sent : Option (Request B)} (h : p.Sound answers)
    (hResume : p.resume c throws = some (q, sent)) : q.Sound answers := by
  obtain ⟨call, hCall, hWaiting, ⟨rfl, -⟩ | ⟨-, ⟨rfl, -⟩ | ⟨rfl, -⟩⟩⟩ := resume_some hResume
  · exact h.refuse hCall hWaiting
  · refine (h.start hCall hWaiting).finish ?_ fun _ _ _ hAnswered => (by cases hAnswered)
    exact AList.lookup_insert p.pending
  · exact h.start hCall hWaiting

/-- A call that goes on keeps its body, and its id once it has one. -/
theorem keeps_resume {throws : Bool} {sent : Option (Request B)} (h : p.Sound answers)
    (hResume : p.resume c throws = some (q, sent)) : p.Keeps q := by
  obtain ⟨call, hCall, hWaiting, hCase⟩ := resume_some hResume
  have hNone := ((h.calls c call hCall).waiting hWaiting).1
  have hStart : p.Keeps (p.start c call) :=
    keeps_set hCall rfl rfl fun id hid => by rw [hNone] at hid; cases hid
  rcases hCase with ⟨rfl, -⟩ | ⟨-, ⟨rfl, -⟩ | ⟨rfl, -⟩⟩
  · exact keeps_set hCall (refuse_calls p c call) rfl fun _ hid => hid
  · exact hStart.trans (keeps_finish _ _ _ _)
  · exact hStart

/-- The request that a call sends is its own. -/
theorem resume_sends {throws : Bool} {r : Request B} (hResume : p.resume c throws = some (q, some r)) :
    r.id = p.seq + 1 ∧ q.seq = p.seq + 1 ∧
      ∃ call, q.calls[c]? = some call ∧ call.id = some r.id ∧ call.body = r.body := by
  obtain ⟨call, hCall, -, ⟨-, hSent⟩ | ⟨-, ⟨-, hSent⟩ | ⟨rfl, hSent⟩⟩⟩ := resume_some hResume
  · cases hSent
  · cases hSent
  · cases hSent
    obtain ⟨hc, -⟩ := List.getElem?_eq_some_iff.mp hCall
    exact ⟨rfl, rfl, _, List.getElem?_set_self hc, rfl, rfl⟩

/-! ### The steps of the page -/

theorem moves_call (h : p.Consistent answers) (b : B) : Moves answers p (p.call b) :=
  ⟨⟨h.toSound.call b, h.ended⟩, keeps_call b p, Nat.le_refl _⟩

/-- An answered call is resolved once. -/
theorem moves_resolve (h : p.Consistent answers) : Moves answers p p.resolve := by
  unfold resolve
  split
  · exact ⟨⟨h.toSound.same rfl rfl rfl rfl, h.ended⟩, Keeps.refl p, Nat.le_refl _⟩
  · exact ⟨h, Keeps.refl p, Nat.le_refl _⟩

/-- Going on is a move of the page. -/
theorem moves_resume {throws : Bool} {sent : Option (Request B)} (h : p.Consistent answers)
    (hResume : p.resume c throws = some (q, sent)) : Moves answers p q := by
  have hSound := h.toSound.resume hResume
  have hKeeps := keeps_resume h.toSound hResume
  obtain ⟨call, -, -, ⟨rfl, -⟩ | ⟨hOpen, hStarted⟩⟩ := resume_some hResume
  · exact ⟨⟨hSound, h.ended⟩, hKeeps, Nat.le_refl _⟩
  · have hRest : q.link = p.link ∧ p.seq ≤ q.seq := by
      rcases hStarted with ⟨rfl, -⟩ | ⟨rfl, -⟩
      · exact ⟨rfl, Nat.le_succ _⟩
      · exact ⟨rfl, Nat.le_succ _⟩
    refine ⟨⟨hSound, fun hClosed => ?_⟩, hKeeps, hRest.2⟩
    rw [hRest.1, hOpen] at hClosed
    cases hClosed

/-- A pending call is finished with an answer of its own. -/
theorem moves_finish (h : p.Consistent answers) (hc : p.pending.lookup id = some c)
    (hOwn : ∀ call answer, p.calls[c]? = some call → o = .answered answer →
      (⟨id, call.body⟩, answer) ∈ answers) : Moves answers p (p.finish id c o) := by
  refine ⟨⟨h.toSound.finish hc hOwn, fun hClosed => ?_⟩, keeps_finish p id c o, Nat.le_refl _⟩
  rw [h.ended hClosed] at hc
  cases hc

/-- A timer finishes the call that it was set for. -/
theorem moves_timeout (h : p.Consistent answers) (hFires : p.timeout id = some q) :
    Moves answers p q := by
  obtain ⟨c, hc, rfl⟩ := Option.map_eq_some_iff.mp hFires
  rw [h.timers] at hc
  exact moves_finish h hc fun _ _ _ hAnswered => (by cases hAnswered)

/-- A result settles its own call, or nothing. -/
theorem moves_dispatch {m : Response E V} (h : p.Consistent answers)
    (hOwn : ∀ id answer, m = .result id answer → ∀ (c : Nat) (call : Call B E V),
      p.calls[c]? = some call → call.id = some id → (⟨id, call.body⟩, answer) ∈ answers) :
    Moves answers p (p.dispatch m) := by
  have hSame : Moves answers p p := ⟨h, Keeps.refl p, Nat.le_refl _⟩
  cases m with
  | result id answer =>
      simp only [dispatch]
      split
      · next c hc =>
          refine moves_finish h hc fun call answer' hCall hAnswered => ?_
          cases hAnswered
          exact hOwn id answer rfl c call hCall (((h.calls c call hCall).awaited id).mp hc).1
      · exact hSame
  | terminal data => exact hSame
  | terminalEnd => exact hSame

/-- With an empty map no message settles anything. -/
theorem dispatch_of_empty (m : Response E V) (h : p.pending = ∅) : p.dispatch m = p := by
  cases m with
  | result id answer =>
      simp only [dispatch]
      rw [h, AList.lookup_empty]
  | terminal data => rfl
  | terminalEnd => rfl

/-! ### The end of the link -/

theorem rejected_pending (es : List (Sigma fun _ : Nat => Nat)) (p : Page B E V N)
    (pending : AList fun _ : Nat => Nat) :
    es.foldl rejectEntry { p with pending := pending } =
      { es.foldl rejectEntry p with pending := pending } := by
  induction es generalizing p with
  | nil => rfl
  | cons e es ih => exact ih (p.rejectEntry e)

/-- To clear the map at the end is to take out each entry in turn. -/
theorem rejectAll_eq (p : Page B E V N) :
    p.rejectAll = p.pending.entries.foldl (fun q e => q.finish e.1 e.2 .closed) p := by
  unfold rejectAll
  generalize hEntries : p.pending.entries = es
  induction es generalizing p with
  | nil =>
      have hEmpty : p.pending = ∅ := AList.ext hEntries
      rw [List.foldl_nil, List.foldl_nil, ← hEmpty]
  | cons e es ih =>
      have hErased : (p.pending.erase e.1).entries = es := by
        show p.pending.entries.kerase e.1 = es
        rw [hEntries, List.kerase_cons_eq rfl]
      have hFinish : p.finish e.1 e.2 .closed =
          { p.rejectEntry e with pending := p.pending.erase e.1 } := rfl
      rw [List.foldl_cons, List.foldl_cons, ← ih (p.finish e.1 e.2 .closed) hErased, hFinish,
        rejected_pending es (p.rejectEntry e) (p.pending.erase e.1)]

/-- Every call in the map is settled, and nothing stays in it. -/
theorem rejectAll_ends (h : p.Sound answers) :
    p.rejectAll.Sound answers ∧ p.Keeps p.rejectAll ∧ p.rejectAll.seq = p.seq ∧
      p.rejectAll.pending = ∅ := by
  rw [rejectAll_eq]
  generalize hEntries : p.pending.entries = es
  induction es generalizing p with
  | nil => exact ⟨h, Keeps.refl p, rfl, AList.ext hEntries⟩
  | cons e es ih =>
      have hErased : (p.finish e.1 e.2 .closed).pending.entries = es := by
        show p.pending.entries.kerase e.1 = es
        rw [hEntries, List.kerase_cons_eq rfl]
      have hc : p.pending.lookup e.1 = some e.2 :=
        AList.mem_lookup_iff.mpr (by rw [hEntries]; exact List.mem_cons_self ..)
      obtain ⟨hSound, hKeeps, hSeq, hPending⟩ :=
        ih (h.finish hc fun _ _ _ hAnswered => (by cases hAnswered)) hErased
      exact ⟨hSound, (keeps_finish p e.1 e.2 .closed).trans hKeeps, hSeq, hPending⟩

/-- Closing the page rejects what is pending. -/
theorem moves_close (h : p.Consistent answers) : Moves answers p p.close := by
  unfold close
  split
  · exact ⟨h, Keeps.refl p, Nat.le_refl _⟩
  · have hSound : ({ p with link := p.link.fail } : Page B E V N).Sound answers :=
      h.toSound.same rfl rfl rfl rfl
    obtain ⟨hEnded, hKeeps, hSeq, hPending⟩ := rejectAll_ends hSound
    exact ⟨⟨hEnded, fun _ => hPending⟩, hKeeps, hSeq.ge⟩

/-- Rejecting what is pending leaves the page consistent. -/
theorem Consistent.reject (h : p.Consistent answers) : p.reject.Consistent answers := by
  unfold Page.reject
  split
  · exact ⟨h.toSound.same rfl rfl rfl rfl, h.ended⟩
  · exact h

theorem reject_rest (p : Page B E V N) :
    p.reject.link = p.link ∧ p.reject.calls = p.calls ∧ p.reject.seq = p.seq := by
  unfold reject
  split <;> exact ⟨rfl, rfl, rfl⟩

/-- A failure of the link rejects what is pending. -/
theorem moves_fail (h : p.Consistent answers) : Moves answers p p.fail := by
  unfold fail
  split
  · exact ⟨h, Keeps.refl p, Nat.le_refl _⟩
  · obtain ⟨hConsistent, hKeeps, hSeq⟩ := moves_close h.reject
    obtain ⟨-, hCalls, hSame⟩ := reject_rest p
    refine ⟨hConsistent, fun c call hCall => hKeeps c call ?_, hSame ▸ hSeq⟩
    rw [hCalls]
    exact hCall

/-- A frame settles at most the call that the message completed by it answers. -/
theorem moves_deliver [DecidableEq N] {J : JSON (Response E V) N} {depth : Nat} {f : Path × Bytes}
    (h : p.Consistent answers)
    (hOwn : (p.link.deliver J depth f).closed = false → ∀ id answer,
      (p.link.deliver J depth f).dispatched = p.link.dispatched ++ [.result id answer] →
      ∀ (c : Nat) (call : Call B E V), p.calls[c]? = some call → call.id = some id →
        (⟨id, call.body⟩, answer) ∈ answers) :
    Moves answers p (p.deliver J depth f) := by
  have hGrows := grows_deliver J depth p.link f
  have hCases := deliver_cases J depth p.link f
  unfold deliver
  generalize p.link.deliver J depth f = link at hOwn hGrows hCases
  dsimp only
  have hSound : ({ p with link := link } : Page B E V N).Sound answers := h.toSound.same rfl rfl rfl rfl
  rcases hCases with hSame | ⟨hClosed, told, hTold⟩
  · rw [hSame, List.drop_length, List.foldl_nil]
    split
    · -- the link fails on this frame
      obtain ⟨-, hCalls, hSeq⟩ := reject_rest ({ p with link := link } : Page B E V N)
      have hRejected : ({ p with link := link } : Page B E V N).reject.Sound answers := by
        unfold reject
        split
        · exact hSound.same rfl rfl rfl rfl
        · exact hSound
      obtain ⟨hEnded, hKeeps, hSeq', hPending⟩ := rejectAll_ends hRejected
      refine ⟨⟨hEnded, fun _ => hPending⟩, fun c call hCall => hKeeps c call ?_, ?_⟩
      · rw [hCalls]
        exact hCall
      · rw [hSeq', hSeq]
    · next hOpen =>
        refine ⟨⟨hSound, fun hClosed => h.ended ?_⟩, Keeps.refl p, Nat.le_refl _⟩
        by_contra hBefore
        exact hOpen ⟨hClosed, by simpa using hBefore⟩
  · rw [hTold, List.drop_left, List.foldl_cons, List.foldl_nil,
      if_neg (by rw [hClosed]; rintro ⟨hTrue, hFalse⟩; rw [hTrue] at hFalse; cases hFalse)]
    have hBefore : ({ p with link := link } : Page B E V N).Consistent answers :=
      ⟨hSound, fun hNow => h.ended (hClosed ▸ hNow)⟩
    cases hNow : link.closed with
    | true =>
        rw [dispatch_of_empty told (hBefore.ended hNow)]
        exact ⟨hBefore, Keeps.refl p, Nat.le_refl _⟩
    | false =>
        have hMoves := moves_dispatch hBefore (m := told) fun id answer hResult => by
          rw [hResult] at hTold
          exact hOwn hNow id answer hTold
        exact ⟨hMoves.consistent, hMoves.keeps, hMoves.seq⟩

/-! ### The link of the page -/

theorem resume_link {throws : Bool} {sent : Option (Request B)}
    (hResume : p.resume c throws = some (q, sent)) : q.link = p.link := by
  obtain ⟨call, -, -, ⟨rfl, -⟩ | ⟨-, ⟨rfl, -⟩ | ⟨rfl, -⟩⟩⟩ := resume_some hResume <;> rfl

theorem timeout_link (hFires : p.timeout id = some q) : q.link = p.link := by
  obtain ⟨c, -, rfl⟩ := Option.map_eq_some_iff.mp hFires
  rfl

theorem resolve_link (p : Page B E V N) : p.resolve.link = p.link := by
  unfold resolve
  split <;> rfl

theorem dispatch_link (p : Page B E V N) (m : Response E V) : (p.dispatch m).link = p.link := by
  cases m with
  | result id answer =>
      simp only [dispatch]
      split <;> rfl
  | terminal data => rfl
  | terminalEnd => rfl

theorem dispatch_foldl_link (p : Page B E V N) (ms : List (Response E V)) :
    (ms.foldl dispatch p).link = p.link := by
  induction ms generalizing p with
  | nil => rfl
  | cons m ms ih => rw [List.foldl_cons, ih, dispatch_link]

theorem rejectAll_link (p : Page B E V N) : p.rejectAll.link = p.link := by
  have hEntries : ∀ (es : List (Sigma fun _ : Nat => Nat)) (q : Page B E V N),
      (es.foldl rejectEntry q).link = q.link := by
    intro es
    induction es with
    | nil => exact fun q => rfl
    | cons e es ih => exact fun q => ih (q.rejectEntry e)
  exact hEntries p.pending.entries p

theorem closed_close (p : Page B E V N) : p.close.link.closed = true := by
  unfold close
  split
  · next hClosed => exact hClosed
  · next hOpen =>
      rw [rejectAll_link]
      unfold Link.fail
      rw [if_neg hOpen]

theorem closed_fail (p : Page B E V N) : p.fail.link.closed = true := by
  unfold fail
  split
  · next hClosed => exact hClosed
  · exact closed_close p.reject

/-- A delivery reaches the link as if there were no calls. -/
theorem deliver_link [DecidableEq N] (J : JSON (Response E V) N) (depth : Nat) (f : Path × Bytes)
    (p : Page B E V N) : (p.deliver J depth f).link = p.link.deliver J depth f := by
  unfold deliver
  dsimp only
  split
  · rw [rejectAll_link, (reject_rest _).1, dispatch_foldl_link]
  · rw [dispatch_foldl_link]

end Page
end NetConductor
