import Mathlib.Data.List.Basic
import Mathlib.Tactic.Common
import NetConductor.Semantics.Slots
import NetConductor.Semantics.Transition

/-! One TCP mapping while it runs: the loop that accepts, a goroutine for each
client, and one call of the stop function. They share the set of active
connections under a mutex, which only the stop function holds for several steps. -/
namespace NetConductor

/-- How far the stop function of a mapping has come: it closes the listener and
then, holding the mutex, every connection. `closing` has the rest of them. -/
inductive Stopping (C : Type) where
  | ready
  | unlistened
  | closing (todo : List C)
  | returned
deriving DecidableEq

namespace Stopping

variable {C : Type}

/-- The mutex is free. -/
def unlocked : Stopping C → Bool
  | .closing _ => false
  | _ => true

/-- It has been in its critical section. -/
def begun : Stopping C → Bool
  | .closing _ | .returned => true
  | _ => false

end Stopping

namespace TCPForward
open Transition

/-- Clients are numbered as they are accepted; a goroutine dials once. -/
inductive Conn where
  | client (i : Nat)
  | backend (i : Nat)
deriving DecidableEq

/-- How far an accepted connection has come, first with the loop and then with
its goroutine. -/
inductive Phase where
  -- with the loop: before the mutex, and with `c.Close()` left
  | accepted
  | refused
  | dialing
  | failed
  -- dialed, before the mutex
  | dialed
  -- found the mapping closed: both connections are left to close, then one
  | late
  | lateHalf
  | registered
  -- in `Bridge`, which closes the backend's connection first
  | bridging
  | halfClosed
  -- the deferred deletions are left, then one
  | bridged
  | leaving
  | gone
deriving DecidableEq

inductive Loop where
  -- in a call of `Accept` that found the listener open
  | waiting
  | busy (i : Nat)
  | returned
deriving DecidableEq

/-- `shut` are the connections that were closed here. -/
structure State where
  listening : Bool
  loop : Loop
  phases : List Phase
  active : List Conn
  closed : Bool
  shut : List Conn
  stop : Stopping Conn
deriving DecidableEq

inductive Label where
  | accept
  | acceptFails
  | handOver
  | refuse
  | dial (i : Nat) (ok : Bool)
  | register (i : Nat)
  | bridge (i : Nat)
  | closeBackend (i : Nat)
  | closeClient (i : Nat)
  | forgetBackend (i : Nat)
  | forgetClient (i : Nat)
  | stopListening
  | stopLock
  | stopClose (e : Conn)
  | stopUnlock

namespace State

def new : State := ⟨true, .waiting, [], [], false, [], .ready⟩

def goto (i : Nat) (p : Phase) (s : State) : State := { s with phases := s.phases.set i p }

def close (e : Conn) (s : State) : State := { s with shut := e :: s.shut }

/-- The loop calls `Accept` again. -/
def again (s : State) : State := { s with loop := if s.listening then .waiting else .returned }

/-- The loop's critical section. -/
def handOver (i : Nat) (s : State) : State :=
  if s.closed ∨ 512 ≤ s.active.length then s.goto i .refused
  else ({ s with active := .client i :: s.active }.goto i .dialing).again

/-- The critical section of a goroutine that has dialed. -/
def register (i : Nat) (s : State) : State :=
  if s.closed then s.goto i .late
  else { s with active := .backend i :: s.active }.goto i .registered

def step (s : State) : Label → Option State
  | .accept =>
      if s.loop = .waiting then
        some { s with loop := .busy s.phases.length, phases := s.phases ++ [.accepted] }
      else none
  | .acceptFails => if s.loop = .waiting then some { s with loop := .returned } else none
  | .handOver =>
      match s.loop with
      | .busy i => if s.phases[i]? = some .accepted ∧ s.stop.unlocked then some (s.handOver i) else none
      | _ => none
  | .refuse =>
      match s.loop with
      | .busy i =>
          if s.phases[i]? = some .refused then some ((s.close (.client i)).goto i .gone).again else none
      | _ => none
  | .dial i ok =>
      if s.phases[i]? = some .dialing then some (s.goto i (if ok then .dialed else .failed)) else none
  | .register i => if s.phases[i]? = some .dialed ∧ s.stop.unlocked then some (s.register i) else none
  | .bridge i => if s.phases[i]? = some .registered then some (s.goto i .bridging) else none
  | .closeBackend i =>
      match s.phases[i]? with
      | some .lateHalf => some ((s.close (.backend i)).goto i .leaving)
      | some .bridging => some ((s.close (.backend i)).goto i .halfClosed)
      | _ => none
  | .closeClient i =>
      match s.phases[i]? with
      | some .failed => some ((s.close (.client i)).goto i .leaving)
      | some .late => some ((s.close (.client i)).goto i .lateHalf)
      | some .halfClosed => some ((s.close (.client i)).goto i .bridged)
      | _ => none
  | .forgetBackend i =>
      if s.phases[i]? = some .bridged ∧ s.stop.unlocked then
        some ({ s with active := s.active.erase (.backend i) }.goto i .leaving)
      else none
  | .forgetClient i =>
      if s.phases[i]? = some .leaving ∧ s.stop.unlocked then
        some ({ s with active := s.active.erase (.client i) }.goto i .gone)
      else none
  | .stopListening =>
      if s.stop = .ready then some { s with listening := false, stop := .unlistened } else none
  | .stopLock =>
      if s.stop = .unlistened then some { s with closed := true, stop := .closing s.active } else none
  | .stopClose e =>
      match s.stop with
      | .closing todo =>
          if e ∈ todo then some { s.close e with stop := .closing (todo.erase e) } else none
      | _ => none
  | .stopUnlock => if s.stop = .closing [] then some { s with stop := .returned } else none

end State

def system : System State Label where
  initial s := s = .new
  step s l t := s.step l = some t

/-! ### What a phase says -/

namespace Phase

/-- The connection has a goroutine. -/
def serving : Phase → Bool
  | .accepted | .refused | .gone => false
  | _ => true

/-- The backend's connection is registered. -/
def paired : Phase → Bool
  | .registered | .bridging | .halfClosed | .bridged => true
  | _ => false

/-- The client's connection is closed. -/
def clientShut : Phase → Bool
  | .lateHalf | .bridged | .leaving | .gone => true
  | _ => false

end Phase

def Conn.isClient : Conn → Bool
  | .client _ => true
  | .backend _ => false

namespace State

/-- How many client connections are being served. -/
def served (s : State) : Nat := s.phases.countP Phase.serving

/-- All that is left for a client's connection is that the loop closes it. -/
def CloseLeft (s : State) (i : Nat) : Prop :=
  s.closed = true ∧ (s.phases[i]? = some .accepted ∨ s.phases[i]? = some .refused)

/-- The active set is that of the goroutines' connections, and from its critical
section on the stop function accounts for all of it. -/
structure Invariant (s : State) : Prop where
  clients : ∀ i, .client i ∈ s.active ↔ ∃ p, s.phases[i]? = some p ∧ p.serving = true
  backends : ∀ i, .backend i ∈ s.active ↔ ∃ p, s.phases[i]? = some p ∧ p.paired = true
  nodup : s.active.Nodup
  counted : s.served = s.active.countP Conn.isClient
  bounded : s.served ≤ 512
  shut : ∀ i p, s.phases[i]? = some p → p.clientShut = true → .client i ∈ s.shut
  flagged : s.closed = s.stop.begun
  accounted : ∀ todo, s.stop = .closing todo → ∀ e ∈ s.active, e ∈ s.shut ∨ e ∈ todo
  closed : s.stop = .returned → ∀ e ∈ s.active, e ∈ s.shut

/-! ### What a step keeps -/

variable {s t : State} {i : Nat} {p q : Phase}

@[simp] theorem active_goto (i : Nat) (q : Phase) (s : State) : (s.goto i q).active = s.active := rfl

theorem phases_goto (hp : s.phases[i]? = some p) (q : Phase) (j : Nat) :
    (s.goto i q).phases[j]? = if j = i then some q else s.phases[j]? := by
  obtain ⟨hi, -⟩ := List.getElem?_eq_some_iff.mp hp
  by_cases hj : j = i
  · rw [if_pos hj, hj, goto, List.getElem?_set_self hi]
  · rw [if_neg hj, goto, List.getElem?_set_ne (Ne.symm hj)]

/-- What holds of the phases after one has changed. -/
theorem exists_goto (f : Phase → Bool) (hp : s.phases[i]? = some p) (q : Phase) (j : Nat) :
    (∃ r, (s.goto i q).phases[j]? = some r ∧ f r = true) ↔
      if j = i then f q = true else ∃ r, s.phases[j]? = some r ∧ f r = true := by
  rw [phases_goto hp]
  split_ifs <;> simp

theorem served_goto (hp : s.phases[i]? = some p) (q : Phase) :
    (s.goto i q).served + p.serving.toNat = s.served + q.serving.toNat :=
  Slots.countP_set Phase.serving q hp

/-- One goroutine comes further: it changes the active set in its own entries,
and closes what it closes. -/
theorem Invariant.goto {active shut : List Conn} (h : s.Invariant) (hp : s.phases[i]? = some p)
    (hClients : ∀ j, .client j ∈ active ↔ if j = i then q.serving = true else .client j ∈ s.active)
    (hBackends : ∀ j, .backend j ∈ active ↔ if j = i then q.paired = true else .backend j ∈ s.active)
    (hNodup : active.Nodup)
    (hCounted : active.countP Conn.isClient + p.serving.toNat =
      s.active.countP Conn.isClient + q.serving.toNat)
    (hBounded : q.serving = true → p.serving = true ∨ s.served < 512)
    (hShut : q.clientShut = true → .client i ∈ shut) (hGrows : ∀ e ∈ s.shut, e ∈ shut)
    (hNew : ∀ e ∈ active, e ∈ s.active ∨ s.closed = false) :
    Invariant { s.goto i q with active := active, shut := shut } := by
  have hServed := served_goto hp q
  have hBefore := h.counted
  have hLimit := h.bounded
  have hKept : s.stop.begun = true → ∀ e ∈ active, e ∈ s.active := by
    intro hBegun e he
    refine (hNew e he).resolve_right fun hOpen => ?_
    rw [h.flagged, hBegun] at hOpen
    cases hOpen
  constructor
  case clients =>
    intro j
    rw [hClients, h.clients]
    exact (exists_goto Phase.serving hp q j).symm
  case backends =>
    intro j
    rw [hBackends, h.backends]
    exact (exists_goto Phase.paired hp q j).symm
  case nodup => exact hNodup
  case counted =>
    change (s.goto i q).served = active.countP Conn.isClient
    omega
  case bounded =>
    change (s.goto i q).served ≤ 512
    cases hq : q.serving with
    | false =>
        rw [hq, Bool.toNat_false] at hServed
        omega
    | true =>
        rcases hBounded hq with hp' | hRoom
        · rw [hq, hp'] at hServed
          omega
        · rw [hq, Bool.toNat_true] at hServed
          omega
  case shut =>
    intro j r hr hClosed
    rw [show (s.goto i q).phases[j]? = _ from phases_goto hp q j] at hr
    split_ifs at hr with hj
    · obtain rfl := Option.some.inj hr
      exact hj ▸ hShut hClosed
    · exact hGrows _ (h.shut j r hr hClosed)
  case flagged => exact h.flagged
  case accounted =>
    intro todo hStop e he
    have hBegun : s.stop.begun = true := by
      rw [show s.stop = _ from hStop]
      rfl
    exact (h.accounted todo hStop e (hKept hBegun e he)).imp_left (hGrows e)
  case closed =>
    intro hStop e he
    have hBegun : s.stop.begun = true := by
      rw [show s.stop = _ from hStop]
      rfl
    exact hGrows e (h.closed hStop e (hKept hBegun e he))

/-- A goroutine that comes further with the active set as it is. -/
theorem Invariant.moved {shut : List Conn} (h : s.Invariant) (hp : s.phases[i]? = some p)
    (hServing : q.serving = p.serving) (hPaired : q.paired = p.paired)
    (hShut : q.clientShut = true → .client i ∈ shut) (hGrows : ∀ e ∈ s.shut, e ∈ shut) :
    Invariant { s.goto i q with shut := shut } := by
  refine h.goto hp (fun j => ?_) (fun j => ?_) h.nodup (by rw [hServing, active_goto])
    (fun hq => .inl (hServing ▸ hq)) hShut hGrows fun e he => .inl he
  · split_ifs with hj
    · simp [hj, h.clients, hp, hServing]
    · rfl
  · split_ifs with hj
    · simp [hj, h.backends, hp, hPaired]
    · rfl

/-- The loop gives a connection its goroutine. -/
theorem Invariant.admitted (h : s.Invariant) (hp : s.phases[i]? = some .accepted)
    (hOpen : s.closed = false) (hRoom : s.active.length < 512) :
    Invariant ({ s with active := .client i :: s.active }.goto i .dialing) := by
  have hNew : .client i ∉ s.active := by simp [h.clients, hp, Phase.serving]
  have hAlone : .backend i ∉ s.active := by simp [h.backends, hp, Phase.paired]
  have hFew : s.active.countP Conn.isClient ≤ s.active.length := List.countP_le_length
  refine h.goto hp (fun j => ?_) (fun j => ?_) (List.nodup_cons.mpr ⟨hNew, h.nodup⟩) ?_
    (fun _ => .inr ?_) (fun hq => nomatch hq) (fun e he => he) fun e _ => .inr hOpen
  · by_cases hj : j = i <;> simp [hj, Phase.serving]
  · by_cases hj : j = i <;> simp [hj, hAlone, Phase.paired]
  · rw [List.countP_cons_of_pos (by rfl)]
    rfl
  · rw [h.counted]
    omega

/-- A goroutine registers the connection to the backend. -/
theorem Invariant.registered (h : s.Invariant) (hp : s.phases[i]? = some .dialed)
    (hOpen : s.closed = false) :
    Invariant ({ s with active := .backend i :: s.active }.goto i .registered) := by
  have hIn : .client i ∈ s.active := by simp [h.clients, hp, Phase.serving]
  have hNew : .backend i ∉ s.active := by simp [h.backends, hp, Phase.paired]
  refine h.goto hp (fun j => ?_) (fun j => ?_) (List.nodup_cons.mpr ⟨hNew, h.nodup⟩) ?_
    (fun _ => .inl rfl) (fun hq => nomatch hq) (fun e he => he) fun e _ => .inr hOpen
  · by_cases hj : j = i <;> simp [hj, hIn, Phase.serving]
  · by_cases hj : j = i <;> simp [hj, Phase.paired]
  · rw [List.countP_cons_of_neg (by simp [Conn.isClient])]
    rfl

/-- The backend's connection is taken out of the active set. -/
theorem Invariant.forgetBackend (h : s.Invariant) (hp : s.phases[i]? = some .bridged) :
    Invariant ({ s with active := s.active.erase (.backend i) }.goto i .leaving) := by
  have hIn : .client i ∈ s.active := by simp [h.clients, hp, Phase.serving]
  have hPaired : .backend i ∈ s.active := by simp [h.backends, hp, Phase.paired]
  have hShut : .client i ∈ s.shut := h.shut i _ hp rfl
  refine h.goto hp (fun j => ?_) (fun j => ?_) (h.nodup.erase _) ?_ (fun _ => .inl rfl) (fun _ => hShut)
    (fun e he => he) fun e he => .inl (List.mem_of_mem_erase he)
  · rw [h.nodup.mem_erase_iff]
    by_cases hj : j = i <;> simp [hj, hIn, Phase.serving]
  · rw [h.nodup.mem_erase_iff]
    by_cases hj : j = i <;> simp [hj, Phase.paired]
  · have hCount := (List.perm_cons_erase hPaired).countP_eq Conn.isClient
    rw [List.countP_cons_of_neg (by simp [Conn.isClient])] at hCount
    rw [hCount]
    rfl

/-- And then the client's. -/
theorem Invariant.forgetClient (h : s.Invariant) (hp : s.phases[i]? = some .leaving) :
    Invariant ({ s with active := s.active.erase (.client i) }.goto i .gone) := by
  have hIn : .client i ∈ s.active := by simp [h.clients, hp, Phase.serving]
  have hAlone : .backend i ∉ s.active := by simp [h.backends, hp, Phase.paired]
  have hShut : .client i ∈ s.shut := h.shut i _ hp rfl
  refine h.goto hp (fun j => ?_) (fun j => ?_) (h.nodup.erase _) ?_ (fun hq => nomatch hq) (fun _ => hShut)
    (fun e he => he) fun e he => .inl (List.mem_of_mem_erase he)
  · rw [h.nodup.mem_erase_iff]
    by_cases hj : j = i <;> simp [hj, Phase.serving]
  · rw [h.nodup.mem_erase_iff]
    by_cases hj : j = i <;> simp [hj, hAlone, Phase.paired]
  · have hCount := (List.perm_cons_erase hIn).countP_eq Conn.isClient
    rw [List.countP_cons_of_pos (by rfl)] at hCount
    rw [hCount]
    rfl

/-- A new connection stays with the loop. -/
theorem Invariant.accept (h : s.Invariant) (loop : Loop) :
    Invariant { s with loop := loop, phases := s.phases ++ [.accepted] } := by
  have hSome : ∀ (f : Phase → Bool), f .accepted = false → ∀ j : Nat,
      (∃ r, (s.phases ++ [.accepted])[j]? = some r ∧ f r = true) ↔ ∃ r, s.phases[j]? = some r ∧ f r = true := by
    intro f hf j
    constructor
    · rintro ⟨r, hr, hHolds⟩
      rcases Slots.getElem?_concat.mp hr with hOld | ⟨-, rfl⟩
      · exact ⟨r, hOld, hHolds⟩
      · rw [hf] at hHolds
        cases hHolds
    · rintro ⟨r, hr, hHolds⟩
      exact ⟨r, Slots.getElem?_concat.mpr (.inl hr), hHolds⟩
  have hServed : ({ s with loop := loop, phases := s.phases ++ [.accepted] } : State).served = s.served := by
    simp [served, Phase.serving]
  exact { h with
    clients := fun j => (h.clients j).trans (hSome Phase.serving rfl j).symm
    backends := fun j => (h.backends j).trans (hSome Phase.paired rfl j).symm
    counted := hServed.trans h.counted
    bounded := Nat.le_trans (Nat.le_of_eq hServed) h.bounded
    shut := fun j r hr hClosed => by
      obtain ⟨r', hr', hClosed'⟩ := (hSome (fun p => p.clientShut) rfl j).mp ⟨r, hr, hClosed⟩
      exact h.shut j r' hr' hClosed' }

/-- What the loop does apart from the connections is not looked at. -/
theorem Invariant.looped (h : s.Invariant) (loop : Loop) (listening : Bool) :
    Invariant { s with loop := loop, listening := listening } :=
  { h with }

/-! ### What a step can do -/

inductive Outcome (s : State) : State → Prop where
  | accepted : Outcome s { s with loop := .busy s.phases.length, phases := s.phases ++ [.accepted] }
  | acceptFails : Outcome s { s with loop := .returned }
  | refused (i : Nat) (hp : s.phases[i]? = some .accepted) : Outcome s (s.goto i .refused)
  | admitted (i : Nat) (hp : s.phases[i]? = some .accepted) (hOpen : s.closed = false)
      (hRoom : s.active.length < 512) :
      Outcome s ({ s with active := .client i :: s.active }.goto i .dialing).again
  | turnedAway (i : Nat) (hp : s.phases[i]? = some .refused) :
      Outcome s ((s.close (.client i)).goto i .gone).again
  | moved (i : Nat) (p q : Phase) (shut : List Conn) (hp : s.phases[i]? = some p) (hServing : p.serving = true)
      (hStill : q.serving = true) (hPaired : q.paired = p.paired)
      (hShut : q.clientShut = true → p.clientShut = true ∨ .client i ∈ shut) (hGrows : ∀ e ∈ s.shut, e ∈ shut) :
      Outcome s { s.goto i q with shut := shut }
  | registered (i : Nat) (hp : s.phases[i]? = some .dialed) (hOpen : s.closed = false) :
      Outcome s ({ s with active := .backend i :: s.active }.goto i .registered)
  | forgotBackend (i : Nat) (hp : s.phases[i]? = some .bridged) :
      Outcome s ({ s with active := s.active.erase (.backend i) }.goto i .leaving)
  | forgotClient (i : Nat) (hp : s.phases[i]? = some .leaving) :
      Outcome s ({ s with active := s.active.erase (.client i) }.goto i .gone)
  | unlistened (hReady : s.stop = .ready) : Outcome s { s with listening := false, stop := .unlistened }
  | locked (hStop : s.stop = .unlistened) : Outcome s { s with closed := true, stop := .closing s.active }
  | closed (e : Conn) (todo : List Conn) (hStop : s.stop = .closing todo) :
      Outcome s { s.close e with stop := .closing (todo.erase e) }
  | unlocked (hStop : s.stop = .closing []) : Outcome s { s with stop := .returned }

/-- Handing a client over changes its own phase. -/
theorem outcome_handOver (hp : s.phases[i]? = some .accepted) : Outcome s (s.handOver i) := by
  unfold handOver
  split_ifs with hFull
  · exact .refused i hp
  · simp only [not_or, Bool.not_eq_true, Nat.not_le] at hFull
    exact .admitted i hp hFull.1 hFull.2

/-- Registering a client changes its own phase. -/
theorem outcome_register (hp : s.phases[i]? = some .dialed) : Outcome s (s.register i) := by
  unfold register
  split_ifs with hClosed
  · exact .moved i _ _ s.shut hp rfl rfl rfl (fun h => nomatch h) fun e he => he
  · exact .registered i hp (Bool.eq_false_iff.mpr hClosed)

theorem outcome_closeBackend (h : s.step (.closeBackend i) = some t) : Outcome s t := by
  simp only [step] at h
  split at h
  · next hp =>
      cases h
      exact .moved i _ _ _ hp rfl rfl rfl (fun _ => .inl rfl) fun e he => List.mem_cons_of_mem _ he
  · next hp =>
      cases h
      exact .moved i _ _ _ hp rfl rfl rfl (fun h => nomatch h) fun e he => List.mem_cons_of_mem _ he
  · cases h

/-- In each of the three phases that close the client, it is the client's own goroutine. -/
theorem outcome_closeClient (h : s.step (.closeClient i) = some t) : Outcome s t := by
  simp only [step] at h
  split at h
  · next hp =>
      cases h
      exact .moved i _ _ _ hp rfl rfl rfl (fun _ => .inr List.mem_cons_self) fun e he => List.mem_cons_of_mem _ he
  · next hp =>
      cases h
      exact .moved i _ _ _ hp rfl rfl rfl (fun _ => .inr List.mem_cons_self) fun e he => List.mem_cons_of_mem _ he
  · next hp =>
      cases h
      exact .moved i _ _ _ hp rfl rfl rfl (fun _ => .inr List.mem_cons_self) fun e he => List.mem_cons_of_mem _ he
  · cases h

/-- Every step has one of the outcomes. -/
theorem outcome_of_step {l : Label} (h : s.step l = some t) : Outcome s t := by
  cases l with
  | accept =>
      simp only [step, Option.ite_none_right_eq_some, Option.some.injEq] at h
      exact h.2 ▸ .accepted
  | acceptFails =>
      simp only [step, Option.ite_none_right_eq_some, Option.some.injEq] at h
      exact h.2 ▸ .acceptFails
  | handOver =>
      unfold step at h
      cases hLoop : s.loop with
      | busy i =>
          simp only [hLoop, Option.ite_none_right_eq_some, Option.some.injEq] at h
          exact h.2 ▸ outcome_handOver h.1.1
      | _ => simp [hLoop] at h
  | refuse =>
      unfold step at h
      cases hLoop : s.loop with
      | busy i =>
          simp only [hLoop, Option.ite_none_right_eq_some, Option.some.injEq] at h
          exact h.2 ▸ .turnedAway i h.1
      | _ => simp [hLoop] at h
  | dial i ok =>
      simp only [step, Option.ite_none_right_eq_some, Option.some.injEq] at h
      rw [← h.2]
      refine .moved i _ _ s.shut h.1 rfl ?_ ?_ ?_ fun e he => he <;> cases ok <;> simp [Phase.serving, Phase.paired, Phase.clientShut]
  | register i =>
      simp only [step, Option.ite_none_right_eq_some, Option.some.injEq] at h
      exact h.2 ▸ outcome_register h.1.1
  | bridge i =>
      simp only [step, Option.ite_none_right_eq_some, Option.some.injEq] at h
      exact h.2 ▸ .moved i _ _ s.shut h.1 rfl rfl rfl (fun h => nomatch h) fun e he => he
  | closeBackend i => exact outcome_closeBackend h
  | closeClient i => exact outcome_closeClient h
  | forgetBackend i =>
      simp only [step, Option.ite_none_right_eq_some, Option.some.injEq] at h
      exact h.2 ▸ .forgotBackend i h.1.1
  | forgetClient i =>
      simp only [step, Option.ite_none_right_eq_some, Option.some.injEq] at h
      exact h.2 ▸ .forgotClient i h.1.1
  | stopListening =>
      simp only [step, Option.ite_none_right_eq_some, Option.some.injEq] at h
      exact h.2 ▸ .unlistened h.1
  | stopLock =>
      simp only [step, Option.ite_none_right_eq_some, Option.some.injEq] at h
      exact h.2 ▸ .locked h.1
  | stopClose e =>
      simp only [step] at h
      split at h
      · next todo hStop =>
          simp only [Option.ite_none_right_eq_some, Option.some.injEq] at h
          exact h.2 ▸ .closed e todo hStop
      · cases h
  | stopUnlock =>
      simp only [step, Option.ite_none_right_eq_some, Option.some.injEq] at h
      exact h.2 ▸ .unlocked h.1

/-- Every outcome keeps the set that of the running goroutines. -/
theorem Invariant.step (h : s.Invariant) (hStep : Outcome s t) : t.Invariant := by
  cases hStep with
  | accepted => exact h.accept _
  | acceptFails => exact h.looped _ _
  | refused i hp => exact h.moved hp rfl rfl (fun hq => nomatch hq) fun e he => he
  | admitted i hp hOpen hRoom => exact (h.admitted hp hOpen hRoom).looped _ _
  | turnedAway i hp =>
      have hGone : Invariant ((s.close (.client i)).goto i .gone) :=
        h.moved hp rfl rfl (fun _ => List.mem_cons_self) fun e he => List.mem_cons_of_mem _ he
      exact hGone.looped _ _
  | moved i p q shut hp hServing hStill hPaired hShut hGrows =>
      refine h.moved hp (hStill.trans hServing.symm) hPaired (fun hq => ?_) hGrows
      rcases hShut hq with hBefore | hNow
      · exact hGrows _ (h.shut i p hp hBefore)
      · exact hNow
  | registered i hp hOpen => exact h.registered hp hOpen
  | forgotBackend i hp => exact h.forgetBackend hp
  | forgotClient i hp => exact h.forgetClient hp
  | unlistened hReady =>
      have hOpen : s.closed = false := h.flagged.trans (congrArg Stopping.begun hReady)
      exact { h with
        flagged := hOpen
        accounted := fun _ hStop => nomatch hStop
        closed := fun hStop => nomatch hStop }
  | locked hStop =>
      exact { h with
        flagged := rfl
        accounted := fun todo hTodo e he => .inr (Stopping.closing.inj hTodo ▸ he)
        closed := fun hStop => nomatch hStop }
  | closed e todo hStop =>
      exact { h with
        shut := fun j p hp hq => List.mem_cons_of_mem _ (h.shut j p hp hq)
        flagged := h.flagged.trans (by rw [hStop]; rfl)
        accounted := fun rest hRest x hx => by
          rw [← Stopping.closing.inj hRest]
          by_cases hSame : x = e
          · exact .inl (hSame ▸ List.mem_cons_self)
          · exact (h.accounted todo hStop x hx).imp (List.mem_cons_of_mem _) (List.mem_erase_of_ne hSame).mpr
        closed := fun hStop => nomatch hStop }
  | unlocked hStop =>
      exact { h with
        flagged := h.flagged.trans (by rw [hStop]; rfl)
        accounted := fun _ hStop => nomatch hStop
        closed := fun _ x hx => (h.accounted [] hStop x hx).resolve_right List.not_mem_nil }

theorem invariant (h : Reachable system s) : s.Invariant := by
  refine Reachable.invariant (fun s hs => ?_) (fun s l t hI hStep => hI.step (outcome_of_step hStep)) h
  rw [show s = .new from hs]
  constructor <;> simp [new, served, Stopping.begun]

/-! ### After the stop -/

/-- What another goroutine does leaves it so. -/
theorem CloseLeft.goto {k : Nat} (h : s.CloseLeft i) (hp : s.phases[k]? = some p)
    (hOther : p ≠ .accepted ∧ p ≠ .refused) (q : Phase) : (s.goto k q).CloseLeft i := by
  have hNe : i ≠ k := by
    rintro rfl
    rcases h.2 with hPhase | hPhase
    · exact hOther.1 (Option.some.inj (hp.symm.trans hPhase))
    · exact hOther.2 (Option.some.inj (hp.symm.trans hPhase))
  have hSame : (s.goto k q).phases[i]? = s.phases[i]? := by
    rw [phases_goto hp, if_neg hNe]
  exact ⟨h.1, by rw [hSame]; exact h.2⟩

/-- A connection that is only to be closed never gets a goroutine. -/
theorem CloseLeft.step (h : s.CloseLeft i) (hStep : Outcome s t) : t.CloseLeft i ∨ .client i ∈ t.shut := by
  cases hStep with
  | accepted =>
      have hLater : ∀ p, s.phases[i]? = some p → (s.phases ++ [.accepted])[i]? = some p := by
        intro p hp
        obtain ⟨hi, -⟩ := List.getElem?_eq_some_iff.mp hp
        rw [List.getElem?_append_left hi, hp]
      exact .inl ⟨h.1, h.2.imp (hLater _) (hLater _)⟩
  | acceptFails => exact .inl h
  | refused k hp =>
      refine .inl ⟨h.1, ?_⟩
      rw [phases_goto hp]
      split_ifs with hk
      · exact .inr rfl
      · exact h.2
  | admitted k hp hOpen hRoom =>
      rw [h.1] at hOpen
      cases hOpen
  | turnedAway k hp =>
      by_cases hk : i = k
      · exact .inr (hk ▸ List.mem_cons_self)
      · refine .inl ⟨h.1, ?_⟩
        rw [show ((s.close (.client k)).goto k .gone).again.phases[i]? = _ from phases_goto hp .gone i, if_neg hk]
        exact h.2
  | moved k p q shut hp hServing hStill hPaired hShut hGrows =>
      exact .inl (h.goto hp (by constructor <;> rintro rfl <;> cases hServing) q)
  | registered k hp hOpen => exact .inl (h.goto hp (by decide) _)
  | forgotBackend k hp => exact .inl (h.goto hp (by decide) _)
  | forgotClient k hp => exact .inl (h.goto hp (by decide) _)
  | unlistened hReady => exact .inl h
  | locked hStop => exact .inl ⟨rfl, h.2⟩
  | closed e todo hStop => exact .inl h
  | unlocked hStop => exact .inl h

/-- What is closed stays closed. -/
theorem shut_grows (hStep : Outcome s t) : ∀ e ∈ s.shut, e ∈ t.shut := by
  intro e he
  cases hStep with
  | turnedAway k hp => exact List.mem_cons_of_mem _ he
  | moved k p q shut hp hServing hStill hPaired hShut hGrows => exact hGrows e he
  | closed e' todo hStop => exact List.mem_cons_of_mem _ he
  | _ => exact he

/-- A close that is left to do is still left, or done. -/
theorem CloseLeft.run {labels : List Label} (run : Runs system s labels t)
    (h : s.CloseLeft i ∨ .client i ∈ s.shut) : t.CloseLeft i ∨ .client i ∈ t.shut := by
  refine run.preserves (I := fun s => s.CloseLeft i ∨ .client i ∈ s.shut) (fun s l t hLeft hStep => ?_) h
  rcases hLeft with hLeft | hShut
  · exact hLeft.step (outcome_of_step hStep)
  · exact .inr (shut_grows (outcome_of_step hStep) _ hShut)

/-- What the stop function leaves behind, in every run. -/
structure Stopped (s : State) : Prop where
  /-- An accepted connection is closed, or the loop has it and will never do anything but close it. -/
  clients : ∀ i, i < s.phases.length → .client i ∈ s.shut ∨
    s.CloseLeft i ∧ ∀ labels t, Runs system s labels t → t.CloseLeft i ∨ .client i ∈ t.shut
  bridges : ∀ i t, s.step (.bridge i) = some t → .client i ∈ s.shut ∧ .backend i ∈ s.shut
  active : ∀ e ∈ s.active, e ∈ s.shut

/-- At most 512 are served at a time, and when the stop function returns none of them is
left. -/
theorem stop_stops_all (h : Reachable system s) : s.served ≤ 512 ∧ (s.stop = .returned → s.Stopped) := by
  have hI := invariant h
  refine ⟨hI.bounded, fun hStop => ?_⟩
  have hActive := hI.closed hStop
  constructor
  case active => exact hActive
  case clients =>
    intro i hi
    have hp : s.phases[i]? = some s.phases[i] := List.getElem?_eq_getElem hi
    have hFlag : s.closed = true := hI.flagged.trans (congrArg Stopping.begun hStop)
    have hLeft : s.CloseLeft i → .client i ∈ s.shut ∨
        s.CloseLeft i ∧ ∀ labels t, Runs system s labels t → t.CloseLeft i ∨ .client i ∈ t.shut :=
      fun hLeft => .inr ⟨hLeft, fun labels t run => CloseLeft.run run (.inl hLeft)⟩
    cases hServing : s.phases[i].serving with
    | true => exact .inl (hActive _ ((hI.clients i).mpr ⟨_, hp, hServing⟩))
    | false =>
        cases hPhase : s.phases[i] with
        | accepted => exact hLeft ⟨hFlag, .inl (hPhase ▸ hp)⟩
        | refused => exact hLeft ⟨hFlag, .inr (hPhase ▸ hp)⟩
        | gone => exact .inl (hI.shut i _ hp (by rw [hPhase]; rfl))
        | _ => rw [hPhase] at hServing; cases hServing
  case bridges =>
    intro i t hStep
    simp only [step, Option.ite_none_right_eq_some] at hStep
    exact ⟨hActive _ ((hI.clients i).mpr ⟨_, hStep.1, rfl⟩), hActive _ ((hI.backends i).mpr ⟨_, hStep.1, rfl⟩)⟩

/-- The stop function comes between registering and `Bridge`, and while the loop
has another connection. -/
def lateStop : List Label :=
  [.accept, .handOver, .dial 0 true, .register 0, .accept, .stopListening, .stopLock, .stopClose (.backend 0),
    .stopClose (.client 0), .stopUnlock]

theorem lateStop_stops : ∃ s : State, Reachable system s ∧ s.loop = .busy 1 ∧ (s.step (.bridge 0)).isSome = true ∧
    s.served ≤ 512 ∧ s.Stopped := by
  have hFollow : (follow State.step .new lateStop).any (fun s =>
      s.stop = .returned ∧ s.loop = .busy 1 ∧ (s.step (.bridge 0)).isSome = true) = true := by decide +kernel
  obtain ⟨s, hRun, hEnd⟩ := (Option.any_eq_true _ _).mp hFollow
  simp only [Bool.decide_and, Bool.and_eq_true, decide_eq_true_eq] at hEnd
  have hReach : Reachable system s := ⟨_, lateStop, rfl, runs_of_follow (fun _ _ _ hStep => hStep) hRun⟩
  have hStopped := stop_stops_all hReach
  exact ⟨s, hReach, hEnd.2.1, hEnd.2.2, hStopped.1, hStopped.2 hEnd.1⟩

end State
end TCPForward
end NetConductor
