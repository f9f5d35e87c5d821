import NetConductor.Semantics.Tables
import NetConductor.Server.TCPForward

/-! One UDP mapping while it runs: the loop that reads datagrams and dials a
socket for each new client, and a goroutine for each socket that sends the
replies back. They share the table of sockets under a mutex. -/
namespace NetConductor.UDPForward
open Transition

/-- What the goroutine of a socket does next; the last two are its deferred
calls. -/
inductive Phase (D : Type) where
  | reading
  | replying (d : D)
  | removing
  | closing
  | gone
deriving DecidableEq

/-- A socket with the address it was created for. -/
structure Peer (A D : Type) where
  client : A
  phase : Phase D
deriving DecidableEq

inductive Loop (A D : Type) where
  -- in a call of `ReadFromUDP` that found the listener open
  | waiting
  | got (a : A) (d : D)
  | returned
deriving DecidableEq

/-- What is done with datagrams and sockets; `removed` comes with the entry that
was found. -/
inductive Event (A D : Type) where
  | received (a : A) (d : D)
  | dialed (c : Nat) (a : A)
  | forwarded (a : A) (c : Nat) (d : D)
  | read (c : Nat) (d : D)
  | replied (c : Nat) (a : A) (d : D)
  | removed (c : Nat) (a : A) (found : Option Nat)
deriving DecidableEq

/-- Sockets are numbered as they are dialed. -/
structure State (A D K : Type) where
  listening : Bool
  loop : Loop A D
  sockets : List (Peer A D)
  peers : AList fun _ : K => Nat
  closed : Bool
  shut : List Nat
  stop : Stopping Nat
  log : List (Event A D)

inductive Label (A D : Type) where
  | receive (a : A) (d : D)
  | receiveFails
  | handle (dials : Bool)
  | read (c : Nat) (d : D)
  | readFails (c : Nat)
  | reply (c : Nat) (ok : Bool)
  | remove (c : Nat)
  | close (c : Nat)
  | stopListening
  | stopLock
  | stopClose (c : Nat)
  | stopUnlock

/-- The goroutine has its entry in the table. -/
def Phase.registered {D : Type} : Phase D → Bool
  | .reading | .replying _ | .removing => true
  | _ => false

namespace State

-- `key` is the text of an address.
variable {A D K : Type} [DecidableEq K] (key : A → K)

def new : State A D K := ⟨true, .waiting, [], ∅, false, [], .ready, []⟩

def goto (c : Nat) (p : Peer A D) (phase : Phase D) (s : State A D K) : State A D K :=
  { s with sockets := s.sockets.set c { p with phase := phase } }

def record (e : Event A D) (s : State A D K) : State A D K := { s with log := s.log ++ [e] }

/-- The loop calls `ReadFromUDP` again. -/
def again (s : State A D K) : State A D K := { s with loop := if s.listening then .waiting else .returned }

def dial (a : A) (s : State A D K) : State A D K :=
  record (.dialed s.sockets.length a)
    { s with
      sockets := s.sockets ++ [⟨a, .reading⟩]
      peers := s.peers.insert (key a) s.sockets.length }

/-- The critical section of the loop; the outcome of the write is not looked at. -/
def handle (dials : Bool) (a : A) (d : D) (s : State A D K) : State A D K :=
  if s.closed then { s with loop := .returned }
  else
    match s.peers.lookup (key a) with
    | some c => (s.record (.forwarded a c d)).again
    | none =>
        if 256 ≤ s.peers.entries.length ∨ dials = false then s.again
        else ((s.dial key a).record (.forwarded a s.sockets.length d)).again

def remove (c : Nat) (p : Peer A D) (s : State A D K) : State A D K :=
  ({ s with peers := s.peers.erase (key p.client) }.goto c p .closing).record
    (.removed c p.client (s.peers.lookup (key p.client)))

def step (s : State A D K) : Label A D → Option (State A D K)
  | .receive a d =>
      match s.loop with
      | .waiting => some ({ s with loop := .got a d }.record (.received a d))
      | _ => none
  | .receiveFails =>
      match s.loop with
      | .waiting => some { s with loop := .returned }
      | _ => none
  | .handle dials =>
      match s.loop with
      | .got a d => if s.stop.unlocked then some (s.handle key dials a d) else none
      | _ => none
  | .read c d =>
      match s.sockets[c]? with
      | some ⟨a, .reading⟩ =>
          if c ∈ s.shut then none else some ((s.goto c ⟨a, .reading⟩ (.replying d)).record (.read c d))
      | _ => none
  -- after 30 seconds without a reply, or for another reason
  | .readFails c =>
      match s.sockets[c]? with
      | some ⟨a, .reading⟩ => some (s.goto c ⟨a, .reading⟩ .removing)
      | _ => none
  | .reply c ok =>
      match s.sockets[c]? with
      | some ⟨a, .replying d⟩ =>
          if ok = true ∧ s.listening = false then none
          else some ((s.goto c ⟨a, .replying d⟩ (if ok then .reading else .removing)).record (.replied c a d))
      | _ => none
  | .remove c =>
      match s.sockets[c]? with
      | some ⟨a, .removing⟩ => if s.stop.unlocked then some (s.remove key c ⟨a, .removing⟩) else none
      | _ => none
  | .close c =>
      match s.sockets[c]? with
      | some ⟨a, .closing⟩ => some { s.goto c ⟨a, .closing⟩ .gone with shut := c :: s.shut }
      | _ => none
  | .stopListening =>
      match s.stop with
      | .ready => some { s with listening := false, stop := .unlistened }
      | _ => none
  | .stopLock =>
      match s.stop with
      | .unlistened => some { s with closed := true, stop := .closing (s.peers.entries.map Sigma.snd) }
      | _ => none
  | .stopClose c =>
      match s.stop with
      | .closing todo =>
          if c ∈ todo then some { s with shut := c :: s.shut, stop := .closing (todo.erase c) } else none
      | _ => none
  | .stopUnlock =>
      match s.stop with
      | .closing [] => some { s with stop := .returned }
      | _ => none

end State

def system {A D K : Type} [DecidableEq K] (key : A → K) : System (State A D K) (Label A D) where
  initial s := s = .new
  step s l t := s.step key l = some t

/-! ### The invariant -/

namespace State

section

variable {A D K : Type} [DecidableEq K] (key : A → K)

/-- What an event says about the events of its socket and its datagram. -/
def Kept (log : List (Event A D)) : Event A D → Prop
  | .forwarded a c d => .dialed c a ∈ log ∧ .received a d ∈ log
  | .replied c a d => .dialed c a ∈ log ∧ .read c d ∈ log
  | .removed c _ found => found = some c
  | _ => True

/-- A goroutine that has its entry is the one under its key, and every entry
belongs to a socket of a client with that key. -/
structure Invariant (s : State A D K) : Prop where
  owners : ∀ c p, s.sockets[c]? = some p → p.phase.registered = true → s.peers.lookup (key p.client) = some c
  owned : ∀ k c, s.peers.lookup k = some c → ∃ a, (s.sockets.map Peer.client)[c]? = some a ∧ key a = k
  bounded : s.peers.entries.length ≤ 256
  dialed : ∀ c a, .dialed c a ∈ s.log ↔ (s.sockets.map Peer.client)[c]? = some a
  got : ∀ a d, s.loop = .got a d → .received a d ∈ s.log
  replying : ∀ c p d, s.sockets[c]? = some p → p.phase = .replying d → .read c d ∈ s.log
  kept : ∀ e ∈ s.log, Kept s.log e
  flagged : s.closed = s.stop.begun

variable {key} {s t : State A D K} {c : Nat} {p : Peer A D} {phase : Phase D}

/-! ### What a step keeps -/

/-- What was kept stays kept. -/
theorem Kept.mono {log : List (Event A D)} {e : Event A D} (h : Kept log e) (es : List (Event A D)) :
    Kept (log ++ es) e := by
  cases e with
  | forwarded a c d => exact ⟨List.mem_append_left _ h.1, List.mem_append_left _ h.2⟩
  | replied c a d => exact ⟨List.mem_append_left _ h.1, List.mem_append_left _ h.2⟩
  | removed c a found => exact h
  | _ => trivial

/-- An event that dials nothing. -/
theorem Invariant.record {e : Event A D} (h : s.Invariant key) (hDials : ∀ c a, e ≠ .dialed c a)
    (hKept : Kept s.log e) : (s.record e).Invariant key where
  owners := h.owners
  owned := h.owned
  bounded := h.bounded
  dialed c a := by
    have hOther : .dialed c a ∉ [e] := fun hMem => hDials c a (List.mem_singleton.mp hMem).symm
    rw [State.record, List.mem_append, or_iff_left hOther]
    exact h.dialed c a
  got a d hLoop := List.mem_append_left _ (h.got a d hLoop)
  replying c p d hp hPhase := List.mem_append_left _ (h.replying c p d hp hPhase)
  kept e' he' := by
    rcases List.mem_append.mp he' with hOld | hNew
    · exact (h.kept e' hOld).mono [e]
    · rw [List.mem_singleton.mp hNew]
      exact hKept.mono [e]
  flagged := h.flagged

theorem Invariant.looped (h : s.Invariant key) {loop : Loop A D} (hGot : ∀ a d, loop = .got a d → .received a d ∈ s.log) :
    Invariant key { s with loop := loop } :=
  { h with got := hGot }

theorem Invariant.again (h : s.Invariant key) : s.again.Invariant key := by
  refine h.looped fun a d hLoop => ?_
  split_ifs at hLoop

omit [DecidableEq K] in
/-- A socket that moves keeps its client. -/
theorem sockets_goto (hp : s.sockets[c]? = some p) (phase : Phase D) (c' : Nat) :
    (s.goto c p phase).sockets[c']? = if c' = c then some { p with phase := phase } else s.sockets[c']? := by
  obtain ⟨hc, -⟩ := List.getElem?_eq_some_iff.mp hp
  by_cases hSame : c' = c
  · rw [if_pos hSame, hSame, goto, List.getElem?_set_self hc]
  · rw [if_neg hSame, goto, List.getElem?_set_ne (Ne.symm hSame)]

/-- A goroutine that comes further takes no entry. -/
theorem Invariant.goto (h : s.Invariant key) (hp : s.sockets[c]? = some p)
    (hRegistered : phase.registered = true → p.phase.registered = true)
    (hReplying : ∀ d, phase = .replying d → .read c d ∈ s.log) : (s.goto c p phase).Invariant key := by
  have hClients : (s.goto c p phase).sockets.map Peer.client = s.sockets.map Peer.client := Slots.map_set hp rfl
  constructor
  case owners =>
    intro c' p' hp' hOwner
    rw [sockets_goto hp] at hp'
    split_ifs at hp' with hSame
    · obtain rfl := Option.some.inj hp'
      exact hSame ▸ h.owners c p hp (hRegistered hOwner)
    · exact h.owners c' p' hp' hOwner
  case owned =>
    rw [hClients]
    exact h.owned
  case bounded => exact h.bounded
  case dialed =>
    rw [hClients]
    exact h.dialed
  case got => exact h.got
  case replying =>
    intro c' p' d hp' hPhase
    rw [sockets_goto hp] at hp'
    split_ifs at hp' with hSame
    · obtain rfl := Option.some.inj hp'
      exact hSame ▸ hReplying d hPhase
    · exact h.replying c' p' d hp' hPhase
  case kept => exact h.kept
  case flagged => exact h.flagged

/-- The entry that a goroutine removes is its own. -/
theorem Invariant.removed (h : s.Invariant key) (hp : s.sockets[c]? = some p)
    (hPhase : p.phase = .removing) : (s.remove key c p).Invariant key := by
  have hOwn : s.peers.lookup (key p.client) = some c := h.owners c p hp (by rw [hPhase]; rfl)
  have hMoved : (s.goto c p .closing).Invariant key :=
    h.goto hp (fun hGone => nomatch hGone) fun d hd => nomatch hd
  have hErased : Invariant key { s.goto c p .closing with peers := s.peers.erase (key p.client) } := by
    refine { hMoved with owners := fun c' p' hp' hOwner => ?_, owned := fun k c' hLookup => ?_, bounded := ?_ }
    · have hKept : s.peers.lookup (key p'.client) = some c' := hMoved.owners c' p' hp' hOwner
      have hOther : key p'.client ≠ key p.client := by
        intro hSame
        rw [hSame, hOwn] at hKept
        obtain rfl := Option.some.inj hKept
        rw [sockets_goto hp, if_pos rfl] at hp'
        obtain rfl := Option.some.inj hp'
        cases hOwner
      rw [Tables.lookup_erase_eq, if_neg hOther, hKept]
    · rw [Tables.lookup_erase_eq] at hLookup
      split_ifs at hLookup
      exact hMoved.owned k c' hLookup
    · exact Nat.le_trans (Tables.length_erase _ _) h.bounded
  exact hErased.record (fun c' a hEq => nomatch hEq) hOwn

/-- A new peer has an entry and a socket of its own. -/
theorem Invariant.dial {a : A} (h : s.Invariant key) (hNew : s.peers.lookup (key a) = none)
    (hRoom : s.peers.entries.length < 256) : (s.dial key a).Invariant key := by
  have hClients : (s.dial key a).sockets.map Peer.client = s.sockets.map Peer.client ++ [a] := by
    simp [State.dial, State.record]
  have hLength : (s.sockets.map Peer.client).length = s.sockets.length := List.length_map _
  constructor
  case owners =>
    intro c p hp hOwner
    change (s.peers.insert (key a) s.sockets.length).lookup (key p.client) = some c
    rw [Tables.lookup_insert_eq]
    rcases Slots.getElem?_concat.mp hp with hOld | ⟨rfl, rfl⟩
    · have hKept := h.owners c p hOld hOwner
      rw [if_neg, hKept]
      intro hSame
      rw [hSame, hNew] at hKept
      cases hKept
    · exact if_pos rfl
  case owned =>
    intro k c hLookup
    change (s.peers.insert (key a) s.sockets.length).lookup k = some c at hLookup
    rw [Tables.lookup_insert_eq] at hLookup
    rw [hClients]
    split_ifs at hLookup with hk
    · obtain rfl := Option.some.inj hLookup
      exact ⟨a, Slots.getElem?_concat.mpr (.inr ⟨hLength.symm, rfl⟩), hk.symm⟩
    · obtain ⟨b, hb, hKey⟩ := h.owned k c hLookup
      exact ⟨b, Slots.getElem?_concat.mpr (.inl hb), hKey⟩
  case bounded => exact Nat.le_trans (Tables.length_insert _ _ _) hRoom
  case dialed =>
    intro c b
    rw [hClients, Slots.getElem?_concat, ← h.dialed, hLength]
    exact List.mem_append.trans (or_congr_right (by simp))
  case got => exact fun b d hLoop => List.mem_append_left _ (h.got b d hLoop)
  case replying =>
    intro c p d hp hPhase
    rcases Slots.getElem?_concat.mp hp with hOld | ⟨-, rfl⟩
    · exact List.mem_append_left _ (h.replying c p d hOld hPhase)
    · cases hPhase
  case kept =>
    intro e he
    rcases List.mem_append.mp he with hOld | hLast
    · exact (h.kept e hOld).mono _
    · rw [List.mem_singleton.mp hLast]
      trivial
  case flagged => exact h.flagged

/-! ### What a step can do -/

variable (key) in
inductive Outcome (s : State A D K) : State A D K → Prop where
  | received (a : A) (d : D) : Outcome s ({ s with loop := .got a d }.record (.received a d))
  | returned : Outcome s { s with loop := .returned }
  | ignored : Outcome s s.again
  | forwarded (a : A) (c : Nat) (d : D) (hLoop : s.loop = .got a d) (hEntry : s.peers.lookup (key a) = some c) :
      Outcome s (s.record (.forwarded a c d)).again
  | dialed (a : A) (d : D) (hLoop : s.loop = .got a d) (hOpen : s.closed = false)
      (hNew : s.peers.lookup (key a) = none) (hRoom : s.peers.entries.length < 256) :
      Outcome s ((s.dial key a).record (.forwarded a s.sockets.length d)).again
  | read (c : Nat) (a : A) (d : D) (hp : s.sockets[c]? = some ⟨a, .reading⟩) :
      Outcome s ((s.goto c ⟨a, .reading⟩ (.replying d)).record (.read c d))
  | readFailed (c : Nat) (a : A) (hp : s.sockets[c]? = some ⟨a, .reading⟩) :
      Outcome s (s.goto c ⟨a, .reading⟩ .removing)
  | replied (c : Nat) (a : A) (d : D) (phase : Phase D) (hp : s.sockets[c]? = some ⟨a, .replying d⟩)
      (hPhase : ∀ d, phase ≠ .replying d) :
      Outcome s ((s.goto c ⟨a, .replying d⟩ phase).record (.replied c a d))
  | removed (c : Nat) (a : A) (hp : s.sockets[c]? = some ⟨a, .removing⟩) : Outcome s (s.remove key c ⟨a, .removing⟩)
  | gone (c : Nat) (a : A) (hp : s.sockets[c]? = some ⟨a, .closing⟩) :
      Outcome s { s.goto c ⟨a, .closing⟩ .gone with shut := c :: s.shut }
  | unlistened (hStop : s.stop = .ready) : Outcome s { s with listening := false, stop := .unlistened }
  | locked (hStop : s.stop = .unlistened) :
      Outcome s { s with closed := true, stop := .closing (s.peers.entries.map Sigma.snd) }
  | closed (c : Nat) (todo : List Nat) (hStop : s.stop = .closing todo) :
      Outcome s { s with shut := c :: s.shut, stop := .closing (todo.erase c) }
  | unlocked (hStop : s.stop = .closing []) : Outcome s { s with stop := .returned }

/-- A datagram is sent on for its peer, or dropped. -/
theorem outcome_handle {a : A} {d : D} (hLoop : s.loop = .got a d) (dials : Bool) :
    Outcome key s (s.handle key dials a d) := by
  unfold handle
  split
  · exact .returned
  · next hClosed =>
      split
      · next c hEntry => exact .forwarded a c d hLoop hEntry
      · next hEntry =>
          split
          · exact .ignored
          · next hRoom =>
              simp only [not_or, Nat.not_le] at hRoom
              exact .dialed a d hLoop (Bool.eq_false_iff.mpr hClosed) hEntry hRoom.1

/-- Every step has one of the outcomes. -/
theorem outcome_of_step {l : Label A D} (h : s.step key l = some t) : Outcome key s t := by
  cases l <;> simp only [step] at h
  case receive a d =>
    split at h
    · cases h
      exact .received a d
    · cases h
  case receiveFails =>
    split at h
    · cases h
      exact .returned
    · cases h
  case handle dials =>
    split at h
    · next a d hLoop =>
        simp only [Option.ite_none_right_eq_some, Option.some.injEq] at h
        exact h.2 ▸ outcome_handle hLoop dials
    · cases h
  case read c d =>
    split at h
    · next a hp =>
        simp only [Option.ite_none_left_eq_some, Option.some.injEq] at h
        exact h.2 ▸ .read c a d hp
    · cases h
  case readFails c =>
    split at h
    · next a hp =>
        cases h
        exact .readFailed c a hp
    · cases h
  case reply c ok =>
    split at h
    · next a d hp =>
        simp only [Option.ite_none_left_eq_some, Option.some.injEq] at h
        refine h.2 ▸ .replied c a d _ hp fun d' hSame => ?_
        cases ok <;> cases hSame
    · cases h
  case remove c =>
    split at h
    · next a hp =>
        simp only [Option.ite_none_right_eq_some, Option.some.injEq] at h
        exact h.2 ▸ .removed c a hp
    · cases h
  case close c =>
    split at h
    · next a hp =>
        cases h
        exact .gone c a hp
    · cases h
  case stopListening =>
    split at h
    · next hStop =>
        cases h
        exact .unlistened hStop
    · cases h
  case stopLock =>
    split at h
    · next hStop =>
        cases h
        exact .locked hStop
    · cases h
  case stopClose c =>
    split at h
    · next todo hStop =>
        simp only [Option.ite_none_right_eq_some, Option.some.injEq] at h
        exact h.2 ▸ .closed c todo hStop
    · cases h
  case stopUnlock =>
    split at h
    · next hStop =>
        cases h
        exact .unlocked hStop
    · cases h

theorem Invariant.forward {a : A} {c : Nat} {d : D} (h : s.Invariant key) (hGot : .received a d ∈ s.log)
    (hOwn : (s.sockets.map Peer.client)[c]? = some a) : (s.record (.forwarded a c d)).again.Invariant key :=
  (h.record (e := .forwarded a c d) (fun _ _ hEq => nomatch hEq) ⟨(h.dialed c a).mpr hOwn, hGot⟩).again

/-- Every outcome keeps entries and sockets together. -/
theorem Invariant.step (hKey : Function.Injective key) (h : s.Invariant key) (hStep : Outcome key s t) :
    t.Invariant key := by
  cases hStep with
  | received a d =>
      have hRecord : (s.record (.received a d)).Invariant key := h.record (fun c a hEq => nomatch hEq) trivial
      refine hRecord.looped fun a' d' hGot => ?_
      rw [← (Loop.got.inj hGot).1, ← (Loop.got.inj hGot).2]
      exact List.mem_append_right _ (List.mem_singleton_self _)
  | returned => exact h.looped fun a d hGot => nomatch hGot
  | ignored => exact h.again
  | forwarded a c d hLoop hEntry =>
      obtain ⟨b, hb, hSame⟩ := h.owned _ c hEntry
      obtain rfl := hKey hSame
      exact h.forward (h.got b d hLoop) hb
  | dialed a d hLoop hOpen hNew hRoom =>
      have hDialed := h.dial hNew hRoom
      refine hDialed.forward (hDialed.got a d hLoop) ((hDialed.dialed _ _).mp ?_)
      exact List.mem_append_right _ (List.mem_singleton_self _)
  | read c a d hp =>
      have hRecord : (s.record (.read c d)).Invariant key := h.record (fun c a hEq => nomatch hEq) trivial
      refine hRecord.goto hp (fun _ => rfl) fun d' hSame => ?_
      rw [← Phase.replying.inj hSame]
      exact List.mem_append_right _ (List.mem_singleton_self _)
  | readFailed c a hp => exact h.goto hp (fun _ => rfl) fun d hSame => nomatch hSame
  | replied c a d phase hp hPhase =>
      have hDialed : .dialed c a ∈ s.log := (h.dialed c a).mpr (by simp [hp])
      have hRecord : (s.record (.replied c a d)).Invariant key :=
        h.record (fun c a hEq => nomatch hEq) ⟨hDialed, h.replying c _ d hp rfl⟩
      exact hRecord.goto hp (fun _ => rfl) fun d' hSame => absurd hSame (hPhase d')
  | removed c a hp => exact h.removed hp rfl
  | gone c a hp =>
      have hGone : (s.goto c ⟨a, .closing⟩ .gone).Invariant key :=
        h.goto hp (fun hSame => nomatch hSame) fun d hSame => nomatch hSame
      exact { hGone with }
  | unlistened hStop => exact { h with flagged := h.flagged.trans (by rw [hStop]; rfl) }
  | locked hStop => exact { h with flagged := rfl }
  | closed c todo hStop => exact { h with flagged := h.flagged.trans (by rw [hStop]; rfl) }
  | unlocked hStop => exact { h with flagged := h.flagged.trans (by rw [hStop]; rfl) }

theorem invariant (hKey : Function.Injective key) (h : Reachable (system key) s) : s.Invariant key := by
  refine Reachable.invariant (fun s hs => ?_) (fun s l t hI hStep => hI.step hKey (outcome_of_step hStep)) h
  rw [show s = .new from hs]
  constructor <;> simp [new, Stopping.begun]

/-! ### After the stop -/

/-- A stopped mapping stays stopped and dials nothing. -/
theorem dials_nothing (hStep : Outcome key s t) (hClosed : s.closed = true) :
    t.closed = true ∧ ∀ c a, .dialed c a ∈ t.log → .dialed c a ∈ s.log := by
  cases hStep with
  | dialed a d hLoop hOpen hNew hRoom =>
      rw [hOpen] at hClosed
      cases hClosed
  | locked hStop => exact ⟨rfl, fun c a hMem => hMem⟩
  | received a d => exact ⟨hClosed, fun c a hMem => by simpa [record] using hMem⟩
  | forwarded a c d hLoop hEntry => exact ⟨hClosed, fun c a hMem => by simpa [record, State.again] using hMem⟩
  | read c a d hp => exact ⟨hClosed, fun c a hMem => by simpa [record, State.goto] using hMem⟩
  | replied c a d phase hp hPhase => exact ⟨hClosed, fun c a hMem => by simpa [record, State.goto] using hMem⟩
  | removed c a hp => exact ⟨hClosed, fun c a hMem => by simpa [remove, record, State.goto] using hMem⟩
  | _ => exact ⟨hClosed, fun c a hMem => hMem⟩

variable (key) in
/-- What never happens between clients. -/
structure Apart (s : State A D K) : Prop where
  /-- A socket was dialed for one client. -/
  sockets : ∀ c a b, .dialed c a ∈ s.log → .dialed c b ∈ s.log → a = b
  /-- An entry is a socket of the client whose key it has. -/
  entries : ∀ k c, s.peers.lookup k = some c → ∃ a, .dialed c a ∈ s.log ∧ key a = k
  bounded : s.peers.entries.length ≤ 256
  forwarded : ∀ a c d, .forwarded a c d ∈ s.log → .dialed c a ∈ s.log ∧ .received a d ∈ s.log
  replied : ∀ c a d, .replied c a d ∈ s.log → .dialed c a ∈ s.log ∧ .read c d ∈ s.log
  removed : ∀ c a found, .removed c a found ∈ s.log → found = some c
  stopped : s.stop = .returned → ∀ labels t, Runs (system key) s labels t →
    ∀ c a, .dialed c a ∈ t.log → .dialed c a ∈ s.log

/-- In every reachable state a socket is of one client, and so are its entries and
answers. -/
theorem clients_apart (hKey : Function.Injective key) (h : Reachable (system key) s) : s.Apart key := by
  have hI := invariant hKey h
  constructor
  case sockets =>
    intro c a b ha hb
    exact Option.some.inj (((hI.dialed c a).mp ha).symm.trans ((hI.dialed c b).mp hb))
  case entries =>
    intro k c hEntry
    obtain ⟨a, ha, hk⟩ := hI.owned k c hEntry
    exact ⟨a, (hI.dialed c a).mpr ha, hk⟩
  case bounded => exact hI.bounded
  case forwarded => exact fun a c d hMem => hI.kept _ hMem
  case replied => exact fun c a d hMem => hI.kept _ hMem
  case removed => exact fun c a found hMem => hI.kept _ hMem
  case stopped =>
    intro hStop labels t run c a hMem
    have hClosed : s.closed = true := hI.flagged.trans (by rw [hStop]; rfl)
    have hKept : t.closed = true ∧ ∀ c a, .dialed c a ∈ t.log → .dialed c a ∈ s.log := by
      refine run.preserves (I := fun t => t.closed = true ∧ ∀ c a, .dialed c a ∈ t.log → .dialed c a ∈ s.log)
        (fun u l v hu hStep => ?_) ⟨hClosed, fun c a hMem => hMem⟩
      have hNothing := dials_nothing (outcome_of_step hStep) hu.1
      exact ⟨hNothing.1, fun c a hMem => hu.2 c a (hNothing.2 c a hMem)⟩
    exact hKept.2 c a hMem

end

/-- A client times out, and comes back before its old socket is closed. -/
def comesBack : List (Label String Nat) :=
  [.receive "10.66.0.5:4000" 1, .handle true, .receive "10.66.0.6:4000" 2, .handle true, .readFails 0, .read 1 7,
    .remove 0, .receive "10.66.0.5:4000" 3, .handle true, .close 0, .reply 1 true, .read 2 8, .reply 2 true,
    .stopListening, .stopLock, .stopClose 1, .stopClose 2, .stopUnlock]

theorem comesBack_apart : ∃ s : State String Nat String, Reachable (system id) s ∧ s.stop = .returned ∧
    .forwarded "10.66.0.5:4000" 2 3 ∈ s.log ∧ s.Apart id := by
  have hFollow : (follow (State.step (id : String → String)) .new comesBack).any (fun s =>
      s.stop = .returned ∧ .forwarded "10.66.0.5:4000" 2 3 ∈ s.log) = true := by decide +kernel
  obtain ⟨s, hRun, hEnd⟩ := (Option.any_eq_true _ _).mp hFollow
  have hReach : Reachable (system id) s := ⟨_, comesBack, rfl, runs_of_follow (fun _ _ _ hStep => hStep) hRun⟩
  exact ⟨s, hReach, (of_decide_eq_true hEnd).1, (of_decide_eq_true hEnd).2,
    clients_apart Function.injective_id hReach⟩

end State
end NetConductor.UDPForward
