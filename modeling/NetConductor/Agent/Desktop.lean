import Mathlib.Data.List.AList
import NetConductor.Semantics.History
import NetConductor.Semantics.Slots
import NetConductor.Semantics.Transition

/-! The desktop bridge of the agent: `desktopRequest` waits for an answer to a
job, `desktopNext` hands jobs to the desktop client, and `desktopReply` brings
its answers back. They share a bounded queue and a map of channels. -/
namespace NetConductor
open History Transition

structure DesktopJob (R : Type) where
  id : String
  request : R
deriving DecidableEq

structure DesktopResult where
  id : String
  result : String
  error : String
deriving DecidableEq

/-- What `desktopRequest` returns for it. -/
def DesktopResult.outcome (r : DesktopResult) : Except String String :=
  if r.error ≠ "" then .error r.error else .ok r.result

/-- How far `desktopRequest` is: at its first `select`, at its second, past both
with what it is going to return, or at its end. -/
inductive CallStage where
  | sending
  | waiting
  | leaving (out : Except String String)
  | returned (out : Except String String)

namespace CallStage

/-- The job is in the queue, or has been. -/
def sent : CallStage → Bool
  | .sending => false
  | _ => true

/-- What the call returns, once that is settled. -/
def out : CallStage → Option (Except String String)
  | .leaving out | .returned out => some out
  | _ => none

def isOver : CallStage → Bool
  | .returned _ => true
  | _ => false

end CallStage

/-- The channel of a call has room for one reply; `channel` is the number of the
one that is in it. -/
structure DesktopCall (R : Type) where
  id : String
  request : R
  stage : CallStage
  channel : Option Nat

/-- How far `desktopNext` is: at its `select`, with a job from the queue, or at
its end. -/
inductive PollStage (R : Type) where
  | waiting
  | holding (job : DesktopJob R)
  | answered (job : Option (DesktopJob R))

/-- How far `desktopReply` is: before it looks into the map, with the channel
that it found, or at its end. -/
inductive ReplyStage where
  | arrived
  | found (call : Option Nat)
  | done

structure DesktopReply where
  result : DesktopResult
  stage : ReplyStage

/-- What happens, in order: a call enters its channel into the map, a reply finds
a channel there, a reply reaches a channel, a call receives a reply, a poll is
handed the job of a call, and a call takes its channel out of the map. -/
inductive DesktopEvent where
  | registered (call : Nat) (id : String)
  | found (reply : Nat) (id : String) (call : Nat)
  | reached (reply call : Nat)
  | received (call reply : Nat)
  | handed (poll call : Nat)
  | deleted (call : Nat)
deriving DecidableEq

/-- `pending` names each channel by the number of its call; `made` tells whether
there is a queue at all. -/
structure DesktopBridge (R : Type) where
  made : Bool
  queue : List (DesktopJob R)
  pending : AList fun _ : String => Nat
  calls : List (DesktopCall R)
  polls : List (PollStage R)
  replies : List DesktopReply
  log : List DesktopEvent

/-- One step of one of the handlers; a timeout can come at any time. -/
inductive DesktopLabel (R : Type) where
  | request (id : String) (r : R)
  | enqueue (call : Nat)
  | receive (call : Nat)
  | timeout (call : Nat)
  | finish (call : Nat)
  | next
  | take (poll : Nat)
  | look (poll : Nat)
  | pollTimeout (poll : Nat)
  | reply (body : Except String DesktopResult)
  | find (reply : Nat)
  | deliver (reply : Nat)

namespace DesktopBridge

variable {R : Type}

/-- `Token()`, and the channel into the map. -/
def register (id : String) (r : R) (w : DesktopBridge R) : DesktopBridge R :=
  { w with
    pending := w.pending.insert id w.calls.length
    calls := w.calls ++ [⟨id, r, .sending, none⟩]
    log := w.log ++ [.registered w.calls.length id] }

def enqueue (i : Nat) (w : DesktopBridge R) : Option (DesktopBridge R) :=
  match w.calls[i]? with
  | some ⟨id, r, .sending, channel⟩ =>
      if w.queue.length < 32 then some { w with
        queue := w.queue ++ [⟨id, r⟩]
        calls := w.calls.set i ⟨id, r, .waiting, channel⟩ }
      else none
  | _ => none

def receive (i : Nat) (w : DesktopBridge R) : Option (DesktopBridge R) :=
  match w.calls[i]? with
  | some ⟨id, r, .waiting, some k⟩ => w.replies[k]?.map fun reply => { w with
      calls := w.calls.set i ⟨id, r, .leaving reply.result.outcome, none⟩
      log := w.log ++ [.received i k] }
  | _ => none

/-- The context of a call is done. -/
def timeout (i : Nat) (w : DesktopBridge R) : Option (DesktopBridge R) :=
  match w.calls[i]? with
  | some ⟨id, r, .sending, channel⟩ => some { w with
      calls := w.calls.set i
        ⟨id, r, .leaving (.error "Windows desktop client not available"), channel⟩ }
  | some ⟨id, r, .waiting, channel⟩ => some { w with
      calls := w.calls.set i ⟨id, r,
        .leaving (.error "Windows desktop is not logged in or client is not running"), channel⟩ }
  | _ => none

/-- The deferred function, and the return. -/
def finish (i : Nat) (w : DesktopBridge R) : Option (DesktopBridge R) :=
  match w.calls[i]? with
  | some ⟨id, r, .leaving out, channel⟩ => some { w with
      pending := w.pending.erase id
      calls := w.calls.set i ⟨id, r, .returned out, channel⟩
      log := w.log ++ [.deleted i] }
  | _ => none

def take (j : Nat) (w : DesktopBridge R) : Option (DesktopBridge R) :=
  match w.polls[j]?, w.queue with
  | some .waiting, job :: rest => some { w with queue := rest, polls := w.polls.set j (.holding job) }
  | _, _ => none

def look (j : Nat) (w : DesktopBridge R) : Option (DesktopBridge R) :=
  match w.polls[j]? with
  | some (.holding job) =>
      match w.pending.lookup job.id with
      | some i => some { w with
          polls := w.polls.set j (.answered (some job))
          log := w.log ++ [.handed j i] }
      | none => some { w with polls := w.polls.set j .waiting }
  | _ => none

def pollTimeout (j : Nat) (w : DesktopBridge R) : Option (DesktopBridge R) :=
  match w.polls[j]? with
  | some .waiting => some { w with polls := w.polls.set j (.answered none) }
  | _ => none

def find (k : Nat) (w : DesktopBridge R) : Option (DesktopBridge R) :=
  match w.replies[k]? with
  | some ⟨result, .arrived⟩ => some { w with
      replies := w.replies.set k ⟨result, .found (w.pending.lookup result.id)⟩
      log := w.log ++ ((w.pending.lookup result.id).map (DesktopEvent.found k result.id)).toList }
  | _ => none

/-- The channel takes the reply if it is empty. -/
def deliver (k : Nat) (w : DesktopBridge R) : Option (DesktopBridge R) :=
  match w.replies[k]? with
  | some ⟨result, .found none⟩ => some { w with replies := w.replies.set k ⟨result, .done⟩ }
  | some ⟨result, .found (some i)⟩ => some { w with
      replies := w.replies.set k ⟨result, .done⟩
      calls := w.calls.modify i fun c => { c with channel := c.channel.or (some k) }
      log := w.log ++ [.reached k i] }
  | _ => none

def step (w : DesktopBridge R) : DesktopLabel R → Option (DesktopBridge R)
  | .request id r =>
      -- without a queue `desktopRequest` returns at once
      if w.made = false then some w
      else if w.calls.any fun c => c.id = id then none
      else some (w.register id r)
  | .enqueue i => w.enqueue i
  | .receive i => w.receive i
  | .timeout i => w.timeout i
  | .finish i => w.finish i
  | .next => some { w with polls := w.polls ++ [.waiting] }
  | .take j => w.take j
  | .look j => w.look j
  | .pollTimeout j => w.pollTimeout j
  | .reply (.error _) => some w
  | .reply (.ok result) => some { w with replies := w.replies ++ [⟨result, .arrived⟩] }
  | .find k => w.find k
  | .deliver k => w.deliver k

/-- All runs of a bridge that `New` has made, or that nobody has. -/
def system (R : Type) : System (DesktopBridge R) (DesktopLabel R) where
  initial w := ∃ made, w = ⟨made, [], ∅, [], [], [], []⟩
  step w l v := w.step l = some v

/-! ### What is to hold -/

/-- The call is in the map: from its registration until it returns. -/
def InProgress (log : List DesktopEvent) (call : Nat) : Prop :=
  (∃ id, .registered call id ∈ log) ∧ .deleted call ∉ log

/-- The reply that an event brings to the channel of a call. -/
def reachedBy (call : Nat) : DesktopEvent → Option Nat
  | .reached reply i => if i = call then some reply else none
  | _ => none

/-- Ids are fresh; a reply finds a channel only under its own id and while the
call is in progress, and reaches no channel that it did not find; a call receives
the first reply that reached its channel, once; a job is handed out once, while
its call is in progress. -/
def Law (log : List DesktopEvent) : DesktopEvent → Prop
  | .registered call id => ∀ i name, .registered i name ∈ log → i ≠ call ∧ name ≠ id
  | .found _ id call => .registered call id ∈ log ∧ InProgress log call
  | .reached reply call => ∃ id, .found reply id call ∈ log
  | .received call reply => InProgress log call ∧ log.findSome? (reachedBy call) = some reply ∧
      ∀ other, .received call other ∉ log
  | .handed _ call => InProgress log call ∧ ∀ poll, .handed poll call ∉ log
  | .deleted call => InProgress log call

/-! ### What the handlers do -/

variable {w v : DesktopBridge R}

/-- A call that is sending puts its own job at the end of the queue. -/
theorem enqueue_cases {i : Nat} (h : w.enqueue i = some v) :
    ∃ c, w.calls[i]? = some c ∧ c.stage = .sending ∧ v = { w with
      queue := w.queue ++ [⟨c.id, c.request⟩]
      calls := w.calls.set i { c with stage := .waiting } } := by
  unfold enqueue at h
  split at h
  · next hCall =>
      split_ifs at h
      exact ⟨_, hCall, rfl, (Option.some.inj h).symm⟩
  · cases h

/-- A call receives on its own channel, and only what has arrived there. -/
theorem receive_cases {i : Nat} (h : w.receive i = some v) :
    ∃ c k reply, w.calls[i]? = some c ∧ c.stage = .waiting ∧ c.channel = some k ∧
      w.replies[k]? = some reply ∧ v = { w with
        calls := w.calls.set i { c with stage := .leaving reply.result.outcome, channel := none }
        log := w.log ++ [.received i k] } := by
  unfold receive at h
  split at h
  · next id r k hCall =>
      obtain ⟨reply, hReply, rfl⟩ := Option.map_eq_some_iff.mp h
      exact ⟨_, k, reply, hCall, rfl, rfl, hReply, rfl⟩
  · cases h

/-- The texts of the two timeouts. -/
def TimeoutText (out : Except String String) : Prop :=
  out = .error "Windows desktop client not available" ∨
    out = .error "Windows desktop is not logged in or client is not running"

/-- A call times out only before it has an outcome. -/
theorem timeout_cases {i : Nat} (h : w.timeout i = some v) :
    ∃ c out, w.calls[i]? = some c ∧ c.stage.out = none ∧ TimeoutText out ∧
      v = { w with calls := w.calls.set i { c with stage := .leaving out } } := by
  unfold timeout at h
  split at h
  · next hCall => exact ⟨_, _, hCall, rfl, .inl rfl, (Option.some.inj h).symm⟩
  · next hCall => exact ⟨_, _, hCall, rfl, .inr rfl, (Option.some.inj h).symm⟩
  · cases h

/-- A call that leaves takes its entry out of `pending`. -/
theorem finish_cases {i : Nat} (h : w.finish i = some v) :
    ∃ c out, w.calls[i]? = some c ∧ c.stage = .leaving out ∧ v = { w with
      pending := w.pending.erase c.id
      calls := w.calls.set i { c with stage := .returned out }
      log := w.log ++ [.deleted i] } := by
  unfold finish at h
  split at h
  · next hCall => exact ⟨_, _, hCall, rfl, (Option.some.inj h).symm⟩
  · cases h

/-- A waiting poll takes the first job of the queue. -/
theorem take_cases {j : Nat} (h : w.take j = some v) :
    ∃ job rest, w.polls[j]? = some .waiting ∧ w.queue = job :: rest ∧
      v = { w with queue := rest, polls := w.polls.set j (.holding job) } := by
  unfold take at h
  split at h
  · next job rest hPoll hQueue => exact ⟨job, rest, hPoll, hQueue, (Option.some.inj h).symm⟩
  · cases h

/-- A poll that holds a job looks it up: it hands it over while the call is pending, and
drops it otherwise. -/
theorem look_cases {j : Nat} (h : w.look j = some v) :
    ∃ job, w.polls[j]? = some (.holding job) ∧
      ((∃ i, w.pending.lookup job.id = some i ∧ v = { w with
          polls := w.polls.set j (.answered (some job))
          log := w.log ++ [.handed j i] }) ∨
        (w.pending.lookup job.id = none ∧ v = { w with polls := w.polls.set j .waiting })) := by
  unfold look at h
  split at h
  · next job hPoll =>
      refine ⟨job, hPoll, ?_⟩
      split at h
      · next i hPending => exact .inl ⟨i, hPending, (Option.some.inj h).symm⟩
      · next hPending => exact .inr ⟨hPending, (Option.some.inj h).symm⟩
  · cases h

/-- Only a waiting poll times out. -/
theorem pollTimeout_cases {j : Nat} (h : w.pollTimeout j = some v) :
    w.polls[j]? = some .waiting ∧ v = { w with polls := w.polls.set j (.answered none) } := by
  unfold pollTimeout at h
  split at h
  · next hPoll => exact ⟨hPoll, (Option.some.inj h).symm⟩
  · cases h

/-- A posted result finds the channel of the call that it names, if that one is still
pending. -/
theorem find_cases {k : Nat} (h : w.find k = some v) :
    ∃ result, w.replies[k]? = some ⟨result, .arrived⟩ ∧
      ((∃ i, w.pending.lookup result.id = some i ∧ v = { w with
          replies := w.replies.set k ⟨result, .found (some i)⟩
          log := w.log ++ [.found k result.id i] }) ∨
        (w.pending.lookup result.id = none ∧
          v = { w with replies := w.replies.set k ⟨result, .found none⟩ })) := by
  unfold find at h
  split at h
  · next result hReply =>
      refine ⟨result, hReply, ?_⟩
      cases hPending : w.pending.lookup result.id with
      | some i => exact .inl ⟨i, rfl, by simpa [hPending] using h.symm⟩
      | none => exact .inr ⟨rfl, by simpa [hPending] using h.symm⟩
  · cases h

/-- The result is dropped, or it goes into the channel that was found, if that is empty.
-/
theorem deliver_cases {k : Nat} (h : w.deliver k = some v) :
    ∃ result, (w.replies[k]? = some ⟨result, .found none⟩ ∧
        v = { w with replies := w.replies.set k ⟨result, .done⟩ }) ∨
      ∃ i, w.replies[k]? = some ⟨result, .found (some i)⟩ ∧ v = { w with
        replies := w.replies.set k ⟨result, .done⟩
        calls := w.calls.modify i fun c => { c with channel := c.channel.or (some k) }
        log := w.log ++ [.reached k i] } := by
  unfold deliver at h
  split at h
  · next result hReply => exact ⟨result, .inl ⟨hReply, (Option.some.inj h).symm⟩⟩
  · next result i hReply => exact ⟨result, .inr ⟨i, hReply, (Option.some.inj h).symm⟩⟩
  · cases h

/-- What the event of a step says of the state before it. -/
def Backed (w : DesktopBridge R) : DesktopEvent → Prop
  | .registered call id => call = w.calls.length ∧ ∀ c ∈ w.calls, c.id ≠ id
  | .found reply id call => w.pending.lookup id = some call ∧
      ∃ r, w.replies[reply]? = some r ∧ r.result.id = id
  | .reached reply call => ∃ r, w.replies[reply]? = some r ∧ r.stage = .found (some call)
  | .received call reply =>
      ∃ c, w.calls[call]? = some c ∧ c.stage = .waiting ∧ c.channel = some reply
  | .handed poll call => ∃ job : DesktopJob R, w.polls[poll]? = some (.holding job) ∧
      w.pending.lookup job.id = some call
  | .deleted call => ∃ c out, w.calls[call]? = some c ∧ c.stage = .leaving out

/-- What a step with this event does to a call: it goes on, a reply enters its
channel, and what it is going to return is the text of a timeout or a reply that
it receives. -/
structure CallMoves (w : DesktopBridge R) (e : Option DesktopEvent) (i : Nat) (c c' : DesktopCall R) :
    Prop where
  id : c'.id = c.id
  request : c'.request = c.request
  sent : c.stage.sent = true → c'.stage.sent = true
  out : ∀ out, c.stage.out = some out → c'.stage.out = some out
  channel : c'.stage.out = none → c'.channel = c.channel.or (e.bind (reachedBy i))
  received : ∀ k, e = some (.received i k) → c'.stage.out ≠ none
  settled : ∀ out, c'.stage.out = some out → c.stage.out = some out ∨ TimeoutText out ∨
    ∃ k r, e = some (.received i k) ∧ c.stage.out = none ∧ c.channel = some k ∧
      w.replies[k]? = some r ∧ out = r.result.outcome

/-- A call that is made in the step. -/
structure NewCall (c : DesktopCall R) : Prop where
  out : c.stage.out = none
  channel : c.channel = none

/-- What a step with this event does to a reply. -/
structure ReplyMoves (e : Option DesktopEvent) (k : Nat) (r r' : DesktopReply) : Prop where
  result : r'.result = r.result
  found : ∀ i, r'.stage = .found (some i) →
    r.stage = .found (some i) ∨ e = some (.found k r.result.id i)

/-- All that a step does to the calls, the replies and the log. -/
structure Moves (w v : DesktopBridge R) (e : Option DesktopEvent) : Prop where
  log : v.log = w.log ++ e.toList
  backed : ∀ x, e = some x → w.Backed x
  calls : Slots.Evolves (CallMoves w e) NewCall w.calls v.calls
  replies : Slots.Evolves (ReplyMoves e) (fun r => r.stage = .arrived) w.replies v.replies

/-- A call that the event is not about stays as it is. -/
theorem CallMoves.refl {e : Option DesktopEvent} {i : Nat} (hReached : e.bind (reachedBy i) = none)
    (hReceived : ∀ k, e ≠ some (.received i k)) (c : DesktopCall R) : CallMoves w e i c c where
  id := rfl
  request := rfl
  sent h := h
  out _ h := h
  channel _ := by rw [hReached, Option.or_none]
  received k h := absurd h (hReceived k)
  settled _ h := .inl h

theorem ReplyMoves.refl (e : Option DesktopEvent) (k : Nat) (r : DesktopReply) : ReplyMoves e k r r :=
  ⟨rfl, fun _ h => .inl h⟩

/-- A step of a poll, which the event names at most. -/
theorem moves_poll {e : Option DesktopEvent} (hLog : v.log = w.log ++ e.toList)
    (hBacked : ∀ x, e = some x → w.Backed x ∧ ∃ j i, x = .handed j i) (hCalls : v.calls = w.calls)
    (hReplies : v.replies = w.replies) : Moves w v e := by
  have hHanded : ∀ x, e = some x → ∃ j i, x = .handed j i := fun x hx => (hBacked x hx).2
  refine ⟨hLog, fun x hx => (hBacked x hx).1, hCalls ▸ .refl (fun i c => ?_) _,
    hReplies ▸ .refl (ReplyMoves.refl e) _⟩
  refine CallMoves.refl ?_ (fun k hk => ?_) c
  · cases e with
    | none => rfl
    | some x =>
        obtain ⟨j, n, rfl⟩ := hHanded x rfl
        rfl
  · obtain ⟨j, n, hx⟩ := hHanded _ hk
    cases hx

theorem moves_refl (w : DesktopBridge R) : Moves w w none :=
  moves_poll (by simp) (fun _ h => by cases h) rfl rfl

/-- A call registers under an id that no call has had. -/
theorem register_moves {id : String} {r : R} (hFresh : ∀ c ∈ w.calls, c.id ≠ id) :
    Moves w (w.register id r) (some (.registered w.calls.length id)) where
  log := rfl
  backed x hx := by
    cases hx
    exact ⟨rfl, hFresh⟩
  calls := .append (fun i => CallMoves.refl rfl fun k hk => by cases hk) ⟨rfl, rfl⟩
  replies := .refl (ReplyMoves.refl _) _

/-- A call of which only the stage changes, before anything has come out of its
channel. -/
theorem CallMoves.of_stage {i : Nat} {c : DesktopCall R} {stage : CallStage} (hBefore : c.stage.out = none)
    (hSent : stage.sent = true) (hStage : ∀ out, stage.out = some out → TimeoutText out) :
    CallMoves w none i c { c with stage := stage } where
  id := rfl
  request := rfl
  sent _ := hSent
  out out hOut := by cases hBefore.symm.trans hOut
  channel _ := (Option.or_none).symm
  received k h := by cases h
  settled out hOut := .inr (.inl (hStage out hOut))

theorem enqueue_moves {i : Nat} (h : w.enqueue i = some v) : Moves w v none := by
  obtain ⟨c, hCall, hStage, rfl⟩ := enqueue_cases h
  refine ⟨by simp, fun _ hx => (by cases hx),
    .set (fun j => CallMoves.refl rfl fun k hk => (by cases hk)) hCall ?_, .refl (ReplyMoves.refl _) _⟩
  exact CallMoves.of_stage (by rw [hStage]; rfl) rfl fun out hOut => by cases hOut

theorem timeout_moves {i : Nat} (h : w.timeout i = some v) : Moves w v none := by
  obtain ⟨c, out, hCall, hBefore, hText, rfl⟩ := timeout_cases h
  refine ⟨by simp, fun _ hx => (by cases hx),
    .set (fun j => CallMoves.refl rfl fun k hk => (by cases hk)) hCall ?_, .refl (ReplyMoves.refl _) _⟩
  exact CallMoves.of_stage hBefore rfl fun out' hOut => Option.some.inj hOut ▸ hText

/-- A receive takes what its channel holds. -/
theorem receive_moves {i : Nat} (h : w.receive i = some v) : ∃ k, Moves w v (some (.received i k)) := by
  obtain ⟨c, k, reply, hCall, hStage, hContent, hReply, rfl⟩ := receive_cases h
  have hBefore : c.stage.out = none := by rw [hStage]; rfl
  have hOther : ∀ (j : Nat) (d : DesktopCall R), j ≠ i → CallMoves w (some (.received i k)) j d d := by
    intro j d hj
    refine CallMoves.refl rfl (fun n hn => hj ?_) d
    cases hn
    rfl
  refine ⟨k, rfl, fun x hx => ?_, .set_at hOther hCall ?_, .refl (ReplyMoves.refl _) _⟩
  · cases hx
    exact ⟨c, hCall, hStage, hContent⟩
  · refine ⟨rfl, rfl, fun _ => rfl, fun out hOut => ?_, fun hOut => ?_, fun n _ => Option.some_ne_none _,
      fun out hOut => ?_⟩
    · cases hBefore.symm.trans hOut
    · cases hOut
    · exact .inr (.inr ⟨k, reply, rfl, hBefore, hContent, hReply, (Option.some.inj hOut).symm⟩)

/-- A call that ends takes its own entry out of the table. -/
theorem finish_moves {i : Nat} (h : w.finish i = some v) : Moves w v (some (.deleted i)) := by
  obtain ⟨c, out, hCall, hStage, rfl⟩ := finish_cases h
  refine ⟨rfl, fun x hx => ?_, .set (fun j => CallMoves.refl rfl fun k hk => (by cases hk)) hCall ?_,
    .refl (ReplyMoves.refl _) _⟩
  · cases hx
    exact ⟨c, out, hCall, hStage⟩
  · have hOut : c.stage.out = some out := by rw [hStage]; rfl
    refine ⟨rfl, rfl, fun _ => rfl, fun x hx => ?_, fun hNone => ?_, fun k hk => ?_, fun x hx => .inl ?_⟩
    · exact hOut.symm.trans hx
    · cases hNone
    · cases hk
    · exact hOut.trans hx

theorem take_moves {j : Nat} (h : w.take j = some v) : Moves w v none := by
  obtain ⟨job, rest, -, -, rfl⟩ := take_cases h
  exact moves_poll (by simp) (fun _ h => by cases h) rfl rfl

/-- Looking a reply up reaches the call whose id it names, or none. -/
theorem look_moves {j : Nat} (h : w.look j = some v) : ∃ e, Moves w v e := by
  obtain ⟨job, hPoll, ⟨i, hPending, rfl⟩ | ⟨-, rfl⟩⟩ := look_cases h
  · refine ⟨some (.handed j i), moves_poll rfl (fun x hx => ?_) rfl rfl⟩
    cases hx
    exact ⟨⟨job, hPoll, hPending⟩, j, i, rfl⟩
  · exact ⟨none, moves_poll (by simp) (fun _ h => by cases h) rfl rfl⟩

theorem pollTimeout_moves {j : Nat} (h : w.pollTimeout j = some v) : Moves w v none := by
  obtain ⟨-, rfl⟩ := pollTimeout_cases h
  exact moves_poll (by simp) (fun _ h => by cases h) rfl rfl

/-- Looking a result up hands no job over. -/
theorem find_moves {k : Nat} (h : w.find k = some v) :
    ∃ e, Moves w v e ∧ ∀ j i, e ≠ some (.handed j i) := by
  obtain ⟨result, hReply, ⟨i, hPending, rfl⟩ | ⟨-, rfl⟩⟩ := find_cases h
  · refine ⟨some (.found k result.id i), ⟨rfl, fun x hx => ?_, .refl (fun j => ?_) _,
      .set (ReplyMoves.refl _) hReply ⟨rfl, fun n hn => .inr ?_⟩⟩, fun j n hn => by cases hn⟩
    · cases hx
      exact ⟨hPending, _, hReply, rfl⟩
    · exact CallMoves.refl rfl fun n hn => by cases hn
    · cases hn
      rfl
  · refine ⟨none, ⟨by simp, fun x hx => (by cases hx), .refl (fun j => ?_) _,
      .set (ReplyMoves.refl _) hReply ⟨rfl, fun n hn => (by cases hn)⟩⟩, fun j n hn => by cases hn⟩
    exact CallMoves.refl rfl fun n hn => by cases hn

/-- Putting a found result into its channel hands no job over. -/
theorem deliver_moves {k : Nat} (h : w.deliver k = some v) :
    ∃ e, Moves w v e ∧ ∀ j i, e ≠ some (.handed j i) := by
  obtain ⟨result, ⟨hReply, rfl⟩ | ⟨i, hReply, rfl⟩⟩ := deliver_cases h
  · refine ⟨none, ⟨by simp, fun x hx => (by cases hx), .refl (fun j => ?_) _,
      .set (ReplyMoves.refl _) hReply ⟨rfl, fun n hn => (by cases hn)⟩⟩, fun j n hn => by cases hn⟩
    exact CallMoves.refl rfl fun n hn => by cases hn
  · have hOther : ∀ (j : Nat) (d : DesktopCall R), j ≠ i → CallMoves w (some (.reached k i)) j d d := by
      intro j d hj
      refine CallMoves.refl ?_ (fun n hn => by cases hn) d
      exact if_neg (Ne.symm hj)
    refine ⟨some (.reached k i), ⟨rfl, fun x hx => ?_, .modify_at hOther fun c hc => ?_,
      .set (ReplyMoves.refl _) hReply ⟨rfl, fun n hn => (by cases hn)⟩⟩, fun j n hn => by cases hn⟩
    · cases hx
      exact ⟨_, hReply, rfl⟩
    · refine ⟨rfl, rfl, fun h => h, fun _ h => h, fun _ => ?_, fun n hn => ?_, fun _ h => .inl h⟩
      · rw [show (some (DesktopEvent.reached k i)).bind (reachedBy i) = some k from if_pos rfl]
      · cases hn

/-- A reply that arrives is only put with the others. -/
theorem arrived_moves (w : DesktopBridge R) (result : DesktopResult) :
    Moves w { w with replies := w.replies ++ [⟨result, .arrived⟩] } none where
  log := by simp
  backed _ h := by cases h
  calls := .refl (fun _ => CallMoves.refl rfl fun _ h => by cases h) _
  replies := .append (ReplyMoves.refl _) rfl

/-- Every step makes one of the moves, with one event at most. -/
theorem step_moves {l : DesktopLabel R} (h : w.step l = some v) : ∃ e, Moves w v e := by
  cases l with
  | request id r =>
      simp only [DesktopBridge.step] at h
      split_ifs at h with hMade hKnown
      · exact ⟨none, Option.some.inj h ▸ moves_refl w⟩
      · obtain rfl := Option.some.inj h
        refine ⟨_, register_moves fun c hc hId => hKnown ?_⟩
        exact List.any_eq_true.mpr ⟨c, hc, decide_eq_true hId⟩
  | enqueue i => exact ⟨none, enqueue_moves h⟩
  | receive i =>
      obtain ⟨k, hMoves⟩ := receive_moves h
      exact ⟨_, hMoves⟩
  | timeout i => exact ⟨none, timeout_moves h⟩
  | finish i => exact ⟨_, finish_moves h⟩
  | next =>
      obtain rfl := Option.some.inj h
      exact ⟨none, moves_poll (by simp) (fun _ h => by cases h) rfl rfl⟩
  | take j => exact ⟨none, take_moves h⟩
  | look j => exact look_moves h
  | pollTimeout j => exact ⟨none, pollTimeout_moves h⟩
  | reply body =>
      cases body with
      | error e =>
          obtain rfl := Option.some.inj h
          exact ⟨none, moves_refl _⟩
      | ok result =>
          obtain rfl := Option.some.inj h
          exact ⟨none, arrived_moves w result⟩
  | find k =>
      obtain ⟨e, hMoves, -⟩ := find_moves h
      exact ⟨e, hMoves⟩
  | deliver k =>
      obtain ⟨e, hMoves, -⟩ := deliver_moves h
      exact ⟨e, hMoves⟩

theorem Moves.mem_log {e : Option DesktopEvent} (h : Moves w v e) {x : DesktopEvent} :
    x ∈ v.log ↔ x ∈ w.log ∨ e = some x := by
  rw [h.log, List.mem_append, Option.mem_toList]

/-! ### The map -/

/-- What the map is about: ids, and who is still in it. -/
structure Registry (w : DesktopBridge R) : Prop where
  registered : ∀ i id, .registered i id ∈ w.log ↔ w.calls[i]?.map DesktopCall.id = some id
  deleted : ∀ i, .deleted i ∈ w.log ↔ w.calls[i]?.map (fun c => c.stage.isOver) = some true
  distinct : ∀ (i j : Nat) (c d : DesktopCall R), w.calls[i]? = some c → w.calls[j]? = some d →
    c.id = d.id → i = j
  pending : ∀ id i, w.pending.lookup id = some i ↔
    w.calls[i]?.map (fun c => (c.id, c.stage.isOver)) = some (id, false)

theorem Registry.lookup (h : w.Registry) {id : String} {i : Nat} : w.pending.lookup id = some i ↔
    ∃ c, w.calls[i]? = some c ∧ c.id = id ∧ c.stage.isOver = false := by
  rw [h.pending, Option.map_eq_some_iff]
  simp only [Prod.mk.injEq]

/-- A call with a new id comes with an entry and a channel of its own. -/
theorem Registry.register (h : w.Registry) {id : String} {r : R} (hFresh : ∀ c ∈ w.calls, c.id ≠ id) :
    (w.register id r).Registry := by
  have hOther : ∀ (i : Nat) c, w.calls[i]? = some c → c.id ≠ id :=
    fun i c hc => hFresh c (List.mem_of_getElem? hc)
  unfold DesktopBridge.register
  constructor
  · intro i name
    simp only [List.mem_append, List.mem_singleton, h.registered, DesktopEvent.registered.injEq,
      Option.map_eq_some_iff, Slots.getElem?_concat]
    constructor
    · rintro (⟨c, hc, rfl⟩ | ⟨rfl, rfl⟩)
      · exact ⟨c, .inl hc, rfl⟩
      · exact ⟨_, .inr ⟨rfl, rfl⟩, rfl⟩
    · rintro ⟨c, hc | ⟨rfl, rfl⟩, rfl⟩
      · exact .inl ⟨c, hc, rfl⟩
      · exact .inr ⟨rfl, rfl⟩
  · intro i
    simp only [List.mem_append, List.mem_singleton, reduceCtorEq, or_false, h.deleted,
      Option.map_eq_some_iff, Slots.getElem?_concat]
    constructor
    · rintro ⟨c, hc, hOver⟩
      exact ⟨c, .inl hc, hOver⟩
    · rintro ⟨c, hc | ⟨rfl, rfl⟩, hOver⟩
      · exact ⟨c, hc, hOver⟩
      · cases hOver
  · intro i j c d hc hd hId
    rcases Slots.getElem?_concat.mp hc with hc | ⟨rfl, rfl⟩
    · rcases Slots.getElem?_concat.mp hd with hd | ⟨rfl, rfl⟩
      · exact h.distinct i j c d hc hd hId
      · exact absurd hId (hOther i c hc)
    · rcases Slots.getElem?_concat.mp hd with hd | ⟨rfl, rfl⟩
      · exact absurd hId.symm (hOther j d hd)
      · rfl
  · intro name i
    simp only [Option.map_eq_some_iff, Slots.getElem?_concat, Prod.mk.injEq]
    by_cases hName : name = id
    · subst hName
      rw [AList.lookup_insert, Option.some.injEq]
      constructor
      · rintro rfl
        exact ⟨_, .inr ⟨rfl, rfl⟩, rfl, rfl⟩
      · rintro ⟨c, hc | ⟨rfl, rfl⟩, hId, -⟩
        · exact absurd hId (hOther i c hc)
        · rfl
    · rw [AList.lookup_insert_ne hName, h.lookup]
      constructor
      · rintro ⟨c, hc, hView⟩
        exact ⟨c, .inl hc, hView⟩
      · rintro ⟨c, hc | ⟨rfl, rfl⟩, hView⟩
        · exact ⟨c, hc, hView⟩
        · exact absurd hView.1.symm hName

/-- The deferred delete removes the entry of the call that ends and of no other one. -/
theorem Registry.finish (h : w.Registry) {i : Nat} (hStep : w.finish i = some v) : v.Registry := by
  obtain ⟨c, out, hCall, hStage, rfl⟩ := finish_cases hStep
  have hIds : ∀ j : Nat, (w.calls.set i { c with stage := .returned out })[j]?.map DesktopCall.id =
      w.calls[j]?.map DesktopCall.id := by
    intro j
    have hSame : (w.calls.set i { c with stage := .returned out }).map DesktopCall.id =
        w.calls.map DesktopCall.id := Slots.map_set hCall rfl
    simpa only [List.getElem?_map] using congrArg (fun l => l[j]?) hSame
  constructor
  · intro j name
    simp only [List.mem_append, List.mem_singleton, reduceCtorEq, or_false, h.registered, hIds]
  · intro j
    simp only [List.mem_append, List.mem_singleton, DesktopEvent.deleted.injEq, h.deleted,
      Option.map_eq_some_iff, Slots.getElem?_set hCall]
    constructor
    · rintro (⟨d, hd, hOver⟩ | rfl)
      · by_cases hj : j = i
        · exact ⟨_, .inl ⟨hj, rfl⟩, rfl⟩
        · exact ⟨d, .inr ⟨hj, hd⟩, hOver⟩
      · exact ⟨_, .inl ⟨rfl, rfl⟩, rfl⟩
    · rintro ⟨d, ⟨rfl, -⟩ | ⟨-, hd⟩, hOver⟩
      · exact .inr rfl
      · exact .inl ⟨d, hd, hOver⟩
  · intro j k d e hd he hId
    obtain ⟨d', hd', hOld⟩ := Option.map_eq_some_iff.mp ((hIds j).symm.trans (congrArg _ hd))
    obtain ⟨e', he', hOld'⟩ := Option.map_eq_some_iff.mp ((hIds k).symm.trans (congrArg _ he))
    exact h.distinct j k d' e' hd' he' (hOld.trans (hId.trans hOld'.symm))
  · intro name j
    simp only [Option.map_eq_some_iff, Slots.getElem?_set hCall, Prod.mk.injEq]
    by_cases hName : name = c.id
    · subst hName
      rw [AList.lookup_erase]
      refine iff_of_false nofun ?_
      rintro ⟨d, ⟨rfl, rfl⟩ | ⟨hj, hd⟩, hId, hOver⟩
      · cases hOver
      · exact hj (h.distinct j i d c hd hCall hId)
    · rw [AList.lookup_erase_ne hName, h.lookup]
      constructor
      · rintro ⟨d, hd, hId, hOver⟩
        refine ⟨d, .inr ⟨fun hj => hName ?_, hd⟩, hId, hOver⟩
        cases hCall.symm.trans (hj ▸ hd)
        exact hId.symm
      · rintro ⟨d, ⟨rfl, rfl⟩ | ⟨-, hd⟩, hId, hOver⟩
        · cases hOver
        · exact ⟨d, hd, hId, hOver⟩

/-- Nothing else changes the ids, or ends a call. -/
theorem Registry.of_same (h : w.Registry) (hPending : v.pending = w.pending)
    (hCalls : v.calls.map (fun c => (c.id, c.stage.isOver)) = w.calls.map fun c => (c.id, c.stage.isOver))
    (hRegistered : ∀ i id, .registered i id ∈ v.log ↔ .registered i id ∈ w.log)
    (hDeleted : ∀ i, .deleted i ∈ v.log ↔ .deleted i ∈ w.log) : v.Registry := by
  have hSame : ∀ i : Nat, v.calls[i]?.map (fun c => (c.id, c.stage.isOver)) =
      w.calls[i]?.map fun c => (c.id, c.stage.isOver) := by
    intro i
    simpa only [List.getElem?_map] using congrArg (fun l => l[i]?) hCalls
  have hId : ∀ i : Nat, v.calls[i]?.map DesktopCall.id = w.calls[i]?.map DesktopCall.id := by
    intro i
    have hFst := congrArg (Option.map Prod.fst) (hSame i)
    rw [Option.map_map, Option.map_map] at hFst
    exact hFst
  have hOver : ∀ i : Nat, v.calls[i]?.map (fun c => c.stage.isOver) =
      w.calls[i]?.map fun c => c.stage.isOver := by
    intro i
    have hSnd := congrArg (Option.map Prod.snd) (hSame i)
    rw [Option.map_map, Option.map_map] at hSnd
    exact hSnd
  constructor
  · intro i id
    rw [hRegistered, h.registered, hId]
  · intro i
    rw [hDeleted, h.deleted, hOver]
  · intro i j c d hc hd hName
    obtain ⟨c', hc', hOld⟩ := Option.map_eq_some_iff.mp ((hId i).symm.trans (congrArg _ hc))
    obtain ⟨d', hd', hOld'⟩ := Option.map_eq_some_iff.mp ((hId j).symm.trans (congrArg _ hd))
    exact h.distinct i j c' d' hc' hd' (hOld.trans (hName.trans hOld'.symm))
  · intro id i
    rw [hPending, h.pending, hSame]

/-- After every step the map has exactly the calls that are not over. -/
theorem Registry.step (h : w.Registry) {l : DesktopLabel R} (hStep : w.step l = some v) :
    v.Registry := by
  cases l with
  | request id r =>
      simp only [DesktopBridge.step] at hStep
      split_ifs at hStep with hMade hKnown
      · exact Option.some.inj hStep ▸ h
      · obtain rfl := Option.some.inj hStep
        refine h.register fun c hc hId => hKnown ?_
        exact List.any_eq_true.mpr ⟨c, hc, decide_eq_true hId⟩
  | enqueue i =>
      obtain ⟨c, hCall, hStage, rfl⟩ := enqueue_cases hStep
      exact h.of_same rfl (Slots.map_set hCall (by simp [hStage, CallStage.isOver])) (by simp) (by simp)
  | receive i =>
      obtain ⟨c, k, reply, hCall, hStage, -, -, rfl⟩ := receive_cases hStep
      exact h.of_same rfl (Slots.map_set hCall (by simp [hStage, CallStage.isOver])) (by simp) (by simp)
  | timeout i =>
      obtain ⟨c, out, hCall, hStage, -, rfl⟩ := timeout_cases hStep
      have hOver : c.stage.isOver = false := by
        cases hc : c.stage <;> simp_all [CallStage.isOver, CallStage.out]
      exact h.of_same rfl (Slots.map_set hCall (by rw [hOver]; rfl)) (by simp) (by simp)
  | finish i => exact h.finish hStep
  | next =>
      obtain rfl := Option.some.inj hStep
      exact h.of_same rfl rfl (by simp) (by simp)
  | take j =>
      obtain ⟨job, rest, -, -, rfl⟩ := take_cases hStep
      exact h.of_same rfl rfl (by simp) (by simp)
  | look j =>
      obtain ⟨job, -, ⟨i, -, rfl⟩ | ⟨-, rfl⟩⟩ := look_cases hStep
      · exact h.of_same rfl rfl (by simp) (by simp)
      · exact h.of_same rfl rfl (by simp) (by simp)
  | pollTimeout j =>
      obtain ⟨-, rfl⟩ := pollTimeout_cases hStep
      exact h.of_same rfl rfl (by simp) (by simp)
  | reply body =>
      cases body with
      | error e =>
          obtain rfl := Option.some.inj hStep
          exact h
      | ok result =>
          obtain rfl := Option.some.inj hStep
          exact h.of_same rfl rfl (by simp) (by simp)
  | find k =>
      obtain ⟨result, -, ⟨i, -, rfl⟩ | ⟨-, rfl⟩⟩ := find_cases hStep
      · exact h.of_same rfl rfl (by simp) (by simp)
      · exact h.of_same rfl rfl (by simp) (by simp)
  | deliver k =>
      obtain ⟨result, ⟨-, rfl⟩ | ⟨i, -, rfl⟩⟩ := deliver_cases hStep
      · exact h.of_same rfl rfl (by simp) (by simp)
      · exact h.of_same rfl (Slots.map_modify fun _ _ => rfl) (by simp) (by simp)

/-! ### The channels -/

/-- What is in the channels, and what has come out of them. -/
structure Channels (w : DesktopBridge R) : Prop where
  channel : ∀ (i : Nat) (c : DesktopCall R), w.calls[i]? = some c → c.stage.out = none →
    c.channel = w.log.findSome? (reachedBy i)
  found : ∀ (k : Nat) (r : DesktopReply) (i : Nat), w.replies[k]? = some r →
    r.stage = .found (some i) → .found k r.result.id i ∈ w.log
  matched : ∀ k id i, .found k id i ∈ w.log →
    w.replies[k]?.map (fun r => r.result.id) = some id ∧ w.calls[i]?.map DesktopCall.id = some id
  reached : ∀ k i, .reached k i ∈ w.log → ∃ id, .found k id i ∈ w.log
  received : ∀ i k, .received i k ∈ w.log →
    w.calls[i]?.map (fun c => c.stage.out.isSome) = some true
  outcome : ∀ (i : Nat) (c : DesktopCall R) (out : Except String String), w.calls[i]? = some c →
    c.stage.out = some out → TimeoutText out ∨ ∃ k r, .received i k ∈ w.log ∧
      w.replies[k]? = some r ∧ r.result.id = c.id ∧ out = r.result.outcome

theorem mem_of_findSome {log : List DesktopEvent} {i k : Nat}
    (h : log.findSome? (reachedBy i) = some k) : .reached k i ∈ log := by
  obtain ⟨e, he, hReached⟩ := List.exists_of_findSome?_eq_some h
  cases e with
  | reached reply call =>
      simp only [reachedBy, Option.ite_none_right_eq_some, Option.some.injEq] at hReached
      obtain ⟨rfl, rfl⟩ := hReached
      exact he
  | registered | found | received | handed | deleted => cases hReached

/-- Nothing reaches the channel of a call that is not made yet. -/
theorem Channels.unmade (h : w.Channels) {e : Option DesktopEvent} (hMoves : Moves w v e) {i : Nat}
    (hNone : w.calls[i]? = none) : v.log.findSome? (reachedBy i) = none := by
  refine Option.eq_none_iff_forall_ne_some.mpr fun k hk => ?_
  have hFound : ∃ id, .found k id i ∈ w.log := by
    rcases hMoves.mem_log.mp (mem_of_findSome hk) with hOld | hEvent
    · exact h.reached k i hOld
    · obtain ⟨r, hr, hStage⟩ := hMoves.backed _ hEvent
      exact ⟨r.result.id, h.found k r i hr hStage⟩
  obtain ⟨id, hFound⟩ := hFound
  have hCall := (h.matched k id i hFound).2
  rw [hNone] at hCall
  cases hCall

/-- A reply in the channel of a call has found it there under the id of the call. -/
theorem Channels.sameId (h : w.Channels) {i k : Nat} {c : DesktopCall R} {r : DesktopReply}
    (hc : w.calls[i]? = some c) (hBefore : c.stage.out = none) (hContent : c.channel = some k)
    (hr : w.replies[k]? = some r) : r.result.id = c.id := by
  have hReached : .reached k i ∈ w.log :=
    mem_of_findSome ((h.channel i c hc hBefore).symm.trans hContent)
  obtain ⟨id, hFound⟩ := h.reached k i hReached
  obtain ⟨hResult, hOwner⟩ := h.matched k id i hFound
  rw [hr] at hResult
  rw [hc] at hOwner
  exact (Option.some.inj hResult).trans (Option.some.inj hOwner).symm

/-- Every move leaves in a channel only a result that was found for its call. -/
theorem Channels.moves (h : w.Channels) (hRegistry : w.Registry) {e : Option DesktopEvent}
    (hMoves : Moves w v e) : v.Channels := by
  constructor
  · intro i c' hc' hOut
    rcases hMoves.calls.before i c' hc' with ⟨c, hc, hMove⟩ | ⟨hNone, hNew⟩
    · have hBefore : c.stage.out = none := by
        by_contra hSettled
        obtain ⟨out, hOld⟩ := Option.ne_none_iff_exists'.mp hSettled
        cases (hMove.out out hOld).symm.trans hOut
      rw [hMove.channel hOut, h.channel i c hc hBefore, hMoves.log, List.findSome?_append]
      cases e <;> simp
    · rw [hNew.channel, h.unmade hMoves hNone]
  · intro k r' i hr' hStage
    rcases hMoves.replies.before k r' hr' with ⟨r, hr, hMove⟩ | ⟨-, hNew⟩
    · rw [hMove.result, hMoves.mem_log]
      exact (hMove.found i hStage).imp_left (h.found k r i hr)
    · cases hNew.symm.trans hStage
  · intro k id i hFound
    have hOld : w.replies[k]?.map (fun r => r.result.id) = some id ∧
        w.calls[i]?.map DesktopCall.id = some id := by
      rcases hMoves.mem_log.mp hFound with hEarlier | hEvent
      · exact h.matched k id i hEarlier
      · obtain ⟨hPending, r, hr, hId⟩ := hMoves.backed _ hEvent
        obtain ⟨c, hc, hName, -⟩ := hRegistry.lookup.mp hPending
        exact ⟨by rw [hr, Option.map_some, hId], by rw [hc, Option.map_some, hName]⟩
    obtain ⟨r, hr, hResult⟩ := Option.map_eq_some_iff.mp hOld.1
    obtain ⟨c, hc, hId⟩ := Option.map_eq_some_iff.mp hOld.2
    obtain ⟨r', hr', hMove⟩ := hMoves.replies.later hr
    obtain ⟨c', hc', hMove'⟩ := hMoves.calls.later hc
    exact ⟨by rw [hr', Option.map_some, hMove.result, hResult],
      by rw [hc', Option.map_some, hMove'.id, hId]⟩
  · intro k i hReached
    rcases hMoves.mem_log.mp hReached with hOld | hEvent
    · obtain ⟨id, hFound⟩ := h.reached k i hOld
      exact ⟨id, hMoves.mem_log.mpr (.inl hFound)⟩
    · obtain ⟨r, hr, hStage⟩ := hMoves.backed _ hEvent
      exact ⟨r.result.id, hMoves.mem_log.mpr (.inl (h.found k r i hr hStage))⟩
  · intro i k hReceived
    rcases hMoves.mem_log.mp hReceived with hOld | hEvent
    · obtain ⟨c, hc, hSettled⟩ := Option.map_eq_some_iff.mp (h.received i k hOld)
      obtain ⟨out, hOut⟩ := Option.isSome_iff_exists.mp hSettled
      obtain ⟨c', hc', hMove⟩ := hMoves.calls.later hc
      rw [hc', Option.map_some, hMove.out out hOut]
      rfl
    · obtain ⟨c, hc, -⟩ := hMoves.backed _ hEvent
      obtain ⟨c', hc', hMove⟩ := hMoves.calls.later hc
      rw [hc', Option.map_some, Option.isSome_iff_ne_none.mpr (hMove.received k hEvent)]
  · intro i c' out hc' hOut
    have hReceives : ∀ (c : DesktopCall R) k r, CallMoves w e i c c' → .received i k ∈ v.log →
        w.replies[k]? = some r → r.result.id = c.id → out = r.result.outcome →
        ∃ k r, .received i k ∈ v.log ∧ v.replies[k]? = some r ∧ r.result.id = c'.id ∧
          out = r.result.outcome := by
      intro c k r hMove hReceived hr hId hOutcome
      obtain ⟨r', hr', hSame⟩ := hMoves.replies.later hr
      exact ⟨k, r', hReceived, hr', by rw [hSame.result, hMove.id, hId], by rw [hSame.result, hOutcome]⟩
    rcases hMoves.calls.before i c' hc' with ⟨c, hc, hMove⟩ | ⟨-, hNew⟩
    · rcases hMove.settled out hOut with hOld | hText | ⟨k, r, hEvent, hBefore, hContent, hr, hOutcome⟩
      · refine (h.outcome i c out hc hOld).imp_right ?_
        rintro ⟨k, r, hReceived, hr, hId, hOutcome⟩
        exact hReceives c k r hMove (hMoves.mem_log.mpr (.inl hReceived)) hr hId hOutcome
      · exact .inl hText
      · exact .inr (hReceives c k r hMove (hMoves.mem_log.mpr (.inr hEvent)) hr
          (h.sameId hc hBefore hContent hr) hOutcome)
    · cases hNew.out.symm.trans hOut

/-! ### The jobs -/

/-- The job is that of a call which has put it into the queue. -/
def OfCall (w : DesktopBridge R) (job : DesktopJob R) : Prop :=
  ∃ i : Nat, w.calls[i]?.map (fun c => (c.id, c.request, c.stage.sent)) =
    some (job.id, job.request, true)

/-- A job is in the queue, with one poll, or handed out. -/
structure Jobs (w : DesktopBridge R) : Prop where
  apart : (w.queue.map DesktopJob.id).Nodup
  queued : ∀ job ∈ w.queue, w.OfCall job
  held : ∀ (j : Nat) (job : DesktopJob R), w.polls[j]? = some (.holding job) →
    w.OfCall job ∧ job.id ∉ w.queue.map DesktopJob.id
  single : ∀ (j k : Nat) (job other : DesktopJob R), w.polls[j]? = some (.holding job) →
    w.polls[k]? = some (.holding other) → job.id = other.id → j = k
  handed : ∀ j i, .handed j i ∈ w.log → ∃ id,
    w.calls[i]?.map (fun c => (c.id, c.stage.sent)) = some (id, true) ∧
    id ∉ w.queue.map DesktopJob.id ∧
    ∀ (k : Nat) (job : DesktopJob R), w.polls[k]? = some (.holding job) → job.id ≠ id
  answered : ∀ (j : Nat) (job : DesktopJob R), w.polls[j]? = some (.answered (some job)) →
    ∃ i, .handed j i ∈ w.log ∧
      w.calls[i]?.map (fun c => (c.id, c.request)) = some (job.id, job.request)

/-- A job stays the job of its call. -/
theorem Moves.ofCall {e : Option DesktopEvent} (h : Moves w v e) {job : DesktopJob R}
    (hJob : w.OfCall job) : v.OfCall job := by
  obtain ⟨i, hi⟩ := hJob
  obtain ⟨c, hc, hView⟩ := Option.map_eq_some_iff.mp hi
  simp only [Prod.mk.injEq] at hView
  obtain ⟨hId, hRequest, hSent⟩ := hView
  obtain ⟨c', hc', hMove⟩ := h.calls.later hc
  exact ⟨i, by rw [hc', Option.map_some, hMove.id, hMove.request, hMove.sent hSent, hId, hRequest]⟩

/-- What was sent stays sent. -/
theorem Moves.sent {e : Option DesktopEvent} (h : Moves w v e) {i : Nat} {id : String}
    (hCall : w.calls[i]?.map (fun c => (c.id, c.stage.sent)) = some (id, true)) :
    v.calls[i]?.map (fun c => (c.id, c.stage.sent)) = some (id, true) := by
  obtain ⟨c, hc, hView⟩ := Option.map_eq_some_iff.mp hCall
  obtain ⟨hId, hSent⟩ := Prod.mk.inj hView
  obtain ⟨c', hc', hMove⟩ := h.calls.later hc
  rw [hc', Option.map_some, hMove.id, hMove.sent hSent, hId]

/-- A call keeps its id and its request. -/
theorem Moves.request {e : Option DesktopEvent} (h : Moves w v e) {i : Nat} {x : String × R}
    (hCall : w.calls[i]?.map (fun c => (c.id, c.request)) = some x) :
    v.calls[i]?.map (fun c => (c.id, c.request)) = some x := by
  obtain ⟨c, hc, hView⟩ := Option.map_eq_some_iff.mp hCall
  obtain ⟨c', hc', hMove⟩ := h.calls.later hc
  rw [hc', Option.map_some, hMove.id, hMove.request, hView]

/-- New calls, and calls that go on, leave the jobs where they are. -/
theorem Jobs.of_calls (h : w.Jobs) {e : Option DesktopEvent} (hMoves : Moves w v e)
    (hNone : ∀ j i, e ≠ some (.handed j i)) (hQueue : v.queue = w.queue) (hPolls : v.polls = w.polls) :
    v.Jobs := by
  have hLog : ∀ j i, .handed j i ∈ v.log ↔ .handed j i ∈ w.log := by
    intro j i
    rw [hMoves.mem_log]
    exact or_iff_left (hNone j i)
  refine ⟨by rw [hQueue]; exact h.apart, fun job hJob => ?_, fun j job hj => ?_, ?_, fun j i hj => ?_,
    fun j job hj => ?_⟩
  · exact hMoves.ofCall (h.queued job (hQueue ▸ hJob))
  · rw [hPolls] at hj
    rw [hQueue]
    exact ⟨hMoves.ofCall (h.held j job hj).1, (h.held j job hj).2⟩
  · rw [hPolls]
    exact h.single
  · obtain ⟨id, hCall, hRest⟩ := h.handed j i ((hLog j i).mp hj)
    rw [hQueue, hPolls]
    exact ⟨id, hMoves.sent hCall, hRest⟩
  · rw [hPolls] at hj
    obtain ⟨i, hHanded, hCall⟩ := h.answered j job hj
    exact ⟨i, (hLog j i).mpr hHanded, hMoves.request hCall⟩

/-- The job in the queue is the call's own. -/
theorem Jobs.enqueue (h : w.Jobs) (hRegistry : w.Registry) {i : Nat} (hStep : w.enqueue i = some v) :
    v.Jobs := by
  have hMoves := enqueue_moves hStep
  obtain ⟨c, hCall, hStage, rfl⟩ := enqueue_cases hStep
  have hOther : ∀ (k : Nat) (d : DesktopCall R), w.calls[k]? = some d → d.stage.sent = true →
      d.id ≠ c.id := by
    intro k d hd hSent hId
    obtain rfl := hRegistry.distinct k i d c hd hCall hId
    cases hd.symm.trans hCall
    rw [hStage] at hSent
    cases hSent
  -- no job is around under the id of a call that has not sent its own
  have hNew : ∀ job, w.OfCall job → job.id ≠ c.id := by
    rintro job ⟨k, hk⟩
    obtain ⟨d, hd, hView⟩ := Option.map_eq_some_iff.mp hk
    simp only [Prod.mk.injEq] at hView
    obtain ⟨hId, -, hSent⟩ := hView
    exact hId ▸ hOther k d hd hSent
  have hQueue : ∀ id, id ∈ (w.queue ++ [(⟨c.id, c.request⟩ : DesktopJob R)]).map DesktopJob.id ↔
      id ∈ w.queue.map DesktopJob.id ∨ id = c.id := by
    intro id
    rw [List.map_append, List.mem_append, List.map_singleton, List.mem_singleton]
  constructor
  · rw [List.map_append]
    refine List.nodup_append.mpr ⟨h.apart, List.nodup_singleton _, fun id hId last hLast => ?_⟩
    obtain rfl := List.mem_singleton.mp hLast
    obtain ⟨job, hJob, rfl⟩ := List.mem_map.mp hId
    exact hNew job (h.queued job hJob)
  · intro job hJob
    rcases List.mem_append.mp hJob with hOld | hLast
    · exact hMoves.ofCall (h.queued job hOld)
    · obtain rfl := List.mem_singleton.mp hLast
      exact ⟨i, Option.map_eq_some_iff.mpr ⟨_, (Slots.getElem?_set hCall).mpr (.inl ⟨rfl, rfl⟩), rfl⟩⟩
  · intro j job hj
    obtain ⟨hOf, hOut⟩ := h.held j job hj
    exact ⟨hMoves.ofCall hOf, fun hIn => ((hQueue _).mp hIn).elim hOut (hNew job hOf)⟩
  · exact h.single
  · intro j k hj
    obtain ⟨id, hView, hOut, hPolls⟩ := h.handed j k hj
    refine ⟨id, hMoves.sent hView, fun hIn => ((hQueue _).mp hIn).elim hOut ?_, hPolls⟩
    obtain ⟨d, hd, hSame⟩ := Option.map_eq_some_iff.mp hView
    obtain ⟨hId, hSent⟩ := Prod.mk.inj hSame
    exact hId ▸ hOther k d hd hSent
  · intro j job hj
    obtain ⟨k, hHanded, hView⟩ := h.answered j job hj
    exact ⟨k, hHanded, hMoves.request hView⟩

/-- A poll takes the first job out of the queue, so that no other poll can. -/
theorem Jobs.take (h : w.Jobs) {j : Nat} (hStep : w.take j = some v) : v.Jobs := by
  obtain ⟨job, rest, hPoll, hQueue, rfl⟩ := take_cases hStep
  obtain ⟨hFirst, hApart⟩ : job.id ∉ rest.map DesktopJob.id ∧ (rest.map DesktopJob.id).Nodup :=
    List.nodup_cons.mp (by rw [← List.map_cons, ← hQueue]; exact h.apart)
  have hMem : ∀ id, id = job.id ∨ id ∈ rest.map DesktopJob.id → id ∈ w.queue.map DesktopJob.id := by
    intro id hId
    rw [hQueue, List.map_cons, List.mem_cons]
    exact hId
  have hHolds : ∀ (k : Nat) (other : DesktopJob R),
      (w.polls.set j (.holding job))[k]? = some (.holding other) →
        k = j ∧ other = job ∨ w.polls[k]? = some (.holding other) := by
    intro k other hk
    rcases (Slots.getElem?_set hPoll).mp hk with ⟨hj, hSame⟩ | ⟨-, hOld⟩
    · exact .inl ⟨hj, PollStage.holding.inj hSame⟩
    · exact .inr hOld
  constructor
  · exact hApart
  · exact fun other hOther => h.queued other (hQueue ▸ List.mem_cons_of_mem _ hOther)
  · intro k other hk
    rcases hHolds k other hk with ⟨-, rfl⟩ | hOld
    · exact ⟨h.queued other (hQueue ▸ List.mem_cons_self), hFirst⟩
    · obtain ⟨hOf, hOut⟩ := h.held k other hOld
      exact ⟨hOf, fun hIn => hOut (hMem _ (.inr hIn))⟩
  · intro k l first second hk hl hId
    rcases hHolds k first hk with ⟨rfl, rfl⟩ | hOld
    · rcases hHolds l second hl with ⟨rfl, -⟩ | hOld'
      · rfl
      · exact absurd (hMem _ (.inl hId.symm)) (h.held l second hOld').2
    · rcases hHolds l second hl with ⟨rfl, rfl⟩ | hOld'
      · exact absurd (hMem _ (.inl hId)) (h.held k first hOld).2
      · exact h.single k l first second hOld hOld' hId
  · intro k i hk
    obtain ⟨id, hView, hOut, hPolls⟩ := h.handed k i hk
    refine ⟨id, hView, fun hIn => hOut (hMem _ (.inr hIn)), fun l other hl hId => ?_⟩
    rcases hHolds l other hl with ⟨-, rfl⟩ | hOld
    · exact hOut (hMem _ (.inl hId.symm))
    · exact hPolls l other hOld hId
  · intro k other hk
    rcases (Slots.getElem?_set hPoll).mp hk with ⟨-, hSame⟩ | ⟨-, hOld⟩
    · cases hSame
    · exact h.answered k other hOld

/-- A poll that comes, or goes with nothing. -/
theorem Jobs.of_idle (h : w.Jobs) {polls : List (PollStage R)}
    (hHolding : ∀ (j : Nat) (job : DesktopJob R), polls[j]? = some (.holding job) →
      w.polls[j]? = some (.holding job))
    (hAnswered : ∀ (j : Nat) (job : DesktopJob R), polls[j]? = some (.answered (some job)) →
      w.polls[j]? = some (.answered (some job))) : Jobs { w with polls := polls } where
  apart := h.apart
  queued := h.queued
  held j job hj := h.held j job (hHolding j job hj)
  single j k job other hj hk := h.single j k job other (hHolding j job hj) (hHolding k other hk)
  handed j i hj := by
    obtain ⟨id, hView, hNot, hPolls⟩ := h.handed j i hj
    exact ⟨id, hView, hNot, fun k job hk => hPolls k job (hHolding k job hk)⟩
  answered j job hj := h.answered j job (hAnswered j job hj)

/-- A poll that then has no job. -/
theorem Jobs.of_set (h : w.Jobs) {j : Nat} {old new : PollStage R} (hPoll : w.polls[j]? = some old)
    (hHolding : ∀ job, new ≠ .holding job) (hAnswered : ∀ job, new ≠ .answered (some job)) :
    Jobs { w with polls := w.polls.set j new } := by
  refine h.of_idle (fun k job hk => ?_) fun k job hk => ?_
  · rcases (Slots.getElem?_set hPoll).mp hk with ⟨-, hSame⟩ | ⟨-, hOld⟩
    · exact absurd hSame.symm (hHolding job)
    · exact hOld
  · rcases (Slots.getElem?_set hPoll).mp hk with ⟨-, hSame⟩ | ⟨-, hOld⟩
    · exact absurd hSame.symm (hAnswered job)
    · exact hOld

/-- A job that is handed over is the one of a pending call. -/
theorem Jobs.look (h : w.Jobs) (hRegistry : w.Registry) {j : Nat} (hStep : w.look j = some v) :
    v.Jobs := by
  obtain ⟨job, hPoll, ⟨i, hPending, rfl⟩ | ⟨-, rfl⟩⟩ := look_cases hStep
  · obtain ⟨hOf, hOut⟩ := h.held j job hPoll
    obtain ⟨c, hc, hId, hRequest, hSent⟩ : ∃ c, w.calls[i]? = some c ∧ c.id = job.id ∧
        c.request = job.request ∧ c.stage.sent = true := by
      obtain ⟨n, hn⟩ := hOf
      obtain ⟨d, hd, hView⟩ := Option.map_eq_some_iff.mp hn
      simp only [Prod.mk.injEq] at hView
      obtain ⟨c, hc, hId, -⟩ := hRegistry.lookup.mp hPending
      obtain rfl := hRegistry.distinct n i d c hd hc (hView.1.trans hId.symm)
      exact ⟨d, hd, hView⟩
    have hStill : ∀ (k : Nat) (other : DesktopJob R),
        (w.polls.set j (.answered (some job)))[k]? = some (.holding other) →
          k ≠ j ∧ w.polls[k]? = some (.holding other) := by
      intro k other hk
      rcases (Slots.getElem?_set hPoll).mp hk with ⟨-, hSame⟩ | hOld
      · cases hSame
      · exact hOld
    constructor
    · exact h.apart
    · exact h.queued
    · exact fun k other hk => h.held k other (hStill k other hk).2
    · intro k l first second hk hl
      exact h.single k l first second (hStill k first hk).2 (hStill l second hl).2
    · intro k n hk
      rcases List.mem_append.mp hk with hOld | hLast
      · obtain ⟨id, hView, hNot, hPolls⟩ := h.handed k n hOld
        exact ⟨id, hView, hNot, fun l other hl => hPolls l other (hStill l other hl).2⟩
      · cases List.mem_singleton.mp hLast
        refine ⟨job.id, by rw [hc, Option.map_some, hId, hSent], hOut, fun l other hl hSame => ?_⟩
        obtain ⟨hl', hOld⟩ := hStill l other hl
        exact hl' (h.single l j other job hOld hPoll hSame)
    · intro k other hk
      rcases (Slots.getElem?_set hPoll).mp hk with ⟨rfl, hSame⟩ | ⟨-, hOld⟩
      · cases hSame
        exact ⟨i, List.mem_append_right _ (.head _), by rw [hc, Option.map_some, hId, hRequest]⟩
      · obtain ⟨n, hLog, hView⟩ := h.answered k other hOld
        exact ⟨n, List.mem_append_left _ hLog, hView⟩
  · exact h.of_set hPoll nofun nofun

/-- Every job stays in one place: the queue, one poll, or handed out. -/
theorem Jobs.step (h : w.Jobs) (hRegistry : w.Registry) {l : DesktopLabel R}
    (hStep : w.step l = some v) : v.Jobs := by
  cases l with
  | request id r =>
      simp only [DesktopBridge.step] at hStep
      split_ifs at hStep with hMade hKnown
      · exact Option.some.inj hStep ▸ h
      · obtain rfl := Option.some.inj hStep
        refine h.of_calls (register_moves fun c hc hId => hKnown ?_) (fun j i he => by cases he) rfl rfl
        exact List.any_eq_true.mpr ⟨c, hc, decide_eq_true hId⟩
  | enqueue i => exact h.enqueue hRegistry hStep
  | receive i =>
      obtain ⟨k, hMoves⟩ := receive_moves hStep
      obtain ⟨c, k', reply, -, -, -, -, rfl⟩ := receive_cases hStep
      exact h.of_calls hMoves (fun j i he => by cases he) rfl rfl
  | timeout i =>
      have hMoves := timeout_moves hStep
      obtain ⟨c, out, -, -, -, rfl⟩ := timeout_cases hStep
      exact h.of_calls hMoves (fun j i he => by cases he) rfl rfl
  | finish i =>
      have hMoves := finish_moves hStep
      obtain ⟨c, out, -, -, rfl⟩ := finish_cases hStep
      exact h.of_calls hMoves (fun j i he => by cases he) rfl rfl
  | next =>
      obtain rfl := Option.some.inj hStep
      refine h.of_idle (fun j job hj => ?_) fun j job hj => ?_
      · exact (Slots.getElem?_concat.mp hj).resolve_right fun hNew => by cases hNew.2
      · exact (Slots.getElem?_concat.mp hj).resolve_right fun hNew => by cases hNew.2
  | take j => exact h.take hStep
  | look j => exact h.look hRegistry hStep
  | pollTimeout j =>
      obtain ⟨hPoll, rfl⟩ := pollTimeout_cases hStep
      exact h.of_set hPoll nofun nofun
  | reply body =>
      cases body with
      | error e =>
          obtain rfl := Option.some.inj hStep
          exact h
      | ok result =>
          obtain rfl := Option.some.inj hStep
          exact h.of_calls (arrived_moves w result) (fun j i he => by cases he) rfl rfl
  | find k =>
      obtain ⟨e, hMoves, hNone⟩ := find_moves hStep
      obtain ⟨result, -, ⟨i, -, rfl⟩ | ⟨-, rfl⟩⟩ := find_cases hStep
      · exact h.of_calls hMoves hNone rfl rfl
      · exact h.of_calls hMoves hNone rfl rfl
  | deliver k =>
      obtain ⟨e, hMoves, hNone⟩ := deliver_moves hStep
      obtain ⟨result, ⟨-, rfl⟩ | ⟨i, -, rfl⟩⟩ := deliver_cases hStep
      · exact h.of_calls hMoves hNone rfl rfl
      · exact h.of_calls hMoves hNone rfl rfl

/-! ### Runs -/

/-- The event of a step is lawful after those before it. -/
theorem Law.moves (hRegistry : w.Registry) (hChannels : w.Channels) (hJobs : w.Jobs)
    {e : Option DesktopEvent} (hMoves : Moves w v e) (hLog : Lawful Law w.log) : Lawful Law v.log := by
  have hProgress : ∀ (i : Nat) (c : DesktopCall R), w.calls[i]? = some c → c.stage.isOver = false →
      InProgress w.log i := by
    intro i c hc hOver
    refine ⟨⟨c.id, (hRegistry.registered i c.id).mpr (by rw [hc]; rfl)⟩, fun hDeleted => ?_⟩
    have hReturned := (hRegistry.deleted i).mp hDeleted
    rw [hc, Option.map_some, hOver] at hReturned
    cases hReturned
  have hPending : ∀ id i, w.pending.lookup id = some i →
      .registered i id ∈ w.log ∧ InProgress w.log i := by
    intro id i hLookup
    obtain ⟨c, hc, hId, hOver⟩ := hRegistry.lookup.mp hLookup
    exact ⟨(hRegistry.registered i id).mpr (by rw [hc, Option.map_some, hId]), hProgress i c hc hOver⟩
  rw [hMoves.log]
  rcases e with _ | x
  · rw [Option.toList_none, List.append_nil]
    exact hLog
  refine hLog.snoc ?_
  have hBacked := hMoves.backed x rfl
  cases x with
  | registered call id =>
      obtain ⟨rfl, hFresh⟩ := hBacked
      intro i name hOld
      obtain ⟨c, hc, hName⟩ := Option.map_eq_some_iff.mp ((hRegistry.registered i name).mp hOld)
      refine ⟨fun hSame => ?_, fun hSame => hFresh c (List.mem_of_getElem? hc) (hName.trans hSame)⟩
      exact absurd (List.getElem?_eq_some_iff.mp hc).1 (Nat.not_lt.mpr (Nat.le_of_eq hSame.symm))
  | found reply id call => exact hPending id call hBacked.1
  | reached reply call =>
      obtain ⟨r, hr, hStage⟩ := hBacked
      exact ⟨r.result.id, hChannels.found reply r call hr hStage⟩
  | received call reply =>
      obtain ⟨c, hc, hStage, hContent⟩ := hBacked
      refine ⟨hProgress call c hc (by rw [hStage]; rfl), ?_, fun other hEarlier => ?_⟩
      · exact (hChannels.channel call c hc (by rw [hStage]; rfl)).symm.trans hContent
      · have hSettled := hChannels.received call other hEarlier
        rw [hc, Option.map_some, hStage] at hSettled
        cases hSettled
  | handed poll call =>
      obtain ⟨job, hPoll, hLookup⟩ := hBacked
      refine ⟨(hPending job.id call hLookup).2, fun k hEarlier => ?_⟩
      -- a job that was handed out is with no poll any more
      obtain ⟨id, hView, -, hPolls⟩ := hJobs.handed k call hEarlier
      obtain ⟨c, hc, hId, -⟩ := hRegistry.lookup.mp hLookup
      rw [hc, Option.map_some] at hView
      exact hPolls poll job hPoll (hId.symm.trans (Prod.mk.inj (Option.some.inj hView)).1)
  | deleted call =>
      obtain ⟨c, out, hc, hStage⟩ := hBacked
      exact hProgress call c hc (by rw [hStage]; rfl)

/-- The invariant of the bridge. -/
structure Sound (w : DesktopBridge R) : Prop where
  lawful : Lawful Law w.log
  registry : w.Registry
  channels : w.Channels
  jobs : w.Jobs

theorem Sound.step (h : w.Sound) {l : DesktopLabel R} (hStep : w.step l = some v) : v.Sound := by
  obtain ⟨e, hMoves⟩ := step_moves hStep
  exact ⟨Law.moves h.registry h.channels h.jobs hMoves h.lawful, h.registry.step hStep,
    h.channels.moves h.registry hMoves, h.jobs.step h.registry hStep⟩

theorem reachable_sound (h : Reachable (system R) w) : w.Sound := by
  refine h.invariant (I := Sound) ?_ fun _ _ _ hSound hStep => hSound.step hStep
  rintro w ⟨made, rfl⟩
  refine ⟨.nil, ⟨?_, ?_, ?_, ?_⟩, ⟨?_, ?_, ?_, ?_, ?_, ?_⟩, ⟨?_, ?_, ?_, ?_, ?_, ?_⟩⟩ <;> simp

/-- A reply of the desktop client has its own two steps, and each of them can be
taken at any time. -/
def NeverBlocks (w : DesktopBridge R) : Prop :=
  ∀ (k : Nat) (r : DesktopReply), w.replies[k]? = some r →
    (r.stage = .arrived → ∃ v call, w.step (.find k) = some v ∧
      v.replies[k]? = some ⟨r.result, .found call⟩) ∧
    ∀ call, r.stage = .found call → ∃ v, w.step (.deliver k) = some v ∧
      v.replies[k]? = some ⟨r.result, .done⟩

/-- A result that is posted is never kept waiting, in any state. -/
theorem neverBlocks (w : DesktopBridge R) : w.NeverBlocks := by
  rintro k ⟨result, stage⟩ hReply
  have hk : k < w.replies.length := (List.getElem?_eq_some_iff.mp hReply).1
  refine ⟨?_, ?_⟩
  · rintro rfl
    refine ⟨_, w.pending.lookup result.id, by simp only [step, find, hReply]; rfl, ?_⟩
    simp [hk]
  · rintro call rfl
    cases call with
    | none =>
        refine ⟨_, by simp only [step, deliver, hReply]; rfl, ?_⟩
        simp [hk]
    | some i =>
        refine ⟨_, by simp only [step, deliver, hReply]; rfl, ?_⟩
        simp [hk]

/-- What a call returns is the text of a timeout, or that of a reply with its own
id, the first to reach its channel. -/
def Returns (w : DesktopBridge R) : Prop :=
  ∀ (i : Nat) (c : DesktopCall R) (out : Except String String), w.calls[i]? = some c →
    c.stage.out = some out → TimeoutText out ∨ ∃ k r, .received i k ∈ w.log ∧
      w.replies[k]? = some r ∧ r.result.id = c.id ∧ out = r.result.outcome

/-- What a poll answers is no job, or the job of a call that was handed to it. -/
def Answers (w : DesktopBridge R) : Prop :=
  ∀ (j : Nat) (job : DesktopJob R), w.polls[j]? = some (.answered (some job)) →
    ∃ (i : Nat) (c : DesktopCall R), .handed j i ∈ w.log ∧ w.calls[i]? = some c ∧
      job = ⟨c.id, c.request⟩

/-- The events of every run are lawful; the map has exactly the ids of the calls
in progress, whose events are those of the calls themselves; and no reply waits. -/
theorem desktop_correlated (h : Reachable (system R) w) :
    Lawful Law w.log ∧ w.Returns ∧ w.Answers ∧ w.NeverBlocks ∧
    (∀ id, id ∈ w.pending ↔ ∃ i, .registered i id ∈ w.log ∧ InProgress w.log i) ∧
    ∀ (i : Nat) (c : DesktopCall R), w.calls[i]? = some c →
      (InProgress w.log i ↔ ∀ out, c.stage ≠ .returned out) := by
  obtain ⟨hLawful, hRegistry, hChannels, hJobs⟩ := reachable_sound h
  have hProgress : ∀ (i : Nat) (c : DesktopCall R), w.calls[i]? = some c →
      (InProgress w.log i ↔ c.stage.isOver = false) := by
    intro i c hc
    have hId : .registered i c.id ∈ w.log := (hRegistry.registered i c.id).mpr (by rw [hc]; rfl)
    have hOver : .deleted i ∈ w.log ↔ c.stage.isOver = true := by
      rw [hRegistry.deleted, hc, Option.map_some, Option.some.injEq]
    rw [InProgress, hOver, Bool.not_eq_true]
    exact and_iff_right ⟨c.id, hId⟩
  refine ⟨hLawful, hChannels.outcome, fun j job hj => ?_, neverBlocks w, fun id => ?_, fun i c hc => ?_⟩
  · obtain ⟨i, hHanded, hView⟩ := hJobs.answered j job hj
    obtain ⟨c, hc, hJob⟩ := Option.map_eq_some_iff.mp hView
    obtain ⟨hId, hRequest⟩ := Prod.mk.inj hJob
    exact ⟨i, c, hHanded, hc, by rw [hId, hRequest]⟩
  · rw [← AList.lookup_isSome, Option.isSome_iff_exists]
    refine exists_congr fun i => ?_
    rw [hRegistry.pending, hRegistry.registered]
    cases hc : w.calls[i]? with
    | none => simp
    | some c => simp [hProgress i c hc]
  · rw [hProgress i c hc]
    cases c.stage <;> simp [CallStage.isOver]

/-- One request from its start to its end, with its result. -/
def exchange : List (DesktopLabel Unit) :=
  [.request "a" (), .enqueue 0, .next, .take 0, .look 0, .reply (.ok ⟨"a", "42", ""⟩), .find 0,
    .deliver 0, .receive 0, .finish 0]

theorem exchange_correlated : ∃ w : DesktopBridge Unit, Lawful Law w.log ∧
    w.log = [.registered 0 "a", .handed 0 0, .found 0 "a" 0, .reached 0 0, .received 0 0, .deleted 0] := by
  have hRun : ((follow step (⟨true, [], ∅, [], [], [], []⟩ : DesktopBridge Unit) exchange).any
      fun w => decide (w.log = [.registered 0 "a", .handed 0 0, .found 0 "a" 0, .reached 0 0,
        .received 0 0, .deleted 0])) = true := by decide +kernel
  obtain ⟨w, hFollow, hLog⟩ := (Option.any_eq_true _ _).mp hRun
  have hReach : Reachable (system Unit) w :=
    ⟨_, exchange, ⟨true, rfl⟩, runs_of_follow (fun _ _ _ hStep => hStep) hFollow⟩
  exact ⟨w, (desktop_correlated hReach).1, of_decide_eq_true hLog⟩

end DesktopBridge
end NetConductor
