import NetConductor.Remote.Wire

/-! The session on the device: requests are accepted into a bounded queue, and
one loop handles them and sends each result. What a request does, and so what
is sent for it, is chosen from outside. -/
namespace NetConductor

/-- A request as it arrives: its length, and what `json.Unmarshal` makes of it. -/
structure Raw (R : Type) where
  size : Nat
  request : Option R

/-- `reply` is the result that the loop has still to send, `stopped` says that
the loop has returned. -/
structure Session (R M : Type) where
  relay : Bool
  queue : List (Raw R)
  handled : List R
  cancelled : Bool
  stopped : Bool
  reply : Option M
  sending : Sending M

namespace Session

variable {R M N : Type}

def new : Session R M := ⟨false, [], [], false, false, none, .empty⟩

/-- A `select` finds room in the queue, and `ctx.Done()` once the session is
cancelled; with both it takes either, with neither it cancels. -/
def accept (done : Bool) (raw : Raw R) (s : Session R M) : Session R M :=
  if 65536 < raw.size then { s with cancelled := true }
  else if s.cancelled = true ∧ (done = true ∨ 64 ≤ s.queue.length) then s
  else if s.queue.length < 64 then { s with queue := s.queue ++ [raw] }
  else { s with cancelled := true }

/-- A message of the data channel counts until the first relayed one. -/
def onMessage (done : Bool) (raw : Raw R) (s : Session R M) : Session R M :=
  if s.relay then s else s.accept done raw

def relayed (done : Bool) (raw : Raw R) (s : Session R M) : Session R M :=
  { s with relay := true }.accept done raw

/-- The loop waits in its `select`. -/
def idle (s : Session R M) : Bool :=
  !s.stopped && s.reply.isNone && !s.sending.holder.any fun h => h.1 = .loop

/-- The loop takes a request; `m` is what there is to send for it. -/
def take (m : M) (s : Session R M) : Option (Session R M) :=
  if s.idle then
    match s.queue with
    | [] => none
    | raw :: rest =>
        match raw.request with
        | none => some { s with queue := rest, cancelled := true, stopped := true }
        | some r => some { s with queue := rest, handled := s.handled ++ [r], reply := some m }
  else none

/-- The loop finds the session cancelled. -/
def quit (s : Session R M) : Option (Session R M) :=
  if s.idle ∧ s.cancelled then some { s with stopped := true } else none

/-- The loop's own call of `send` takes the mutex. -/
def sendReply (J : JSON M N) (id : Int64) (s : Session R M) : Option (Session R M) :=
  match s.reply with
  | none => none
  | some m => (s.sending.lock J .loop m id).map fun sending =>
      { s with sending := sending, reply := none }

/-- Another goroutine's call of `send`. -/
def send (J : JSON M N) (who : Sender) (m : M) (id : Int64) (s : Session R M) :
    Option (Session R M) :=
  if who = .loop then none
  else (s.sending.lock J who m id).map fun sending => { s with sending := sending }

def put (s : Session R M) : Option (Bytes × Session R M) :=
  s.sending.put.map fun fs => (fs.1, { s with sending := fs.2 })

def unlock (s : Session R M) : Option (Session R M) :=
  s.sending.unlock.map fun sending => { s with sending := sending }

/-! ### What a step can do -/

theorem accept_queued {done : Bool} {raw : Raw R} {s : Session R M} (hOpen : s.cancelled = false)
    (hSize : raw.size ≤ 65536) (hRoom : s.queue.length < 64) :
    s.accept done raw = { s with queue := s.queue ++ [raw] } := by
  rw [accept, if_neg (Nat.not_lt.mpr hSize), if_neg (by simp [hOpen]), if_pos hRoom]

/-- A request that is too large or too many cancels the session. -/
theorem accept_cancels {done : Bool} {raw : Raw R} {s : Session R M}
    (h : 65536 < raw.size ∨ 64 ≤ s.queue.length) : (s.accept done raw).cancelled = true := by
  unfold accept
  split_ifs with hSize hDone hRoom
  · rfl
  · exact hDone.1
  · omega
  · rfl

/-- The loop takes the first request of its queue, and ends if that cannot be read. -/
theorem take_some {m : M} {s s' : Session R M} (h : s.take m = some s') :
    s.idle = true ∧ ∃ raw rest, s.queue = raw :: rest ∧
      ((raw.request = none ∧ s' = { s with queue := rest, cancelled := true, stopped := true }) ∨
        ∃ r, raw.request = some r ∧
          s' = { s with queue := rest, handled := s.handled ++ [r], reply := some m }) := by
  unfold take at h
  split at h
  · next hIdle =>
      split at h
      · cases h
      · next raw rest hQueue =>
          refine ⟨hIdle, raw, rest, hQueue, ?_⟩
          cases hRequest : raw.request with
          | none =>
              rw [hRequest] at h
              exact .inl ⟨rfl, (Option.some.inj h).symm⟩
          | some r =>
              rw [hRequest] at h
              exact .inr ⟨r, rfl, (Option.some.inj h).symm⟩
  · cases h

/-- The loop sends the answer at hand. -/
theorem sendReply_some {J : JSON M N} {id : Int64} {s s' : Session R M}
    (h : s.sendReply J id = some s') :
    ∃ m sending, s.reply = some m ∧ s.sending.lock J .loop m id = some sending ∧
      s' = { s with sending := sending, reply := none } := by
  unfold sendReply at h
  split at h
  · cases h
  · next m hReply =>
      obtain ⟨sending, hLock, rfl⟩ := Option.map_eq_some_iff.mp h
      exact ⟨m, sending, hReply, hLock, rfl⟩

/-- The senders other than the loop send whenever the mutex is free. -/
theorem send_some {J : JSON M N} {who : Sender} {m : M} {id : Int64} {s s' : Session R M}
    (h : s.send J who m id = some s') :
    who ≠ .loop ∧ ∃ sending, s.sending.lock J who m id = some sending ∧
      s' = { s with sending := sending } := by
  unfold send at h
  split at h
  · cases h
  · next hOther =>
      obtain ⟨sending, hLock, rfl⟩ := Option.map_eq_some_iff.mp h
      exact ⟨hOther, sending, hLock, rfl⟩

end Session
end NetConductor
