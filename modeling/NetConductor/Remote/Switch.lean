import NetConductor.Remote.Session

/-! The change from the data channel to the relay: two in-order channels each
way, and two ends that change over at different times. -/
namespace NetConductor
open Transition

/-- `issued` are the requests in the order of their calls, `log` the frames in
the order in which they were sent. -/
structure Switch (R M N : Type) where
  relay : Bool
  issued : List R
  link : Link M N
  browserOpen : Bool
  sessionOpen : Bool
  dcUp : List R
  wsUp : List R
  dcDown : List Bytes
  wsDown : List Bytes
  log : List Bytes
  session : Session R M

/-- `done` is the choice of a `select` that finds the session cancelled. -/
inductive SwitchLabel (R M : Type) where
  | call (r : R)
  | useRelay
  | browserCloses
  | sessionCloses
  | upDirect (done : Bool)
  | upRelayed (done : Bool)
  | take (m : M)
  | quit
  | sendReply (id : Int64)
  | send (who : Sender) (m : M) (id : Int64)
  | put
  | unlock
  | downDirect
  | downRelayed

variable {R M N : Type}

namespace Switch

def new : Switch R M N := ⟨false, [], .new, true, true, [], [], [], [], [], .new⟩

/-- `Link.call`, once the link is ready: without the data channel it changes
over first. -/
def call (r : R) (w : Switch R M N) : Switch R M N :=
  if w.relay = false ∧ w.browserOpen = true then
    { w with issued := w.issued ++ [r], dcUp := w.dcUp ++ [r] }
  else { w with relay := true, issued := w.issued ++ [r], wsUp := w.wsUp ++ [r] }

/-- `Session.sendBytes` chooses the path of each frame. -/
def put (w : Switch R M N) : Option (Switch R M N) :=
  w.session.put.map fun fs =>
    if w.session.relay = false ∧ w.sessionOpen = true then
      { w with session := fs.2, log := w.log ++ [fs.1], dcDown := w.dcDown ++ [fs.1] }
    else { w with session := fs.2, log := w.log ++ [fs.1], wsDown := w.wsDown ++ [fs.1] }

variable [DecidableEq N]

def step (J : JSON M N) (depth : Nat) (size : R → Nat) (w : Switch R M N) :
    SwitchLabel R M → Option (Switch R M N)
  | .call r => some (w.call r)
  | .useRelay => some { w with relay := true }
  | .browserCloses => some { w with browserOpen := false }
  | .sessionCloses => some { w with sessionOpen := false }
  | .upDirect done =>
      match w.dcUp with
      | [] => none
      | r :: rest => some { w with dcUp := rest, session := w.session.onMessage done ⟨size r, some r⟩ }
  | .upRelayed done =>
      match w.wsUp with
      | [] => none
      | r :: rest => some { w with wsUp := rest, session := w.session.relayed done ⟨size r, some r⟩ }
  | .take m => (w.session.take m).map fun s => { w with session := s }
  | .quit => w.session.quit.map fun s => { w with session := s }
  | .sendReply id => (w.session.sendReply J id).map fun s => { w with session := s }
  | .send who m id => (w.session.send J who m id).map fun s => { w with session := s }
  | .put => w.put
  | .unlock => w.session.unlock.map fun s => { w with session := s }
  | .downDirect =>
      match w.dcDown with
      | [] => none
      | f :: rest => some { w with dcDown := rest, link := w.link.deliver J depth (.direct, f) }
  | .downRelayed =>
      match w.wsDown with
      | [] => none
      | f :: rest => some { w with wsDown := rest, link := w.link.deliver J depth (.relayed, f) }

/-- All runs of the two ends, or those whose steps meet a condition on the state
they find. -/
def systemWhere (J : JSON M N) (depth : Nat) (size : R → Nat)
    (allowed : Switch R M N → SwitchLabel R M → Prop) :
    System (Switch R M N) (SwitchLabel R M) where
  initial w := w = .new
  step w l w' := allowed w l ∧ w.step J depth size l = some w'

/-- The queue has room for the next request, which is not too long for it. -/
def Accepts (size : R → Nat) (w : Switch R M N) (r : R) : Prop :=
  size r ≤ 65536 ∧ w.session.queue.length < 64

/-- The session takes its first relayed request when none is on its way on the
data channel, and the browser takes a relayed frame when none is on its way
there; and nothing is too much for a limit of the code. -/
def Orderly (J : JSON M N) (size : R → Nat) (w : Switch R M N) : SwitchLabel R M → Prop
  | .upDirect _ => ∀ r ∈ w.dcUp.head?, w.Accepts size r
  | .upRelayed _ => (w.session.relay = false → w.dcUp = []) ∧ ∀ r ∈ w.wsUp.head?, w.Accepts size r
  | .downRelayed => w.dcDown = []
  | .sendReply _ => ∀ m ∈ w.session.reply, (J.marshal m).length ≤ Link.maxMessage
  | .send _ m _ => (J.marshal m).length ≤ Link.maxMessage
  | _ => True

/-- Nothing is lost, doubled or out of order: the requests handled, those in the
queue and those on their way are the requests issued, and the messages
dispatched are the first of those sent, all of them when none is on its way. -/
structure Faithful (w : Switch R M N) : Prop where
  requests : w.session.handled ++ w.session.queue.filterMap Raw.request ++ w.dcUp ++ w.wsUp = w.issued
  messages : w.link.dispatched <+: w.session.sending.sent
  complete : w.session.sending.holder = none → w.dcDown = [] → w.wsDown = [] →
    w.link.dispatched = w.session.sending.sent
  open_ : w.link.closed = false

structure Invariant (J : JSON M N) (depth : Nat) (w : Switch R M N) : Prop where
  running : w.session.cancelled = false
  wellFormed : ∀ raw ∈ w.session.queue, raw.request ≠ none
  requests : w.session.handled ++ w.session.queue.filterMap Raw.request ++ w.dcUp ++ w.wsUp = w.issued
  changed : w.wsUp ≠ [] → w.relay = true
  followed : w.session.relay = true → w.relay = true ∧ w.dcUp = []
  accounts : w.session.sending.Accounts J w.log
  sizes : ∀ t ∈ w.session.sending.taken, (J.marshal t.1).length ≤ Link.maxMessage
  received : ∃ delivered : List (Path × Bytes), delivered.map Prod.snd ++ (w.dcDown ++ w.wsDown) = w.log ∧
    w.link = delivered.foldl (Link.deliver J depth) Link.new
  direct : w.session.relay = false → w.sessionOpen = true → w.wsDown = []

variable {J : JSON M N} {depth : Nat} {size : R → Nat} {w w' : Switch R M N}

/-- A send that begins keeps everything but the sends. -/
theorem Invariant.locked (h : w.Invariant J depth) {who : Sender} {m : M} {id : Int64}
    {sending : Sending M} (hLock : w.session.sending.lock J who m id = some sending)
    (hSize : (J.marshal m).length ≤ Link.maxMessage) (reply : Option M) :
    Invariant J depth { w with session := { w.session with sending := sending, reply := reply } } := by
  refine { h with accounts := h.accounts.lock hLock, sizes := fun t ht => ?_ }
  obtain ⟨-, rfl⟩ := Sending.lock_some hLock
  rcases List.mem_append.mp ht with ht | ht
  · exact h.sizes t ht
  · rw [List.mem_singleton.mp ht]
    exact hSize

/-- A call goes on one of the two paths, behind all others on it. -/
theorem Invariant.call (h : w.Invariant J depth) (r : R) : (w.call r).Invariant J depth := by
  unfold Switch.call
  split
  · next hDirect =>
      -- before the change nothing is on its way by the relay
      have hNone : w.wsUp = [] := by
        by_contra hSome
        simp [h.changed hSome] at hDirect
      have hSession : w.session.relay = false := by
        by_contra hRelay
        simp [(h.followed (by simpa using hRelay)).1] at hDirect
      have hRequests := h.requests
      rw [hNone, List.append_nil] at hRequests
      exact { h with
        requests := by rw [hNone, List.append_nil, ← List.append_assoc, hRequests]
        followed := by simp [hSession] }
  · exact { h with
      requests := by
        rw [← List.append_assoc, h.requests]
      changed := fun _ => rfl
      followed := fun hRelay => ⟨rfl, (h.followed hRelay).2⟩ }

/-- A request that arrives on the channel is the next one. -/
theorem Invariant.upDirect (h : w.Invariant J depth) {done : Bool} {r : R} {rest : List R}
    (hUp : w.dcUp = r :: rest) (hAccepts : w.Accepts size r) :
    Invariant J depth
      { w with dcUp := rest, session := w.session.onMessage done ⟨size r, some r⟩ } := by
  have hRelay : w.session.relay = false := by
    by_contra hRelay
    simp [(h.followed (by simpa using hRelay)).2] at hUp
  have hQueued : w.session.onMessage done ⟨size r, some r⟩ =
      { w.session with queue := w.session.queue ++ [⟨size r, some r⟩] } := by
    rw [Session.onMessage, if_neg (by simp [hRelay]),
      Session.accept_queued h.running hAccepts.1 hAccepts.2]
  rw [hQueued]
  refine { h with wellFormed := fun raw hRaw => ?_, requests := ?_, followed := by simp [hRelay] }
  · rcases List.mem_append.mp hRaw with hRaw | hRaw
    · exact h.wellFormed raw hRaw
    · rw [List.mem_singleton.mp hRaw]
      exact Option.some_ne_none r
  · rw [← h.requests, hUp]
    simp

/-- A request that arrives over the server comes before all those on the channel. -/
theorem Invariant.upRelayed (h : w.Invariant J depth) {done : Bool} {r : R} {rest : List R}
    (hUp : w.wsUp = r :: rest) (hFirst : w.session.relay = false → w.dcUp = [])
    (hAccepts : w.Accepts size r) :
    Invariant J depth
      { w with wsUp := rest, session := w.session.relayed done ⟨size r, some r⟩ } := by
  have hBrowser : w.relay = true := h.changed (by simp [hUp])
  have hDirect : w.dcUp = [] := by
    cases hRelay : w.session.relay with
    | false => exact hFirst hRelay
    | true => exact (h.followed hRelay).2
  have hQueued : w.session.relayed done ⟨size r, some r⟩ =
      { w.session with relay := true, queue := w.session.queue ++ [⟨size r, some r⟩] } :=
    Session.accept_queued (s := { w.session with relay := true }) h.running hAccepts.1 hAccepts.2
  rw [hQueued]
  refine { h with
    wellFormed := fun raw hRaw => ?_, requests := ?_, changed := fun _ => hBrowser,
    followed := fun _ => ⟨hBrowser, hDirect⟩, direct := by simp }
  · rcases List.mem_append.mp hRaw with hRaw | hRaw
    · exact h.wellFormed raw hRaw
    · rw [List.mem_singleton.mp hRaw]
      exact Option.some_ne_none r
  · rw [← h.requests, hUp, hDirect]
    simp

/-- Handling a request changes nothing of the order. -/
theorem Invariant.take {m : M} {s : Session R M} (h : w.Invariant J depth)
    (hTake : w.session.take m = some s) : Invariant J depth { w with session := s } := by
  obtain ⟨-, raw, rest, hQueue, hCase⟩ := Session.take_some hTake
  have hRest : ∀ raw ∈ rest, raw.request ≠ none := fun raw hRaw =>
    h.wellFormed raw (by rw [hQueue]; exact List.mem_cons_of_mem _ hRaw)
  rcases hCase with ⟨hNone, rfl⟩ | ⟨r, hSome, rfl⟩
  · exact absurd hNone (h.wellFormed raw (by simp [hQueue]))
  · refine { h with wellFormed := hRest, requests := ?_ }
    rw [← h.requests, hQueue]
    simp [hSome]

/-- A frame goes on the path that the session has at that time. -/
theorem Invariant.put (h : w.Invariant J depth) (hPut : w.put = some w') : w'.Invariant J depth := by
  obtain ⟨⟨f, s⟩, hSession, rfl⟩ := Option.map_eq_some_iff.mp hPut
  obtain ⟨⟨f', sending⟩, hSending, hPair⟩ := Option.map_eq_some_iff.mp hSession
  cases hPair
  obtain ⟨delivered, hLog, hLink⟩ := h.received
  have hSizes : ∀ t ∈ sending.taken, (J.marshal t.1).length ≤ Link.maxMessage := by
    obtain ⟨who, rest, -, rfl⟩ := Sending.put_some hSending
    exact h.sizes
  dsimp only
  split
  · next hDirect =>
      have hNone := h.direct hDirect.1 hDirect.2
      refine { h with
        accounts := h.accounts.put hSending, sizes := hSizes,
        received := ⟨delivered, ?_, hLink⟩ }
      rw [← hLog, hNone]
      simp
  · next hRelayed =>
      refine { h with
        accounts := h.accounts.put hSending, sizes := hSizes,
        received := ⟨delivered, ?_, hLink⟩, direct := fun hRelay hOpen => absurd ⟨hRelay, hOpen⟩ hRelayed }
      rw [← hLog]
      simp

/-- One more frame of the log is delivered. -/
theorem received_snoc {log rest : List Bytes} {link : Link M N} {path : Path} {f : Bytes}
    (h : ∃ delivered : List (Path × Bytes), delivered.map Prod.snd ++ (f :: rest) = log ∧
      link = delivered.foldl (Link.deliver J depth) Link.new) :
    ∃ delivered : List (Path × Bytes), delivered.map Prod.snd ++ rest = log ∧
      link.deliver J depth (path, f) = delivered.foldl (Link.deliver J depth) Link.new := by
  obtain ⟨delivered, hLog, hLink⟩ := h
  exact ⟨delivered ++ [(path, f)], by simp [← hLog], by simp [hLink]⟩

/-- A frame that arrives over the channel is the next one of the agent's. -/
theorem Invariant.downDirect (h : w.Invariant J depth)
    (hStep : w.step J depth size .downDirect = some w') : w'.Invariant J depth := by
  simp only [Switch.step] at hStep
  split at hStep
  · cases hStep
  · next f rest hDown =>
      cases hStep
      have hReceived := h.received
      rw [hDown] at hReceived
      exact { h with received := received_snoc hReceived }

/-- A frame that arrives over the relay, once the channel is empty, is the next one too.
-/
theorem Invariant.downRelayed (h : w.Invariant J depth) (hEmpty : w.dcDown = [])
    (hStep : w.step J depth size .downRelayed = some w') : w'.Invariant J depth := by
  simp only [Switch.step] at hStep
  split at hStep
  · cases hStep
  · next f rest hDown =>
      cases hStep
      have hReceived := h.received
      rw [hDown, hEmpty] at hReceived
      refine { h with
        received := by rw [hEmpty]; exact received_snoc hReceived,
        direct := fun hRelay hOpen => ?_ }
      simp [h.direct hRelay hOpen] at hDown

/-- In orderly runs every step keeps the order on both paths. -/
theorem Invariant.step {l : SwitchLabel R M} (h : w.Invariant J depth) (hOrderly : w.Orderly J size l)
    (hStep : w.step J depth size l = some w') : w'.Invariant J depth := by
  cases l with
  | call r =>
      cases hStep
      exact h.call r
  | useRelay =>
      cases hStep
      exact { h with changed := fun _ => rfl, followed := fun hRelay => ⟨rfl, (h.followed hRelay).2⟩ }
  | browserCloses =>
      cases hStep
      exact { h with }
  | sessionCloses =>
      cases hStep
      exact { h with direct := fun _ hOpen => by cases hOpen }
  | upDirect done =>
      simp only [Switch.step] at hStep
      split at hStep
      · cases hStep
      · next r rest hUp =>
          cases hStep
          exact h.upDirect hUp (hOrderly r (by simp [hUp]))
  | upRelayed done =>
      simp only [Switch.step] at hStep
      split at hStep
      · cases hStep
      · next r rest hUp =>
          cases hStep
          exact h.upRelayed hUp hOrderly.1 (hOrderly.2 r (by simp [hUp]))
  | take m =>
      obtain ⟨s, hTake, rfl⟩ := Option.map_eq_some_iff.mp hStep
      exact h.take hTake
  | quit =>
      obtain ⟨s, hQuit, rfl⟩ := Option.map_eq_some_iff.mp hStep
      simp [Session.quit, h.running] at hQuit
  | sendReply id =>
      obtain ⟨s, hSend, rfl⟩ := Option.map_eq_some_iff.mp hStep
      obtain ⟨m, sending, hReply, hLock, rfl⟩ := Session.sendReply_some hSend
      exact h.locked hLock (hOrderly m hReply) none
  | send who m id =>
      obtain ⟨s, hSend, rfl⟩ := Option.map_eq_some_iff.mp hStep
      obtain ⟨-, sending, hLock, rfl⟩ := Session.send_some hSend
      exact h.locked hLock hOrderly w.session.reply
  | put => exact h.put hStep
  | unlock =>
      obtain ⟨s, hUnlock, rfl⟩ := Option.map_eq_some_iff.mp hStep
      obtain ⟨sending, hSending, rfl⟩ := Option.map_eq_some_iff.mp hUnlock
      refine { h with accounts := h.accounts.unlock hSending, sizes := ?_ }
      obtain ⟨who, -, rfl⟩ := Sending.unlock_some hSending
      exact h.sizes
  | downDirect => exact h.downDirect hStep
  | downRelayed => exact h.downRelayed hOrderly hStep

/-- The invariant in every reachable state. -/
theorem invariant (h : Reachable (systemWhere J depth size (Orderly J size)) w) :
    w.Invariant J depth := by
  refine h.invariant (fun w hw => ?_) fun w l w' hw hStep => hw.step hStep.1 hStep.2
  cases hw
  exact {
    running := rfl, wellFormed := by simp [new, Session.new], requests := rfl,
    changed := by simp [new], followed := by simp [new, Session.new], accounts := rfl,
    sizes := by simp [new, Session.new, Sending.empty], received := ⟨[], rfl, rfl⟩,
    direct := fun _ _ => rfl }

end Switch

/-- In every run in which the ends change over in order, nothing is lost, doubled
or out of order in any reachable state. -/
theorem switch_faithful [DecidableEq N] {J : JSON M N} {number : Int64 → N} (hJ : ReadsBack J number)
    {depth : Nat} {size : R → Nat} {w : Switch R M N}
    (h : Reachable (Switch.systemWhere J (depth + 1) size (Switch.Orderly J size)) w) :
    w.Faithful := by
  obtain ⟨-, -, hRequests, -, -, hAccounts, hSizes, ⟨delivered, hLog, hLink⟩, -⟩ := Switch.invariant h
  obtain ⟨hPrefix, hOpen, hAll⟩ := dispatched_of_accounts depth hJ hAccounts hSizes hLog
  refine ⟨hRequests, by rwa [hLink], fun hFree hDirect hRelayed => ?_, by rwa [hLink]⟩
  rw [hLink]
  exact hAll hFree (by rw [hDirect, hRelayed]; rfl)

/-- A request on the data channel, and one by the relay after it has arrived. -/
theorem switch_faithful_in_order :
    ∃ w : Switch Nat Unit Bytes, w.session.relay = true ∧ w.issued = [1, 2] ∧ w.Faithful := by
  let M := Switch.systemWhere (R := Nat) endJSON 1 (fun _ => 20) (Switch.Orderly endJSON fun _ => 20)
  have hFirst : Reachable M { (.new : Switch Nat Unit Bytes) with issued := [1], dcUp := [1] } :=
    (Reachable.initial rfl).next (show M.step _ (.call 1) _ from ⟨trivial, rfl⟩)
  have hDirect : Reachable M { (.new : Switch Nat Unit Bytes) with
      issued := [1], session := { Session.new with queue := [⟨20, some 1⟩] } } :=
    hFirst.next (show M.step _ (.upDirect false) _ from
      ⟨fun r _ => ⟨by simp, by simp [Switch.new, Session.new]⟩, rfl⟩)
  have hChanged : Reachable M { (.new : Switch Nat Unit Bytes) with
      relay := true, issued := [1, 2], wsUp := [2],
      session := { Session.new with queue := [⟨20, some 1⟩] } } :=
    (hDirect.next (show M.step _ .useRelay _ from ⟨trivial, rfl⟩)).next
      (show M.step _ (.call 2) _ from ⟨trivial, rfl⟩)
  have hRelayed : Reachable M { (.new : Switch Nat Unit Bytes) with
      relay := true, issued := [1, 2],
      session := { Session.new with relay := true, queue := [⟨20, some 1⟩, ⟨20, some 2⟩] } } :=
    hChanged.next (show M.step _ (.upRelayed false) _ from
      ⟨⟨fun _ => rfl, fun r _ => ⟨by simp, by simp⟩⟩, rfl⟩)
  exact ⟨_, rfl, rfl, switch_faithful endJSON_readsBack hRelayed⟩

/-- A request that is still on the data channel when the first relayed one
arrives is thrown away. -/
theorem request_lost_in_change :
    ¬∀ w : Switch Nat Unit Bytes,
      Reachable (Switch.systemWhere endJSON 1 (fun _ => 20) fun _ _ => True) w →
      w.dcUp = [] → w.wsUp = [] → w.session.queue = [] → w.session.handled = w.issued := by
  intro hAll
  have hRun : ∃ w : Switch Nat Unit Bytes, follow (Switch.step endJSON 1 fun _ => 20) .new
      [.call 1, .useRelay, .call 2, .upRelayed false, .upDirect false, .take ()] = some w ∧
      w.dcUp = [] ∧ w.wsUp = [] ∧ w.session.queue = [] ∧ w.session.handled = [2] ∧
      w.issued = [1, 2] := ⟨_, rfl, rfl, rfl, rfl, rfl, rfl⟩
  obtain ⟨w, hFollow, hUp, hRelay, hQueue, hHandled, hIssued⟩ := hRun
  have hReach := (Reachable.initial rfl).runs (runs_of_follow
    (M := Switch.systemWhere endJSON 1 (fun _ => 20) fun _ _ => True)
    (fun s l t h => ⟨trivial, h⟩) hFollow)
  have hEqual := hAll w hReach hUp hRelay hQueue
  rw [hHandled, hIssued] at hEqual
  simp at hEqual

end NetConductor
