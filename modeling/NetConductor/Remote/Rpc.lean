import NetConductor.Remote.Calls
import NetConductor.Remote.Session

/-! The calls of a page and the loop of its session, with all traffic on one
channel: which requests are handled, which results are sent, and what settles a
call. -/
namespace NetConductor
open Transition

variable {B E V N : Type}

def Response.result? : Response E V → Option (Nat × Except E V)
  | .result id answer => some (id, answer)
  | _ => none

namespace Session

variable {R M : Type}

/-- `Close`, or the end of the session's thirty minutes. -/
def cancel (s : Session R M) : Session R M := { s with cancelled := true }

/-- `json.Marshal` fails on the result. -/
def replyFails (s : Session R M) : Option (Session R M) :=
  match s.reply with
  | some _ => some { s with reply := none, cancelled := true, stopped := true }
  | none => none

/-- `sendBytes` fails: the loop cancels the session and returns, any other
goroutine only gives up its message. -/
def putFails (s : Session R M) : Option (Session R M) :=
  match s.sending.holder with
  | some (.loop, _ :: _) =>
      some { s with sending := { s.sending with holder := none }, cancelled := true, stopped := true }
  | some (_, _ :: _) => some { s with sending := { s.sending with holder := none } }
  | _ => none

/-- A request arrives on the channel in use. -/
def arrives (path : Path) (done : Bool) (raw : Raw R) (s : Session R M) : Session R M :=
  match path with
  | .direct => s.onMessage done raw
  | .relayed => s.relayed done raw

end Session

/-- `up` are the requests on their way, `received` those that arrived, each with
whether it was put into the queue. `answers` are what handling gave; `failed`
says that a send of the loop failed, `sent` are the sends begun and not failed. -/
structure Rpc (B E V N : Type) where
  page : Page B E V N
  up : List (Request B)
  received : List (Request B × Bool)
  session : Session (Request B) (Response E V)
  answers : List (Request B × Except E V)
  failed : Bool
  sent : List (Response E V × Int64)
  log : List Bytes
  down : List Bytes

inductive RpcLabel (B E V : Type) where
  | call (b : B)
  | resolve
  | resume (c : Nat) (throws : Bool)
  | timeout (id : Nat)
  | close
  | fail
  | arrive (done : Bool)
  | take (answer : Except E V)
  | quit
  | cancel
  | sendReply (id : Int64)
  | replyFails
  | write (who : Sender) (data : Bytes) (id : Int64)
  | ended (id : Int64)
  | put
  | putFails
  | unlock
  | deliver

namespace Rpc

def new : Rpc B E V N := ⟨.new, [], [], .new, [], false, [], [], []⟩

/-- The requests of the page, in the order in which it sent them. -/
def issued (w : Rpc B E V N) : List (Request B) := w.received.map Prod.fst ++ w.up

def queued (w : Rpc B E V N) : List (Request B) := (w.received.filter Prod.snd).map Prod.fst

def results (w : Rpc B E V N) : List (Nat × Except E V) := w.sent.filterMap fun t => t.1.result?

/-- The loop takes a request and handles it; `answer` is what that gives. -/
def take (answer : Except E V) (w : Rpc B E V N) : Option (Rpc B E V N) :=
  let r := w.session.queue.head?.bind Raw.request
  (w.session.take (.result ((r.map Request.id).getD 0) answer)).map fun s =>
    { w with session := s, answers := w.answers ++ r.toList.map fun r => (r, answer) }

/-- Another goroutine sends a message of the terminal. -/
def write (J : JSON (Response E V) N) (who : Sender) (m : Response E V) (id : Int64)
    (w : Rpc B E V N) : Option (Rpc B E V N) :=
  (w.session.send J who m id).map fun s => { w with session := s, sent := w.sent ++ [(m, id)] }

variable [DecidableEq N]

def step (J : JSON (Response E V) N) (depth : Nat) (text : Request B → Raw (Request B)) (path : Path)
    (w : Rpc B E V N) : RpcLabel B E V → Option (Rpc B E V N)
  | .call b => some { w with page := w.page.call b }
  | .resolve => some { w with page := w.page.resolve }
  | .resume c throws => (w.page.resume c throws).map fun q =>
      { w with page := q.1, up := w.up ++ q.2.toList }
  | .timeout id => (w.page.timeout id).map fun q => { w with page := q }
  | .close => some { w with page := w.page.close }
  | .fail => some { w with page := w.page.fail }
  | .arrive done =>
      match w.up with
      | [] => none
      | r :: rest =>
          let s := w.session.arrives path done (text r)
          some { w with
            up := rest
            received := w.received ++ [(r, decide (w.session.queue.length < s.queue.length))]
            session := s }
  | .take answer => w.take answer
  | .quit => w.session.quit.map fun s => { w with session := s }
  | .cancel => some { w with session := w.session.cancel }
  | .sendReply id =>
      w.session.reply.bind fun m => (w.session.sendReply J id).map fun s =>
        { w with session := s, sent := w.sent ++ [(m, id)] }
  | .replyFails => w.session.replyFails.map fun s => { w with session := s, failed := true }
  | .write who data id => if data.length ≤ 16000 then w.write J who (.terminal data) id else none
  | .ended id => w.write J .terminalEnd .terminalEnd id
  | .put => w.session.put.map fun fs =>
      { w with session := fs.2, log := w.log ++ [fs.1], down := w.down ++ [fs.1] }
  | .putFails => w.session.putFails.map fun s =>
      { w with session := s, sent := w.sent.dropLast, failed := w.failed || (s.stopped && !w.session.stopped) }
  | .unlock => w.session.unlock.map fun s => { w with session := s }
  | .deliver =>
      match w.down with
      | [] => none
      | f :: rest => some { w with down := rest, page := w.page.deliver J depth (path, f) }

def system (J : JSON (Response E V) N) (depth : Nat) (text : Request B → Raw (Request B))
    (path : Path) : System (Rpc B E V N) (RpcLabel B E V) where
  initial w := w = .new
  step w l w' := w.step J depth text path l = some w'

/-! ### The page and its requests -/

omit [DecidableEq N]

/-- Every request sent is that of a call, under an id of its own. -/
structure Asked (w : Rpc B E V N) : Prop where
  page : w.page.Consistent w.answers
  calls : ∀ r ∈ w.issued, ∃ (c : Nat) (call : Call B E V),
    w.page.calls[c]? = some call ∧ call.id = some r.id ∧ call.body = r.body
  increasing : (w.issued.map Request.id).Pairwise (· < ·)
  numbered : ∀ r ∈ w.issued, r.id ≤ w.page.seq

variable {w w' : Rpc B E V N} {q : Page B E V N}

/-- The page keeps what it asked for. -/
theorem Asked.moves (h : w.Asked) (hMoves : Page.Moves w.answers w.page q) :
    Asked { w with page := q } := by
  refine ⟨hMoves.consistent, fun r hr => ?_, h.increasing, fun r hr => ?_⟩
  · obtain ⟨c, call, hCall, hId, hBody⟩ := h.calls r hr
    obtain ⟨call', hCall', hBody', hId'⟩ := hMoves.keeps c call hCall
    exact ⟨c, call', hCall', hId' r.id hId, hBody'.trans hBody⟩
  · exact (h.numbered r hr).trans hMoves.seq

/-- A request goes up under an id of its own. -/
theorem Asked.sends (h : w.Asked) {r : Request B} (hNew : w.page.seq < r.id) (hMoves : Page.Moves w.answers w.page q)
    (hSeq : r.id ≤ q.seq) (hCall : ∃ (c : Nat) (call : Call B E V),
      q.calls[c]? = some call ∧ call.id = some r.id ∧ call.body = r.body) :
    Asked { w with page := q, up := w.up ++ [r] } := by
  have hIssued : issued { w with page := q, up := w.up ++ [r] } = w.issued ++ [r] :=
    (List.append_assoc ..).symm
  have hMoved := h.moves hMoves
  refine ⟨hMoves.consistent, ?_, ?_, ?_⟩
  · rw [hIssued]
    intro r' hr'
    rcases List.mem_append.mp hr' with hOld | hLast
    · exact hMoved.calls r' hOld
    · rw [List.mem_singleton.mp hLast]
      exact hCall
  · rw [hIssued, List.map_append, List.pairwise_append]
    refine ⟨h.increasing, List.pairwise_singleton .., fun id hid id' hid' => ?_⟩
    obtain ⟨r', hr', rfl⟩ := List.mem_map.mp hid
    have hOld := h.numbered r' hr'
    rw [List.map_singleton, List.mem_singleton] at hid'
    omega
  · rw [hIssued]
    intro r' hr'
    rcases List.mem_append.mp hr' with hOld | hLast
    · exact hMoved.numbered r' hOld
    · rw [List.mem_singleton.mp hLast]
      exact hSeq

/-- What the page has said stays as it is. -/
theorem Asked.same (h : w.Asked) (hPage : w'.page = w.page) (hIssued : w'.issued = w.issued)
    (hAnswers : w'.page.Consistent w'.answers) : w'.Asked := by
  refine ⟨hAnswers, ?_, ?_, ?_⟩
  · rw [hIssued, hPage]
    exact h.calls
  · rw [hIssued]
    exact h.increasing
  · rw [hIssued, hPage]
    exact h.numbered

/-- The call that has the id of a request has its body. -/
theorem Asked.own (h : w.Asked) {r : Request B} (hr : r ∈ w.issued) {c : Nat} {call : Call B E V}
    (hCall : w.page.calls[c]? = some call) (hId : call.id = some r.id) : ⟨r.id, call.body⟩ = r := by
  obtain ⟨d, other, hOther, hId', hBody⟩ := h.calls r hr
  have hPlace := h.page.named c d call other r.id hCall hOther hId hId'
  subst hPlace
  obtain rfl : call = other := Option.some.inj (hCall.symm.trans hOther)
  rw [hBody]

/-! ### The queue and the loop -/

/-- `taken` are the requests that the loop took from the queue, the last of which
may have been malformed, `waiting` those still in it. -/
structure Served (text : Request B → Raw (Request B)) (path : Path) (w : Rpc B E V N) : Prop where
  queue : ∃ taken waiting, w.queued = taken ++ waiting ∧ w.session.queue = waiting.map text ∧
    w.session.handled <+: taken ∧ (w.session.stopped = false → w.session.handled = taken)
  skipped : ∀ x ∈ w.received, x.2 = false → w.session.cancelled = true
  stopped : w.session.stopped = true → w.session.cancelled = true
  relay : path = .direct → w.session.relay = false

end Rpc

namespace Session

variable {R M : Type}

/-- A request that arrives goes to the end of the queue, or the session is
cancelled and it is skipped. -/
theorem accept_cases (done : Bool) (raw : Raw R) (s : Session R M) :
    s.accept done raw = { s with queue := s.queue ++ [raw] } ∨
      s.accept done raw = { s with cancelled := true } := by
  unfold accept
  split
  · exact .inr rfl
  · split
    · next hDone =>
        refine .inr ?_
        rw [← hDone.1]
    · split
      · exact .inl rfl
      · exact .inr rfl

theorem idle_cases {s : Session R M} (h : s.idle = true) :
    s.stopped = false ∧ s.reply = none ∧ ∀ rest, s.sending.holder ≠ some (.loop, rest) := by
  simp only [idle, Bool.and_eq_true, Bool.not_eq_true', Option.isNone_iff_eq_none] at h
  refine ⟨h.1.1, h.1.2, fun rest hLoop => ?_⟩
  rw [hLoop] at h
  simp at h

/-- A request is queued, or it is too much and ends the session. -/
theorem arrives_cases {path : Path} {s : Session R M} (done : Bool) (raw : Raw R)
    (hRelay : path = .direct → s.relay = false) :
    ∃ relay, (path = .direct → relay = false) ∧
      (s.arrives path done raw = { s with relay := relay, queue := s.queue ++ [raw] } ∨
        s.arrives path done raw = { s with relay := relay, cancelled := true }) := by
  cases path with
  | direct =>
      have hDirect := hRelay rfl
      refine ⟨false, fun _ => rfl, ?_⟩
      simp only [arrives, onMessage, hDirect, Bool.false_eq_true, if_false]
      rw [← hDirect]
      exact accept_cases done raw s
  | relayed =>
      refine ⟨true, fun hDirect => (by cases hDirect), ?_⟩
      exact accept_cases done raw { s with relay := true }

end Session

namespace Rpc

variable {w w' : Rpc B E V N} {text : Request B → Raw (Request B)} {path : Path}

/-- A request that arrives is the next one in the order of sending. -/
theorem Served.arrive (h : w.Served text path) (r : Request B) (rest : List (Request B)) (done : Bool) :
    Served text path { w with
      up := rest
      received := w.received ++ [(r, decide (w.session.queue.length <
        (w.session.arrives path done (text r)).queue.length))]
      session := w.session.arrives path done (text r) } := by
  obtain ⟨taken, waiting, hQueued, hQueue, hHandled, hAll⟩ := h.queue
  obtain ⟨relay, hRelay, hAccept | hAccept⟩ := Session.arrives_cases done (text r) h.relay
  · rw [hAccept]
    have hBit : decide (w.session.queue.length < (w.session.queue ++ [text r]).length) = true := by
      simp
    refine ⟨⟨taken, waiting ++ [r], ?_, ?_, hHandled, hAll⟩, fun x hx hSkipped => ?_, h.stopped, hRelay⟩
    · show ((w.received ++ [(r, _)]).filter Prod.snd).map Prod.fst = _
      rw [hBit, List.filter_append, List.map_append]
      show w.queued ++ [r] = _
      rw [hQueued, List.append_assoc]
    · simp [hQueue]
    · rcases List.mem_append.mp hx with hOld | hLast
      · exact h.skipped x hOld hSkipped
      · rw [List.mem_singleton.mp hLast, hBit] at hSkipped
        cases hSkipped
  · rw [hAccept]
    have hBit : decide (w.session.queue.length < w.session.queue.length) = false := by simp
    refine ⟨⟨taken, waiting, ?_, hQueue, hHandled, hAll⟩, fun _ _ _ => rfl, fun _ => rfl, hRelay⟩
    show ((w.received ++ [(r, _)]).filter Prod.snd).map Prod.fst = _
    rw [hBit, List.filter_append, List.map_append]
    show w.queued ++ [] = _
    rw [hQueued, List.append_nil]

/-- A request that is handled is the first in the queue. -/
theorem Served.take (hRead : ∀ r r', (text r).request = some r' → r' = r) (h : w.Served text path)
    {m : Response E V} {s : Session (Request B) (Response E V)} (hTake : w.session.take m = some s)
    (answers : List (Request B × Except E V)) :
    Served text path { w with session := s, answers := answers } := by
  obtain ⟨taken, waiting, hQueued, hQueue, hHandled, hAll⟩ := h.queue
  obtain ⟨hIdle, raw, rest, hHead, hCase⟩ := Session.take_some hTake
  obtain ⟨hRunning, -, -⟩ := Session.idle_cases hIdle
  obtain ⟨r, others, rfl, rfl, rfl⟩ := List.map_eq_cons_iff.mp (hQueue.symm.trans hHead)
  have hNext : w.queued = (taken ++ [r]) ++ others := by rw [hQueued]; simp
  rcases hCase with ⟨-, rfl⟩ | ⟨r', hRequest, rfl⟩
  · exact ⟨⟨taken ++ [r], others, hNext, rfl, hHandled.trans (List.prefix_append ..),
      fun hStopped => (by cases hStopped)⟩, fun _ _ _ => rfl, fun _ => rfl, h.relay⟩
  · have hSame : w.session.handled ++ [r'] = taken ++ [r] := by
      rw [hAll hRunning, hRead r r' hRequest]
    exact ⟨⟨taken ++ [r], others, hNext, rfl, hSame ▸ List.prefix_rfl, fun _ => hSame⟩, h.skipped, h.stopped,
      h.relay⟩

/-- A step of the session that keeps the queue and what was handled. -/
theorem Served.same (h : w.Served text path) (hReceived : w'.received = w.received)
    (hQueue : w'.session.queue = w.session.queue) (hHandled : w'.session.handled = w.session.handled)
    (hCancelled : w.session.cancelled = true → w'.session.cancelled = true)
    (hStopped : w'.session.stopped = w.session.stopped ∨
      (w'.session.stopped = true ∧ w'.session.cancelled = true))
    (hRelay : w'.session.relay = w.session.relay) : w'.Served text path := by
  obtain ⟨taken, waiting, hQueued, hWaiting, hPrefix, hAll⟩ := h.queue
  have hSame : w'.queued = w.queued := by rw [queued, hReceived, queued]
  refine ⟨⟨taken, waiting, hSame.trans hQueued, hQueue.trans hWaiting, by rwa [hHandled], ?_⟩,
    fun x hx hSkipped => hCancelled (h.skipped x (hReceived ▸ hx) hSkipped), fun hNow => ?_, fun hPath => ?_⟩
  · intro hRunning
    rw [hHandled]
    rcases hStopped with hStopped | ⟨hStopped, -⟩
    · exact hAll (hStopped ▸ hRunning)
    · rw [hStopped] at hRunning
      cases hRunning
  · rcases hStopped with hStopped | ⟨-, hNow'⟩
    · exact hCancelled (h.stopped (hStopped ▸ hNow))
    · exact hNow'
  · rw [hRelay]
    exact h.relay hPath

/-! ### What the session tells -/

/-- Of the results at most those that the loop failed to send are missing, and
the one it has still to send. -/
structure Told (J : JSON (Response E V) N) (w : Rpc B E V N) : Prop where
  answers : w.answers.map Prod.fst = w.session.handled
  results : ∃ lost, w.results ++ w.session.reply.toList.filterMap Response.result? ++ lost =
      w.answers.map (fun a => (a.1.id, a.2)) ∧ (lost ≠ [] → w.failed = true)
  reply : ∀ m, w.session.reply = some m → m.result? ≠ none ∧ w.session.stopped = false ∧
    ∀ rest, w.session.sending.holder ≠ some (.loop, rest)
  failed : w.failed = true → w.session.cancelled = true ∧ w.session.stopped = true
  holder : ∀ who rest, w.session.sending.holder = some (who, rest) → ∃ prior t, w.sent = prior ++ [t] ∧
    (who = .loop → t.1.result? ≠ none ∧ w.session.stopped = false) ∧ (who ≠ .loop → t.1.result? = none)
  tally : ∃ torn, Tally J torn w.session.sending.holder w.sent w.log ∧
    (torn = true → w.session.stopped = true)

variable {J : JSON (Response E V) N}

theorem results_snoc (w : Rpc B E V N) (m : Response E V) (id : Int64) :
    results { w with sent := w.sent ++ [(m, id)] } = w.results ++ m.result?.toList := by
  unfold results
  rw [List.filterMap_append]
  cases h : m.result? <;> simp [h]

/-- A step of the session that neither sends nor handles anything. -/
theorem Told.same (h : w.Told J) (hAnswers : w'.answers = w.answers)
    (hHandled : w'.session.handled = w.session.handled) (hSent : w'.sent = w.sent)
    (hReply : w'.session.reply = w.session.reply) (hFailed : w'.failed = w.failed)
    (hSending : w'.session.sending = w.session.sending) (hLog : w'.log = w.log)
    (hCancelled : w.session.cancelled = true → w'.session.cancelled = true)
    (hStopped : w'.session.stopped = w.session.stopped ∨
      (w.session.idle = true ∧ w'.session.stopped = true)) : w'.Told J := by
  have hMono : w.session.stopped = true → w'.session.stopped = true := by
    rcases hStopped with hSame | ⟨-, hNow⟩
    · rw [hSame]
      exact id
    · exact fun _ => hNow
  refine ⟨by rw [hAnswers, hHandled, h.answers], ?_, fun m hm => ?_, fun hf => ?_,
    fun who rest hHolder => ?_, ?_⟩
  · obtain ⟨lost, hResults, hLost⟩ := h.results
    refine ⟨lost, ?_, by rwa [hFailed]⟩
    rw [hReply, hAnswers, ← hResults, Rpc.results, hSent, Rpc.results]
  · rw [hReply] at hm
    obtain ⟨hResult, hRunning, hFree⟩ := h.reply m hm
    refine ⟨hResult, ?_, by rwa [hSending]⟩
    rcases hStopped with hSame | ⟨hIdle, -⟩
    · rw [hSame, hRunning]
    · rw [(Session.idle_cases hIdle).2.1] at hm
      cases hm
  · rw [hFailed] at hf
    exact ⟨hCancelled (h.failed hf).1, hMono (h.failed hf).2⟩
  · rw [hSending] at hHolder
    obtain ⟨prior, t, hPrior, hLoop, hOther⟩ := h.holder who rest hHolder
    refine ⟨prior, t, hSent.trans hPrior, fun hWho => ⟨(hLoop hWho).1, ?_⟩, hOther⟩
    rcases hStopped with hSame | ⟨hIdle, -⟩
    · rw [hSame]
      exact (hLoop hWho).2
    · rw [hWho] at hHolder
      exact absurd hHolder ((Session.idle_cases hIdle).2.2 rest)
  · obtain ⟨torn, hTally, hTorn⟩ := h.tally
    refine ⟨torn, ?_, fun ht => hMono (hTorn ht)⟩
    rw [hSending, hSent, hLog]
    exact hTally

/-- The loop handles a request, and has its result to send. -/
theorem Told.take (h : w.Told J) {answer : Except E V} (hTake : w.take answer = some w') :
    w'.Told J := by
  obtain ⟨s, hSession, rfl⟩ := Option.map_eq_some_iff.mp hTake
  obtain ⟨hIdle, raw, rest, hQueue, hCase⟩ := Session.take_some hSession
  obtain ⟨hRunning, hReply, hFree⟩ := Session.idle_cases hIdle
  have hHead : w.session.queue.head?.bind Raw.request = raw.request := by rw [hQueue]; rfl
  rcases hCase with ⟨hNone, rfl⟩ | ⟨r, hSome, rfl⟩
  · rw [hHead, hNone]
    exact h.same (List.append_nil _) rfl rfl rfl rfl rfl rfl (fun _ => rfl) (.inr ⟨hIdle, rfl⟩)
  · rw [hHead, hSome]
    obtain ⟨lost, hResults, hLost⟩ := h.results
    have hNothing : lost = [] := by
      by_contra hSome
      have hStopped := (h.failed (hLost hSome)).2
      rw [hRunning] at hStopped
      cases hStopped
    refine ⟨?_, ⟨[], ?_, fun hEmpty => absurd rfl hEmpty⟩, fun m hm => ?_, h.failed, h.holder, h.tally⟩
    · show (w.answers ++ [(r, answer)]).map Prod.fst = w.session.handled ++ [r]
      rw [List.map_append, h.answers]
      rfl
    · rw [hReply, hNothing] at hResults
      show w.results ++ [(r.id, answer)] ++ [] = (w.answers ++ [(r, answer)]).map _
      rw [List.map_append, ← hResults]
      simp
    · cases hm
      exact ⟨by simp [Response.result?], hRunning, hFree⟩

/-- A send begins: it is the loop's result, or a message of the terminal. -/
theorem Told.lock (h : w.Told J) {who : Sender} {m : Response E V} {id : Int64}
    {sending : Sending (Response E V)} {reply : Option (Response E V)}
    (hLock : w.session.sending.lock J who m id = some sending)
    (hLoop : who = .loop → w.session.reply = some m ∧ reply = none)
    (hOther : who ≠ .loop → reply = w.session.reply ∧ m.result? = none ∧ (J.marshal m).length ≤ 40000) :
    Told J { w with
      session := { w.session with sending := sending, reply := reply }, sent := w.sent ++ [(m, id)] } := by
  obtain ⟨lost, hResults, hLost⟩ := h.results
  obtain ⟨torn, hTally, hTorn⟩ := h.tally
  have hSnoc := results_snoc w m id
  refine ⟨h.answers, ⟨lost, ?_, hLost⟩, fun m' hm' => ?_, h.failed, fun who' rest hHolder => ?_,
    torn, ?_, hTorn⟩
  · show Rpc.results { w with sent := w.sent ++ [(m, id)] } ++ _ ++ lost = _
    rw [hSnoc, ← hResults]
    by_cases hWho : who = .loop
    · obtain ⟨hReply, rfl⟩ := hLoop hWho
      rw [hReply]
      cases hm : m.result? <;> simp [hm]
    · obtain ⟨rfl, hNone, -⟩ := hOther hWho
      rw [hNone]
      simp
  · by_cases hWho : who = .loop
    · rw [(hLoop hWho).2] at hm'
      cases hm'
    · rw [(hOther hWho).1] at hm'
      obtain ⟨hResult, hRunning, -⟩ := h.reply m' hm'
      refine ⟨hResult, hRunning, fun rest hHolder => hWho ?_⟩
      obtain ⟨-, rfl⟩ := Sending.lock_some hLock
      cases hHolder
      rfl
  · obtain ⟨-, rfl⟩ := Sending.lock_some hLock
    cases hHolder
    refine ⟨w.sent, (m, id), rfl, fun hWho => ?_, fun hWho => (hOther hWho).2.1⟩
    obtain ⟨hResult, hRunning, -⟩ := h.reply m (hLoop hWho).1
    exact ⟨hResult, hRunning⟩
  · refine hTally.lock hLock ?_
    by_cases hWho : who = .loop
    · refine .inl ⟨hWho, ?_⟩
      have hRunning := (h.reply m (hLoop hWho).1).2.1
      by_contra hNow
      rw [hTorn (by simpa using hNow)] at hRunning
      cases hRunning
    · exact .inr (hOther hWho).2.2

/-- An answer that cannot be sent is lost, and the loop ends with it. -/
theorem Told.replyFails (h : w.Told J) {s : Session (Request B) (Response E V)}
    (hFails : w.session.replyFails = some s) : Told J { w with session := s, failed := true } := by
  unfold Session.replyFails at hFails
  split at hFails
  · next m hReply =>
      cases hFails
      obtain ⟨lost, hResults, hLost⟩ := h.results
      obtain ⟨torn, hTally, hTorn⟩ := h.tally
      obtain ⟨hResult, hRunning, hFree⟩ := h.reply m hReply
      refine ⟨h.answers, ⟨[m].filterMap Response.result? ++ lost, ?_, fun _ => rfl⟩,
        fun m' hm' => (by cases hm'), fun _ => ⟨rfl, rfl⟩, fun who rest hHolder => ?_,
        torn, hTally, fun _ => rfl⟩
      · rw [hReply] at hResults
        rw [← hResults]
        show w.results ++ [] ++ _ = _
        simp
      · obtain ⟨prior, t, hPrior, -, hOther⟩ := h.holder who rest hHolder
        refine ⟨prior, t, hPrior, fun hWho => ?_, hOther⟩
        rw [hWho] at hHolder
        exact absurd hHolder (hFree rest)
  · cases hFails

/-- Putting a frame changes nothing of the answers. -/
theorem Told.put (h : w.Told J) {f : Bytes} {s : Session (Request B) (Response E V)}
    (hPut : w.session.put = some (f, s)) (down : List Bytes) :
    Told J { w with session := s, log := w.log ++ [f], down := down } := by
  obtain ⟨⟨f', sending⟩, hSending, hPair⟩ := Option.map_eq_some_iff.mp hPut
  cases hPair
  obtain ⟨torn, hTally, hTorn⟩ := h.tally
  have hNext := hTally.put hSending
  obtain ⟨who, rest, hHeld, rfl⟩ := Sending.put_some hSending
  refine ⟨h.answers, h.results, fun m hm => ?_, h.failed, fun who' rest' hHolder => ?_,
    torn, hNext, hTorn⟩
  · obtain ⟨hResult, hRunning, hFree⟩ := h.reply m hm
    refine ⟨hResult, hRunning, fun rest' hLoop => ?_⟩
    cases hLoop
    exact hFree _ hHeld
  · cases hHolder
    exact h.holder who _ hHeld

/-- Giving the mutex back changes nothing of the answers. -/
theorem Told.unlock (h : w.Told J) {s : Session (Request B) (Response E V)}
    (hUnlock : w.session.unlock = some s) : Told J { w with session := s } := by
  obtain ⟨sending, hSending, rfl⟩ := Option.map_eq_some_iff.mp hUnlock
  obtain ⟨torn, hTally, hTorn⟩ := h.tally
  have hNext := hTally.unlock hSending
  obtain ⟨who, -, rfl⟩ := Sending.unlock_some hSending
  refine ⟨h.answers, h.results, fun m hm => ?_, h.failed, fun who' rest' hHolder => (by cases hHolder),
    torn, hNext, hTorn⟩
  obtain ⟨hResult, hRunning, -⟩ := h.reply m hm
  exact ⟨hResult, hRunning, fun rest hLoop => (by cases hLoop)⟩

end Rpc

namespace Session

variable {R M : Type}

/-- A write that fails loses the rest of its message; if it is the loop's, the loop
ends. -/
theorem putFails_some {s s' : Session R M} (h : s.putFails = some s') :
    ∃ who f rest, s.sending.holder = some (who, f :: rest) ∧
      s'.sending = { s.sending with holder := none } ∧ s'.queue = s.queue ∧ s'.handled = s.handled ∧
      s'.reply = s.reply ∧ s'.relay = s.relay ∧
      ((who = .loop ∧ s'.cancelled = true ∧ s'.stopped = true) ∨
        (who ≠ .loop ∧ s'.cancelled = s.cancelled ∧ s'.stopped = s.stopped)) := by
  unfold putFails at h
  split at h
  · next f rest hHeld =>
      cases h
      exact ⟨.loop, f, rest, hHeld, rfl, rfl, rfl, rfl, rfl, .inl ⟨rfl, rfl, rfl⟩⟩
  · next who f rest hLoop hHeld =>
      cases h
      exact ⟨who, f, rest, hHeld, rfl, rfl, rfl, rfl, rfl, .inr ⟨hLoop, rfl, rfl⟩⟩
  · cases h

end Session

namespace Rpc

variable {w : Rpc B E V N} {J : JSON (Response E V) N}

/-- A send fails: that of the loop takes its result with it. -/
theorem Told.putFails (h : w.Told J) {s : Session (Request B) (Response E V)}
    (hFails : w.session.putFails = some s) :
    Told J { w with
      session := s, sent := w.sent.dropLast, failed := w.failed || (s.stopped && !w.session.stopped) } := by
  obtain ⟨who, f, rest, hHeld, hSending, -, hHandled, hReply, -, hWho⟩ := Session.putFails_some hFails
  obtain ⟨lost, hResults, hLost⟩ := h.results
  obtain ⟨torn, hTally, hTorn⟩ := h.tally
  obtain ⟨prior, t, hPrior, hLoop, hOther⟩ := h.holder who _ hHeld
  rw [hHeld] at hTally
  obtain ⟨torn', hNext, hTorn'⟩ := hTally.fail
  have hAll : w.results = prior.filterMap (fun t => t.1.result?) ++ t.1.result?.toList := by
    have hSnoc := results_snoc { w with sent := prior } t.1 t.2
    rw [Rpc.results, hPrior]
    exact hSnoc
  have hFree : s.sending.holder = none := by rw [hSending]
  have hTally' : Tally J torn' s.sending.holder w.sent.dropLast w.log := by rw [hFree]; exact hNext
  have hDrop : w.sent.dropLast = prior := by rw [hPrior, List.dropLast_concat]
  rcases hWho with ⟨rfl, hCancelled, hStopped⟩ | ⟨hNotLoop, hCancelled, hStopped⟩
  · obtain ⟨hResult, hRunning⟩ := hLoop rfl
    have hNoReply : w.session.reply = none := by
      by_contra hSome
      obtain ⟨m, hm⟩ := Option.ne_none_iff_exists'.mp hSome
      exact (h.reply m hm).2.2 _ hHeld
    refine ⟨h.answers.trans hHandled.symm, ⟨t.1.result?.toList ++ lost, ?_, fun _ => ?_⟩,
      fun m hm => ?_, fun _ => ⟨hCancelled, hStopped⟩, fun who rest hHolder => ?_,
      torn', hTally', fun _ => hStopped⟩
    · rw [hNoReply, hAll] at hResults
      show Rpc.results { w with sent := w.sent.dropLast } ++ _ ++ _ = _
      rw [Rpc.results, hDrop, hReply, hNoReply, ← hResults]
      simp
    · show (w.failed || (s.stopped && !w.session.stopped)) = true
      rw [hStopped, hRunning]
      simp
    · rw [hReply, hNoReply] at hm
      cases hm
    · rw [hFree] at hHolder
      cases hHolder
  · have hSame : (w.failed || (s.stopped && !w.session.stopped)) = w.failed := by
      rw [hStopped]
      cases w.session.stopped <;> simp
    refine ⟨h.answers.trans hHandled.symm, ⟨lost, ?_, by rwa [hSame]⟩, fun m hm => ?_, fun hf => ?_,
      fun who rest hHolder => ?_, torn', hTally', fun ht => ?_⟩
    · rw [hAll, hOther hNotLoop] at hResults
      show Rpc.results { w with sent := w.sent.dropLast } ++ _ ++ _ = _
      rw [Rpc.results, hDrop, hReply, ← hResults]
      simp
    · rw [hReply] at hm
      obtain ⟨hResult, hRunning, -⟩ := h.reply m hm
      refine ⟨hResult, hStopped.trans hRunning, fun rest hLoop => ?_⟩
      rw [hFree] at hLoop
      cases hLoop
    · rw [hSame] at hf
      rw [hCancelled, hStopped]
      exact h.failed hf
    · rw [hFree] at hHolder
      cases hHolder
    · rw [hStopped]
      rcases hTorn' with hSameTorn | hWho
      · exact hTorn (hSameTorn ▸ ht)
      · exact absurd hWho hNotLoop

theorem Served.issued {text : Request B → Raw (Request B)} {path : Path} (h : w.Served text path)
    {r : Request B} (hr : r ∈ w.session.handled) : r ∈ w.issued := by
  obtain ⟨taken, waiting, hQueued, -, hHandled, -⟩ := h.queue
  have hMem : r ∈ w.queued := by
    rw [hQueued]
    exact List.mem_append_left _ (hHandled.subset hr)
  obtain ⟨x, hx, rfl⟩ := List.mem_map.mp hMem
  exact List.mem_append_left _ (List.mem_map_of_mem (List.mem_of_mem_filter hx))

/-- A result that was sent is what handling the request of that id gave. -/
theorem Told.made (h : w.Told J) {id : Nat} {answer : Except E V}
    (hSent : .result id answer ∈ w.sent.map Prod.fst) : ∃ r, r.id = id ∧ (r, answer) ∈ w.answers := by
  obtain ⟨t, ht, hResult⟩ := List.mem_map.mp hSent
  have hMem : (id, answer) ∈ w.results := by
    refine List.mem_filterMap.mpr ⟨t, ht, ?_⟩
    rw [hResult]
    rfl
  obtain ⟨lost, hResults, -⟩ := h.results
  have hTold : (id, answer) ∈ w.answers.map fun a => (a.1.id, a.2) := by
    rw [← hResults, List.append_assoc]
    exact List.mem_append_left _ hMem
  obtain ⟨a, ha, hEqual⟩ := List.mem_map.mp hTold
  cases hEqual
  exact ⟨a.1, rfl, ha⟩

/-! ### All steps -/

/-- The link is closed, or has got the frames put on the channel but those still
on their way. -/
def Delivered [DecidableEq N] (J : JSON (Response E V) N) (depth : Nat) (w : Rpc B E V N) : Prop :=
  w.page.link.closed = true ∨ ∃ delivered : List (Path × Bytes),
    delivered.map Prod.snd ++ w.down = w.log ∧
      w.page.link = delivered.foldl (Link.deliver J depth) Link.new

/-- The messages of the terminal are sent in one frame. -/
structure Short (J : JSON (Response E V) N) : Prop where
  terminal : ∀ data, data.length ≤ 16000 → (J.marshal (.terminal data)).length ≤ 40000
  terminalEnd : (J.marshal .terminalEnd).length ≤ 40000

variable [DecidableEq N]

structure Invariant (J : JSON (Response E V) N) (depth : Nat) (text : Request B → Raw (Request B))
    (path : Path) (w : Rpc B E V N) : Prop where
  asked : w.Asked
  served : w.Served text path
  told : w.Told J
  delivered : w.Delivered J depth

variable {number : Int64 → N} {depth : Nat} {text : Request B → Raw (Request B)} {path : Path}
  {w' : Rpc B E V N} {q : Page B E V N}

/-- The result that a frame completes was made for the request of the call with
its id. -/
theorem Invariant.owns (hJ : ReadsBack J number) (h : w.Invariant J (depth + 1) text path) {f : Bytes}
    {rest : List Bytes} (hDown : w.down = f :: rest)
    (hOpen : (w.page.link.deliver J (depth + 1) (path, f)).closed = false) (id : Nat)
    (answer : Except E V)
    (hDispatched : (w.page.link.deliver J (depth + 1) (path, f)).dispatched =
      w.page.link.dispatched ++ [.result id answer])
    (c : Nat) (call : Call B E V) (hCall : w.page.calls[c]? = some call) (hId : call.id = some id) :
    (⟨id, call.body⟩, answer) ∈ w.answers := by
  rcases h.delivered with hClosed | ⟨delivered, hLog, hLink⟩
  · rw [(grows_deliver J (depth + 1) w.page.link (path, f)).closed hClosed] at hOpen
    cases hOpen
  · obtain ⟨torn, hTally, -⟩ := h.told.tally
    obtain ⟨more, hAccount⟩ := hTally.account
    have hFrames : (delivered ++ [(path, f)]).map Prod.snd ++ (rest ++ more) = w.log ++ more := by
      rw [← hLog, hDown]
      simp
    have hRead := dispatched_of_account depth hJ hAccount hFrames
    rw [List.foldl_concat, ← hLink, hOpen, hDispatched] at hRead
    rcases hRead with hFalse | hPrefix
    · cases hFalse
    · have hSent : .result id answer ∈ w.sent.map Prod.fst :=
        hPrefix.subset (List.mem_append_right _ (List.mem_singleton_self _))
      obtain ⟨r, rfl, hMade⟩ := h.told.made hSent
      have hHandled : r ∈ w.session.handled := by
        rw [← h.told.answers]
        exact List.mem_map_of_mem hMade
      rw [h.asked.own (h.served.issued hHandled) hCall hId]
      exact hMade

/-- A step of the page alone. -/
theorem Invariant.moves (h : w.Invariant J depth text path) (hMoves : Page.Moves w.answers w.page q)
    (hLink : q.link.closed = true ∨ q.link = w.page.link) :
    Invariant J depth text path { w with page := q } := by
  refine ⟨h.asked.moves hMoves, ⟨h.served.queue, h.served.skipped, h.served.stopped, h.served.relay⟩,
    h.told.same rfl rfl rfl rfl rfl rfl rfl id (.inl rfl), ?_⟩
  rcases hLink with hClosed | hSame
  · exact .inl hClosed
  · show q.link.closed = true ∨ ∃ delivered : List (Path × Bytes), delivered.map Prod.snd ++ w.down = w.log ∧
      q.link = delivered.foldl (Link.deliver J depth) Link.new
    rw [hSame]
    exact h.delivered

/-- A send begins. -/
theorem Invariant.lock (h : w.Invariant J depth text path) {who : Sender} {m : Response E V} {id : Int64}
    {sending : Sending (Response E V)} (reply : Option (Response E V))
    (hLock : w.session.sending.lock J who m id = some sending)
    (hLoop : who = .loop → w.session.reply = some m ∧ reply = none)
    (hOther : who ≠ .loop → reply = w.session.reply ∧ m.result? = none ∧ (J.marshal m).length ≤ 40000) :
    Invariant J depth text path { w with
      session := { w.session with sending := sending, reply := reply }, sent := w.sent ++ [(m, id)] } :=
  ⟨h.asked.same rfl rfl h.asked.page, h.served.same rfl rfl rfl (fun hc => hc) (.inl rfl) rfl,
    h.told.lock hLock hLoop hOther, h.delivered⟩

/-- A write that is no result keeps the invariant. -/
theorem Invariant.write (h : w.Invariant J depth text path) {who : Sender} {m : Response E V} {id : Int64}
    (hWrite : w.write J who m id = some w') (hResult : m.result? = none)
    (hShort : (J.marshal m).length ≤ 40000) : w'.Invariant J depth text path := by
  obtain ⟨s, hSend, rfl⟩ := Option.map_eq_some_iff.mp hWrite
  obtain ⟨hWho, sending, hLock, rfl⟩ := Session.send_some hSend
  exact h.lock w.session.reply hLock (fun hLoop => absurd hLoop hWho)
    fun _ => ⟨rfl, hResult, hShort⟩

/-- A call goes on, and sends its request or is refused. -/
theorem Invariant.resume (h : w.Invariant J (depth + 1) text path) {c : Nat} {throws : Bool}
    (hStep : w.step J (depth + 1) text path (.resume c throws) = some w') :
    w'.Invariant J (depth + 1) text path := by
  obtain ⟨⟨q, sent⟩, hResume, rfl⟩ := Option.map_eq_some_iff.mp hStep
  have hMoves := Page.moves_resume h.asked.page hResume
  have hMoved := h.moves hMoves (.inr (Page.resume_link hResume))
  cases sent with
  | none => simpa using hMoved
  | some r =>
      obtain ⟨hNew, hSeq, hCall⟩ := Page.resume_sends hResume
      have hAsked := h.asked.sends (r := r) (by omega) hMoves (by omega) ⟨c, hCall⟩
      exact ⟨hAsked, hMoved.served.same rfl rfl rfl id (.inl rfl) rfl,
        hMoved.told.same rfl rfl rfl rfl rfl rfl rfl id (.inl rfl), hMoved.delivered⟩

/-- A request arrives at the loop, or is too much for its queue. -/
theorem Invariant.arrive (h : w.Invariant J (depth + 1) text path) {done : Bool}
    (hStep : w.step J (depth + 1) text path (.arrive done) = some w') :
    w'.Invariant J (depth + 1) text path := by
  simp only [Rpc.step] at hStep
  split at hStep
  · cases hStep
  · next r rest hUp =>
      cases hStep
      have hServed := h.served.arrive r rest done
      obtain ⟨relay, -, hAccept | hAccept⟩ := Session.arrives_cases done (text r) h.served.relay
      all_goals
        refine ⟨h.asked.same rfl ?_ h.asked.page, hServed, ?_, h.delivered⟩
        · simp [issued, hUp]
        · rw [hAccept]
          exact h.told.same rfl rfl rfl rfl rfl rfl rfl (by simp) (.inl rfl)

/-- The loop answers the first request of its queue. -/
theorem Invariant.take (hRead : ∀ r r', (text r).request = some r' → r' = r)
    (h : w.Invariant J (depth + 1) text path) {answer : Except E V}
    (hStep : w.step J (depth + 1) text path (.take answer) = some w') :
    w'.Invariant J (depth + 1) text path := by
  have hTold := h.told.take hStep
  obtain ⟨s, hTake, rfl⟩ := Option.map_eq_some_iff.mp hStep
  refine ⟨h.asked.same rfl rfl ⟨h.asked.page.toSound.more _, h.asked.page.ended⟩,
    h.served.take hRead hTake _, hTold, h.delivered⟩

/-- The loop returns, and makes no further answer. -/
theorem Invariant.quit (h : w.Invariant J (depth + 1) text path)
    (hStep : w.step J (depth + 1) text path .quit = some w') :
    w'.Invariant J (depth + 1) text path := by
  obtain ⟨s, hQuit, rfl⟩ := Option.map_eq_some_iff.mp hStep
  unfold Session.quit at hQuit
  split at hQuit
  · next hReady =>
      cases hQuit
      exact ⟨h.asked.same rfl rfl h.asked.page,
        h.served.same rfl rfl rfl id (.inr ⟨rfl, hReady.2⟩) rfl,
        h.told.same rfl rfl rfl rfl rfl rfl rfl id (.inr ⟨hReady.1, rfl⟩), h.delivered⟩
  · cases hQuit

/-- A cancelled session keeps the invariant. -/
theorem Invariant.cancel (h : w.Invariant J (depth + 1) text path)
    (hStep : w.step J (depth + 1) text path .cancel = some w') :
    w'.Invariant J (depth + 1) text path := by
  cases hStep
  exact ⟨h.asked.same rfl rfl h.asked.page, h.served.same rfl rfl rfl (fun _ => rfl) (.inl rfl) rfl,
    h.told.same rfl rfl rfl rfl rfl rfl rfl (fun _ => rfl) (.inl rfl), h.delivered⟩

/-- A reply that is sent is the one that was handled. -/
theorem Invariant.sendReply (h : w.Invariant J (depth + 1) text path) {id : Int64}
    (hStep : w.step J (depth + 1) text path (.sendReply id) = some w') :
    w'.Invariant J (depth + 1) text path := by
  obtain ⟨m, hReply, hRest⟩ := Option.bind_eq_some_iff.mp hStep
  obtain ⟨s, hSend, rfl⟩ := Option.map_eq_some_iff.mp hRest
  obtain ⟨m', sending, hReply', hLock, rfl⟩ := Session.sendReply_some hSend
  obtain rfl : m = m' := Option.some.inj (hReply.symm.trans hReply')
  exact h.lock none hLock (fun _ => ⟨hReply, rfl⟩) fun hOther => absurd rfl hOther

/-- The answer at hand cannot be sent, and is the last one. -/
theorem Invariant.replyFails (h : w.Invariant J (depth + 1) text path)
    (hStep : w.step J (depth + 1) text path .replyFails = some w') :
    w'.Invariant J (depth + 1) text path := by
  obtain ⟨s, hFails, rfl⟩ := Option.map_eq_some_iff.mp hStep
  have hTold := h.told.replyFails hFails
  unfold Session.replyFails at hFails
  split at hFails
  · cases hFails
    exact ⟨h.asked.same rfl rfl h.asked.page,
      h.served.same rfl rfl rfl (fun _ => rfl) (.inr ⟨rfl, rfl⟩) rfl, hTold, h.delivered⟩
  · cases hFails

/-- A frame is put on the channel: it is on its way, and in the log. -/
theorem Invariant.put (h : w.Invariant J (depth + 1) text path)
    (hStep : w.step J (depth + 1) text path .put = some w') :
    w'.Invariant J (depth + 1) text path := by
  obtain ⟨⟨f, s⟩, hPut, rfl⟩ := Option.map_eq_some_iff.mp hStep
  have hTold := h.told.put hPut (w.down ++ [f])
  obtain ⟨⟨f, sending⟩, hSending, hPair⟩ := Option.map_eq_some_iff.mp hPut
  cases hPair
  refine ⟨h.asked.same rfl rfl h.asked.page, h.served.same rfl rfl rfl id (.inl rfl) rfl, hTold, ?_⟩
  rcases h.delivered with hClosed | ⟨delivered, hLog, hLink⟩
  · exact .inl hClosed
  · refine .inr ⟨delivered, ?_, hLink⟩
    show _ ++ (w.down ++ [f]) = w.log ++ [f]
    rw [← List.append_assoc, hLog]

/-- A frame is lost with what was left of its message. -/
theorem Invariant.putFails (h : w.Invariant J (depth + 1) text path)
    (hStep : w.step J (depth + 1) text path .putFails = some w') :
    w'.Invariant J (depth + 1) text path := by
  obtain ⟨s, hFails, rfl⟩ := Option.map_eq_some_iff.mp hStep
  have hTold := h.told.putFails hFails
  obtain ⟨who, f, rest, -, -, hQueue, hHandled, -, hRelay, hWho⟩ := Session.putFails_some hFails
  refine ⟨h.asked.same rfl rfl h.asked.page, ?_, hTold, h.delivered⟩
  rcases hWho with ⟨-, hCancelled, hStopped⟩ | ⟨-, hCancelled, hStopped⟩
  · exact h.served.same rfl hQueue hHandled (fun _ => hCancelled) (.inr ⟨hStopped, hCancelled⟩) hRelay
  · exact h.served.same rfl hQueue hHandled (fun hc => hCancelled.trans hc) (.inl hStopped) hRelay

/-- The sender that is through lets go of the lock. -/
theorem Invariant.unlock (h : w.Invariant J (depth + 1) text path)
    (hStep : w.step J (depth + 1) text path .unlock = some w') :
    w'.Invariant J (depth + 1) text path := by
  obtain ⟨s, hUnlock, rfl⟩ := Option.map_eq_some_iff.mp hStep
  have hTold := h.told.unlock hUnlock
  obtain ⟨sending, -, rfl⟩ := Option.map_eq_some_iff.mp hUnlock
  exact ⟨h.asked.same rfl rfl h.asked.page, h.served.same rfl rfl rfl id (.inl rfl) rfl, hTold,
    h.delivered⟩

/-- A frame arrives at the page; the results that it completes are those that were made. -/
theorem Invariant.deliver (hJ : ReadsBack J number) (h : w.Invariant J (depth + 1) text path)
    (hStep : w.step J (depth + 1) text path .deliver = some w') :
    w'.Invariant J (depth + 1) text path := by
  simp only [Rpc.step] at hStep
  split at hStep
  · cases hStep
  · next f rest hDown =>
      cases hStep
      have hMoves : Page.Moves w.answers w.page (w.page.deliver J (depth + 1) (path, f)) :=
        Page.moves_deliver h.asked.page fun hOpen id answer hDispatched =>
          h.owns hJ hDown hOpen id answer hDispatched
      refine ⟨(h.asked.moves hMoves).same rfl rfl hMoves.consistent,
        h.served.same rfl rfl rfl id (.inl rfl) rfl,
        h.told.same rfl rfl rfl rfl rfl rfl rfl id (.inl rfl), ?_⟩
      show (w.page.deliver J (depth + 1) (path, f)).link.closed = true ∨ _
      rw [Page.deliver_link]
      rcases h.delivered with hClosed | ⟨delivered, hLog, hLink⟩
      · exact .inl ((grows_deliver J (depth + 1) w.page.link (path, f)).closed hClosed)
      · refine .inr ⟨delivered ++ [(path, f)], ?_, ?_⟩
        · rw [← hLog, hDown]
          simp
        · rw [hLink, List.foldl_concat]

/-- Every step keeps what the page, the loop and the link between them know. -/
theorem Invariant.step (hJ : ReadsBack J number) (hShort : Short J)
    (hRead : ∀ r r', (text r).request = some r' → r' = r) {l : RpcLabel B E V}
    (h : w.Invariant J (depth + 1) text path) (hStep : w.step J (depth + 1) text path l = some w') :
    w'.Invariant J (depth + 1) text path := by
  cases l with
  | call b =>
      cases hStep
      exact h.moves (Page.moves_call h.asked.page b) (.inr rfl)
  | resolve =>
      cases hStep
      exact h.moves (Page.moves_resolve h.asked.page) (.inr (Page.resolve_link w.page))
  | resume c throws => exact h.resume hStep
  | timeout id =>
      obtain ⟨q, hFires, rfl⟩ := Option.map_eq_some_iff.mp hStep
      exact h.moves (Page.moves_timeout h.asked.page hFires) (.inr (Page.timeout_link hFires))
  | close =>
      cases hStep
      exact h.moves (Page.moves_close h.asked.page) (.inl (Page.closed_close w.page))
  | fail =>
      cases hStep
      exact h.moves (Page.moves_fail h.asked.page) (.inl (Page.closed_fail w.page))
  | arrive done => exact h.arrive hStep
  | take answer => exact h.take hRead hStep
  | quit => exact h.quit hStep
  | cancel => exact h.cancel hStep
  | sendReply id => exact h.sendReply hStep
  | replyFails => exact h.replyFails hStep
  | write who data id =>
      simp only [Rpc.step] at hStep
      split at hStep
      · next hSize => exact h.write hStep rfl (hShort.terminal data hSize)
      · cases hStep
  | ended id => exact h.write hStep rfl hShort.terminalEnd
  | put => exact h.put hStep
  | putFails => exact h.putFails hStep
  | unlock => exact h.unlock hStep
  | deliver => exact h.deliver hJ hStep

/-- In every reachable state. -/
theorem invariant (hJ : ReadsBack J number) (hShort : Short J)
    (hRead : ∀ r r', (text r).request = some r' → r' = r)
    (h : Reachable (system J (depth + 1) text path) w) : w.Invariant J (depth + 1) text path := by
  refine h.invariant (fun w hw => ?_) fun w l w' hw hStep => hw.step hJ hShort hRead hStep
  cases hw
  refine ⟨⟨⟨Page.sound_new, fun _ => rfl⟩, fun r hr => (by cases hr), List.Pairwise.nil,
    fun r hr => (by cases hr)⟩, ⟨⟨[], [], rfl, rfl, List.prefix_rfl, fun _ => rfl⟩,
    fun x hx => (by cases hx), fun hStopped => (by cases hStopped), fun _ => rfl⟩,
    ⟨rfl, ⟨[], rfl, fun hEmpty => absurd rfl hEmpty⟩, fun m hm => (by cases hm),
      fun hf => (by cases hf), fun who rest hHolder => (by cases hHolder),
      false, .free (.whole []), fun ht => (by cases ht)⟩, .inr ⟨[], rfl, rfl⟩⟩

end Rpc
end NetConductor
