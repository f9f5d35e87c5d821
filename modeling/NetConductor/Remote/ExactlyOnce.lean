import NetConductor.Remote.Rpc

/-! What holds of the calls of a page, the requests of its session and their
results after any steps on one channel. -/
namespace NetConductor
open Transition

variable {B E V N : Type}

namespace Rpc

/-- No request was put into the queue after one that was skipped. -/
def InTurn (w : Rpc B E V N) : Prop :=
  w.received.Pairwise fun first second => second.2 = true → first.2 = true

structure HandledInOrder (text : Request B → Raw (Request B)) (w : Rpc B E V N) : Prop where
  order : w.session.handled <+: w.queued
  once : (w.session.handled.map Request.id).Nodup
  inTurn : w.InTurn → w.session.handled <+: w.received.map Prod.fst
  skipped : w.session.cancelled = false → ∃ waiting, w.session.queue = waiting.map text ∧
    w.session.handled ++ waiting = w.received.map Prod.fst

/-- The results sent are those of the requests handled, one each and in order;
the last may be missing while the loop has it, and where its send failed. -/
structure AnsweredOnce (w : Rpc B E V N) : Prop where
  handled : w.answers.map Prod.fst = w.session.handled
  once : w.results <+: w.answers.map fun a => (a.1.id, a.2)
  all : w.failed = false → w.session.reply = none → w.results = w.answers.map fun a => (a.1.id, a.2)
  failed : w.failed = true → w.session.cancelled = true ∧ w.session.stopped = true

structure SettledOnce (w : Rpc B E V N) : Prop where
  once : ∀ call ∈ w.page.calls, call.outcomes.length ≤ 1
  own : ∀ call ∈ w.page.calls, ∀ answer, .answered answer ∈ call.outcomes →
    ∃ id, call.id = some id ∧ (⟨id, call.body⟩, answer) ∈ w.answers
  named : ∀ (c d : Nat) (call other : Call B E V) (id : Nat), w.page.calls[c]? = some call →
    w.page.calls[d]? = some other → call.id = some id → other.id = some id → c = d

/-- A filter that keeps nothing after what it drops keeps the first elements. -/
theorem filter_keeps_first {α : Type} {p : α → Bool} {l : List α}
    (h : l.Pairwise fun a b => p b = true → p a = true) : l.filter p <+: l := by
  induction l with
  | nil => exact List.prefix_rfl
  | cons a l ih =>
      obtain ⟨hFirst, hRest⟩ := List.pairwise_cons.mp h
      cases ha : p a with
      | true =>
          rw [List.filter_cons_of_pos ha]
          exact (List.prefix_cons_inj a).mpr (ih hRest)
      | false =>
          have hNone : l.filter p = [] := by
            refine List.filter_eq_nil_iff.mpr fun b hb hpb => ?_
            rw [hFirst b hb hpb] at ha
            cases ha
          rw [List.filter_cons_of_neg (by simp [ha]), hNone]
          exact List.nil_prefix

variable {w : Rpc B E V N} {text : Request B → Raw (Request B)} {path : Path}

/-- Requests are handled in the order in which they were sent, each once. -/
theorem Served.handledInOrder (h : w.Served text path) (hAsked : w.Asked) : w.HandledInOrder text := by
  obtain ⟨taken, waiting, hQueued, hQueue, hHandled, hAll⟩ := h.queue
  have hOrder : w.session.handled <+: w.queued := by
    rw [hQueued]
    exact hHandled.trans (List.prefix_append ..)
  refine ⟨hOrder, ?_, fun hTurn => hOrder.trans ((filter_keeps_first hTurn).map Prod.fst), fun hOpen => ?_⟩
  · -- the ids of the requests sent grow
    have hIssued : w.queued.Sublist w.issued :=
      (List.filter_sublist.map Prod.fst).trans (List.sublist_append_left ..)
    have hSublist := (hOrder.sublist.trans hIssued).map Request.id
    exact (hAsked.increasing.sublist hSublist).imp fun hLt => Nat.ne_of_lt hLt
  · have hRunning : w.session.stopped = false := by
      by_contra hStopped
      rw [h.stopped (by simpa using hStopped)] at hOpen
      cases hOpen
    have hKept : ∀ x ∈ w.received, x.2 = true := fun x hx => by
      by_contra hSkipped
      rw [h.skipped x hx (by simpa using hSkipped)] at hOpen
      cases hOpen
    refine ⟨waiting, hQueue, ?_⟩
    rw [hAll hRunning, ← hQueued, queued, List.filter_eq_self.mpr hKept]

/-- Each request that was handled has one answer. -/
theorem Told.answeredOnce {J : JSON (Response E V) N} (h : w.Told J) : w.AnsweredOnce := by
  obtain ⟨lost, hResults, hLost⟩ := h.results
  refine ⟨h.answers, ?_, fun hSent hReply => ?_, h.failed⟩
  · rw [← hResults, List.append_assoc]
    exact List.prefix_append ..
  · have hNothing : lost = [] := by
      by_contra hSome
      rw [hLost hSome] at hSent
      cases hSent
    rw [hReply, hNothing] at hResults
    simpa using hResults

/-- A call that is settled is settled once. -/
theorem Asked.settledOnce (h : w.Asked) : w.SettledOnce := by
  have hFits : ∀ call ∈ w.page.calls, ∃ c, w.page.Fits w.answers c call := fun call hCall => by
    obtain ⟨c, hc⟩ := List.mem_iff_getElem?.mp hCall
    exact ⟨c, h.page.calls c call hc⟩
  refine ⟨fun call hCall => ?_, fun call hCall => ?_, h.page.named⟩
  · obtain ⟨c, hc⟩ := hFits call hCall
    exact hc.once
  · obtain ⟨c, hc⟩ := hFits call hCall
    exact hc.own

end Rpc

/-- On one channel, whatever the order of the steps: the requests handled are,
each once and in the order of their arrival, the first of those queued, and of
those received as long as none overtakes one that was skipped; each has one
result, but for a send that fails and cancels the session; and each call is
settled once at most, by no other result than its own. -/
theorem rpc_exactly_once [DecidableEq N] {J : JSON (Response E V) N} {number : Int64 → N}
    (hJ : ReadsBack J number) (hShort : Rpc.Short J) {text : Request B → Raw (Request B)}
    (hRead : ∀ r r', (text r).request = some r' → r' = r) {depth : Nat} {path : Path}
    {w : Rpc B E V N} (h : Reachable (Rpc.system J (depth + 1) text path) w) :
    w.HandledInOrder text ∧ w.AnsweredOnce ∧ w.SettledOnce := by
  obtain ⟨hAsked, hServed, hTold, -⟩ := Rpc.invariant hJ hShort hRead h
  exact ⟨hServed.handledInOrder hAsked, hTold.answeredOnce, hAsked.settledOnce⟩

/-! ### A session that answers every request alike -/

def resultText (id : Nat) : List Char :=
  "\x7b\"id\":".toList ++ Nat.toDigits 10 id ++ ",\"ok\":true,\"result\":null,\"type\":\"result\"\x7d".toList

def terminalText (data : Bytes) : List Char :=
  "\x7b\"data\":\"".toList ++ Base64.encode data ++ "\",\"type\":\"terminal\"\x7d".toList

/-- The characters before the next `stop`. -/
def charsUpTo (stop : UInt8) (b : Bytes) : List Char :=
  (b.takeWhile (· ≠ stop)).map fun x => Char.ofNat x.toNat

/-- The first letter of the first key tells the messages apart. -/
def parseResult (b : Bytes) : Option (Incoming (Response Empty Unit) Bytes) :=
  if b.getD 2 0 = 105 then
    some (.message (.result (Nat.ofDigitChars 10 (charsUpTo 44 (b.drop 6)) 0) (.ok ())))
  else if b.getD 2 0 = 100 then
    (Base64.atob (charsUpTo 34 (b.drop 9))).map fun data => .message (.terminal data)
  else if b.getD 2 0 = 116 then some (.message .terminalEnd)
  else
    match endJSON.parse b with
    | some (.chunk id data last) => some (.chunk id data last)
    | _ => none

def resultJSON : JSON (Response Empty Unit) Bytes where
  marshal
    | .result id _ => asciiBytes (resultText id)
    | .terminal data => asciiBytes (terminalText data)
    | .terminalEnd => asciiBytes endText
  parse := parseResult

@[simp] theorem resultJSON_parse (b : Bytes) : resultJSON.parse b = parseResult b := rfl

@[simp] theorem resultJSON_result (id : Nat) (answer : Except Empty Unit) :
    resultJSON.marshal (.result id answer) = asciiBytes (resultText id) := rfl

@[simp] theorem resultJSON_terminal (data : Bytes) :
    resultJSON.marshal (.terminal data) = asciiBytes (terminalText data) := rfl

@[simp] theorem resultJSON_terminalEnd : resultJSON.marshal .terminalEnd = asciiBytes endText := rfl

/-- Characters of one byte each are read back. -/
theorem charsUpTo_append {stop : UInt8} {text : List Char} (rest : Bytes)
    (h : ∀ c ∈ text, UInt8.ofNat c.toNat ≠ stop ∧ Char.ofNat (UInt8.ofNat c.toNat).toNat = c) :
    charsUpTo stop (asciiBytes text ++ stop :: rest) = text := by
  have hStop : ∀ x ∈ asciiBytes text, x ≠ stop := by
    intro x hx
    obtain ⟨c, hc, rfl⟩ := List.mem_map.mp hx
    exact (h c hc).1
  rw [charsUpTo, takeWhile_append_stop hStop, asciiBytes, List.map_map]
  conv_rhs => rw [← List.map_id text]
  exact List.map_congr_left fun c hc => (h c hc).2

/-- A digit is no comma, and comes back from its byte. -/
theorem plain_of_mem_digits {n : Nat} {c : Char} (h : c ∈ Nat.toDigits 10 n) :
    UInt8.ofNat c.toNat ≠ 44 ∧ Char.ofNat (UInt8.ofNat c.toNat).toNat = c := by
  obtain ⟨hLower, hUpper⟩ :=
    Char.isDigit_iff_toNat.mp (Nat.isDigit_of_mem_toDigits (by decide) (by decide) h)
  have hZero : '0'.toNat = 48 := rfl
  have hNine : '9'.toNat = 57 := rfl
  have hByte : (UInt8.ofNat c.toNat).toNat = c.toNat := by
    rw [UInt8.toNat_ofNat', Nat.mod_eq_of_lt (by omega)]
  refine ⟨fun hComma => ?_, by rw [hByte, Char.ofNat_toNat]⟩
  have hValue := congrArg UInt8.toNat hComma
  rw [hByte, show (44 : UInt8).toNat = 44 from rfl] at hValue
  omega

theorem asciiBytes_between {first last : List Char} {key rest : Bytes} {stop : UInt8}
    (text : List Char) (hFirst : asciiBytes first = key) (hLast : asciiBytes last = stop :: rest) :
    asciiBytes (first ++ text ++ last) = key ++ (asciiBytes text ++ stop :: rest) := by
  rw [asciiBytes_append, asciiBytes_append, hFirst, hLast, List.append_assoc]

/-- A result starts with its id. -/
theorem resultText_bytes (id : Nat) : ∃ rest, asciiBytes (resultText id) =
    [123, 34, 105, 100, 34, 58] ++ (asciiBytes (Nat.toDigits 10 id) ++ 44 :: rest) := by
  have hFirst : asciiBytes "\x7b\"id\":".toList = [123, 34, 105, 100, 34, 58] := by decide +kernel
  have hLast : ∃ rest, asciiBytes ",\"ok\":true,\"result\":null,\"type\":\"result\"\x7d".toList =
      44 :: rest := ⟨_, rfl⟩
  obtain ⟨rest, hRest⟩ := hLast
  refine ⟨rest, ?_⟩
  unfold resultText
  exact asciiBytes_between (Nat.toDigits 10 id) hFirst hRest

/-- The text of a terminal message, cut where its data begins. -/
theorem terminalText_bytes (data : Bytes) : ∃ rest, rest.length = 19 ∧ asciiBytes (terminalText data) =
    [123, 34, 100, 97, 116, 97, 34, 58, 34] ++ (asciiBytes (Base64.encode data) ++ 34 :: rest) := by
  have hFirst : asciiBytes "\x7b\"data\":\"".toList = [123, 34, 100, 97, 116, 97, 34, 58, 34] := by
    decide +kernel
  have hLast : ∃ rest, rest.length = 19 ∧
      asciiBytes "\",\"type\":\"terminal\"\x7d".toList = 34 :: rest := ⟨_, rfl, rfl⟩
  obtain ⟨rest, hLength, hRest⟩ := hLast
  refine ⟨rest, hLength, ?_⟩
  unfold terminalText
  exact asciiBytes_between (Base64.encode data) hFirst hRest

/-- A result is read back with its id. -/
theorem parseResult_result (id : Nat) (answer : Except Empty Unit) :
    parseResult (asciiBytes (resultText id)) = some (.message (.result id answer)) := by
  have hAnswer : answer = .ok () := by
    cases answer with
    | error e => cases e
    | ok u => rfl
  obtain ⟨rest, hText⟩ := resultText_bytes id
  have hKey : (asciiBytes (resultText id)).getD 2 0 = 105 := by rw [hText]; rfl
  have hDrop : (asciiBytes (resultText id)).drop 6 = asciiBytes (Nat.toDigits 10 id) ++ 44 :: rest := by
    rw [hText]
    rfl
  rw [parseResult, if_pos hKey, hDrop, charsUpTo_append rest fun c hc => plain_of_mem_digits hc,
    Nat.ofDigitChars_ten_toDigits, hAnswer]

/-- A terminal message is read back with its data. -/
theorem parseResult_terminal (data : Bytes) :
    parseResult (asciiBytes (terminalText data)) = some (.message (.terminal data)) := by
  obtain ⟨rest, -, hText⟩ := terminalText_bytes data
  have hKey : (asciiBytes (terminalText data)).getD 2 0 = 100 := by rw [hText]; rfl
  have hDrop : (asciiBytes (terminalText data)).drop 9 =
      asciiBytes (Base64.encode data) ++ 34 :: rest := by
    rw [hText]
    rfl
  rw [parseResult, if_neg (by rw [hKey]; decide), if_pos hKey, hDrop,
    charsUpTo_append rest fun c hc => plain_of_mem_encode hc, Base64.atob_encode]
  rfl

/-- This codec reads back every message and every chunk. -/
theorem resultJSON_readsBack :
    ReadsBack resultJSON fun id => asciiBytes (toString id.toInt).toList where
  message m := by
    cases m with
    | result id answer => rw [resultJSON_parse, resultJSON_result, parseResult_result id answer]
    | terminal data => rw [resultJSON_parse, resultJSON_terminal, parseResult_terminal]
    | terminalEnd =>
        have hKey : (asciiBytes endText).getD 2 0 = 116 := by decide +kernel
        rw [resultJSON_parse, resultJSON_terminalEnd, parseResult, if_neg (by rw [hKey]; decide), if_neg (by rw [hKey]; decide), if_pos hKey]
  chunk id data last := by
    have hOpen : asciiBytes "\x7b\"chunk\":".toList = [123, 34, 99, 104, 117, 110, 107, 34, 58] := by
      decide +kernel
    have hRead := endJSON_readsBack.chunk id data last
    have hText := chunkFrame_eq id data last
    rw [hOpen] at hText
    have hKey : (chunkFrame id data last).getD 2 0 = 99 := by rw [hText]; rfl
    rw [resultJSON_parse, parseResult, if_neg (by rw [hKey]; decide), if_neg (by rw [hKey]; decide),
      if_neg (by rw [hKey]; decide), hRead]

theorem resultJSON_short : Rpc.Short resultJSON where
  terminal data hSize := by
    obtain ⟨rest, hRest, hText⟩ := terminalText_bytes data
    rw [resultJSON_terminal, hText]
    simp only [List.length_append, List.length_cons, List.length_nil, hRest]
    rw [asciiBytes, List.length_map, Base64.encode_length]
    omega
  terminalEnd := by decide +kernel

/-- Two calls, each settled by its own result. -/
theorem rpc_exactly_once_twice : ∃ w : Rpc Nat Empty Unit Bytes,
    w.session.handled.map Request.id = [1, 2] ∧ w.page.calls.map (fun call => call.outcomes.length) = [1, 1] ∧
      w.HandledInOrder (fun r => ⟨20, some r⟩) ∧ w.AnsweredOnce ∧ w.SettledOnce := by
  have hRun : ∃ w, follow (Rpc.step resultJSON 1 (fun r => ⟨20, some r⟩) .direct)
      (Rpc.new : Rpc Nat Empty Unit Bytes)
      [.call 7, .call 8, .resolve, .resume 0 false, .resume 1 false, .arrive false, .arrive false,
        .take (.ok ()), .sendReply 0, .put, .unlock, .take (.ok ()), .sendReply 0, .put, .deliver,
        .unlock, .deliver] = some w ∧ w.session.handled.map Request.id = [1, 2] ∧
      w.page.calls.map (fun call => call.outcomes.length) = [1, 1] := by
    refine ⟨_, rfl, rfl, ?_⟩
    decide +kernel
  obtain ⟨w, hFollow, hHandled, hSettled⟩ := hRun
  have hReach := (Reachable.initial rfl).runs (runs_of_follow
    (M := Rpc.system resultJSON 1 (fun r : Request Nat => ⟨20, some r⟩) .direct)
    (fun s l t h => h) hFollow)
  exact ⟨w, hHandled, hSettled, rpc_exactly_once resultJSON_readsBack resultJSON_short
    (fun r r' h => (Option.some.inj h).symm) hReach⟩

/-- A request too long for the session is skipped, and a later one is handled all
the same; and a call whose send throws is settled by neither result, timer nor
end of the link. -/
theorem rpc_overtakes_and_throws :
    (¬∀ w : Rpc Nat Empty Unit Bytes,
        Reachable (Rpc.system resultJSON 1 (fun r => ⟨r.body, some r⟩) .direct) w →
          w.session.handled <+: w.received.map Prod.fst) ∧
      ¬∀ w : Rpc Nat Empty Unit Bytes,
        Reachable (Rpc.system resultJSON 1 (fun r => ⟨r.body, some r⟩) .direct) w →
          ∀ call ∈ w.page.calls, ∀ o ∈ call.outcomes,
            o = .timedOut ∨ o = .closed ∨ ∃ answer, o = .answered answer := by
  have hReach : ∀ {labels} {w : Rpc Nat Empty Unit Bytes},
      follow (Rpc.step resultJSON 1 (fun r : Request Nat => ⟨r.body, some r⟩) .direct) .new labels = some w →
        Reachable (Rpc.system resultJSON 1 (fun r => ⟨r.body, some r⟩) .direct) w := fun hFollow =>
    (Reachable.initial rfl).runs (runs_of_follow (fun s l t h => h) hFollow)
  constructor
  · intro hAll
    have hRun : ∃ w, follow (Rpc.step resultJSON 1 (fun r : Request Nat => ⟨r.body, some r⟩) .direct)
        (.new : Rpc Nat Empty Unit Bytes) [.call 70000, .call 20, .resolve, .resume 0 false,
          .resume 1 false, .arrive false, .arrive false, .take (.ok ())] = some w ∧
        w.session.handled = [⟨2, 20⟩] ∧ w.received.map Prod.fst = [⟨1, 70000⟩, ⟨2, 20⟩] :=
      ⟨_, rfl, rfl, rfl⟩
    obtain ⟨w, hFollow, hHandled, hReceived⟩ := hRun
    have hPrefix := hAll w (hReach hFollow)
    rw [hHandled, hReceived] at hPrefix
    exact absurd hPrefix (by decide)
  · intro hAll
    have hRun : ∃ w, follow (Rpc.step resultJSON 1 (fun r : Request Nat => ⟨r.body, some r⟩) .direct)
        (.new : Rpc Nat Empty Unit Bytes) [.call 20, .resolve, .resume 0 true] = some w ∧
        w.page.calls = [⟨20, false, some 1, [.unsent]⟩] := ⟨_, rfl, rfl⟩
    obtain ⟨w, hFollow, hCalls⟩ := hRun
    have hOne := hAll w (hReach hFollow) ⟨20, false, some 1, [.unsent]⟩ (by simp [hCalls]) .unsent (by simp)
    simp at hOne

end NetConductor
