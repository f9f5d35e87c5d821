import NetConductor.Remote.Framing

/-! A session and a browser with one channel between them: whatever the order
of the sends, the browser dispatches what was sent. -/
namespace NetConductor
open Transition

variable {M N : Type}

namespace Sending

def empty : Sending M := ⟨[], none⟩

/-- What the holder of the mutex has still to put on a channel. -/
def remaining (s : Sending M) : List Bytes :=
  match s.holder with
  | some (_, rest) => rest
  | none => []

/-- The frames put so far are those of the sends begun, but for the rest of the
last one. -/
def Accounts (J : JSON M N) (s : Sending M) (log : List Bytes) : Prop :=
  log ++ s.remaining = s.taken.flatMap fun t => frames t.2 (J.marshal t.1)

variable {J : JSON M N} {s s' : Sending M} {log : List Bytes}

theorem lock_some {who : Sender} {m : M} {id : Int64} (h : s.lock J who m id = some s') :
    s.holder = none ∧ s' = ⟨s.taken ++ [(m, id)], some (who, frames id (J.marshal m))⟩ := by
  unfold lock at h
  split at h
  · next hFree => exact ⟨hFree, (Option.some.inj h).symm⟩
  · cases h

theorem put_some {f : Bytes} (h : s.put = some (f, s')) :
    ∃ who rest, s.holder = some (who, f :: rest) ∧ s' = { s with holder := some (who, rest) } := by
  unfold put at h
  split at h
  · next who f' rest hHeld =>
      cases h
      exact ⟨who, rest, hHeld, rfl⟩
  · cases h

theorem unlock_some (h : s.unlock = some s') :
    ∃ who, s.holder = some (who, []) ∧ s' = { s with holder := none } := by
  unfold unlock at h
  split at h
  · next who hHeld =>
      cases h
      exact ⟨who, hHeld, rfl⟩
  · cases h

/-- Taking the lock keeps the accounts. -/
theorem Accounts.lock {who : Sender} {m : M} {id : Int64} (h : s.Accounts J log)
    (hLock : s.lock J who m id = some s') : s'.Accounts J log := by
  obtain ⟨hFree, rfl⟩ := lock_some hLock
  simp only [Accounts, remaining, hFree, List.append_nil] at h
  simp [Accounts, remaining, h]

theorem Accounts.put {f : Bytes} (h : s.Accounts J log) (hPut : s.put = some (f, s')) :
    s'.Accounts J (log ++ [f]) := by
  obtain ⟨who, rest, hHeld, rfl⟩ := put_some hPut
  simpa [Accounts, remaining, hHeld] using h

theorem Accounts.unlock (h : s.Accounts J log) (hUnlock : s.unlock = some s') :
    s'.Accounts J log := by
  obtain ⟨who, hHeld, rfl⟩ := unlock_some hUnlock
  simpa [Accounts, remaining, hHeld] using h

/-- Every frame put is one of some message sent. -/
theorem Accounts.length_lt (h : s.Accounts J log) {f : Bytes} (hf : f ∈ log) :
    f.length < 48 * 1024 := by
  have hMem : f ∈ s.taken.flatMap fun t => frames t.2 (J.marshal t.1) := by
    rw [← h]
    exact List.mem_append_left _ hf
  obtain ⟨t, -, hFrame⟩ := List.mem_flatMap.mp hMem
  exact length_frames hFrame

end Sending

variable [DecidableEq N]

/-- What a browser that has received the frames of the log in order has
dispatched: the messages sent, one after another, and in the end all of them. -/
theorem dispatched_of_accounts {J : JSON M N} {number : Int64 → N} (depth : Nat)
    (hJ : ReadsBack J number) {s : Sending M} {log : List Bytes} (h : s.Accounts J log)
    (hSize : ∀ t ∈ s.taken, (J.marshal t.1).length ≤ Link.maxMessage)
    {delivered : List (Path × Bytes)} {channel : List Bytes}
    (hLog : delivered.map Prod.snd ++ channel = log) :
    (delivered.foldl (Link.deliver J (depth + 1)) Link.new).dispatched <+: s.sent ∧
      (delivered.foldl (Link.deliver J (depth + 1)) Link.new).closed = false ∧
      (s.holder = none → channel = [] →
        (delivered.foldl (Link.deliver J (depth + 1)) Link.new).dispatched = s.sent) := by
  have hAll : (delivered.map Prod.snd ++ channel) ++ s.remaining =
      s.taken.flatMap fun t => frames t.2 (J.marshal t.1) := by
    rw [hLog]
    exact h
  -- the rest of the frames, on any path
  have hFrames : (delivered ++ (channel ++ s.remaining).map fun f => (Path.direct, f)).map Prod.snd =
      s.taken.flatMap fun t => frames t.2 (J.marshal t.1) := by
    rw [← hAll]
    simp [Function.comp_def]
  have hFull := deliver_all depth [] hJ hSize hFrames
  have hGrows := grows_foldl J (depth + 1)
    (delivered.foldl (Link.deliver J (depth + 1)) Link.new)
    ((channel ++ s.remaining).map fun f => (Path.direct, f))
  rw [List.foldl_append, List.nil_append] at hFull
  rw [show (⟨∅, [], false⟩ : Link M N) = Link.new from rfl] at hFull
  rw [hFull] at hGrows
  refine ⟨hGrows.dispatched, ?_, fun hFree hEmpty => ?_⟩
  · by_contra hClosed
    exact absurd (hGrows.closed (by simpa using hClosed)) (by simp)
  · have hRest : s.remaining = [] := by simp only [Sending.remaining, hFree]
    rw [hEmpty, hRest] at hFull
    simpa [Sending.sent] using congrArg Link.dispatched hFull

/-! ### One channel -/

/-- The log holds all frames that were put on the channel. -/
structure Wire (M N : Type) where
  sending : Sending M
  log : List Bytes
  channel : List Bytes
  link : Link M N

inductive WireLabel (M : Type) where
  | lock (who : Sender) (m : M) (id : Int64)
  | put
  | unlock
  | deliver

namespace Wire

def step (J : JSON M N) (depth : Nat) (path : Path) (w : Wire M N) : WireLabel M → Option (Wire M N)
  | .lock who m id => (w.sending.lock J who m id).map fun s => { w with sending := s }
  | .put => w.sending.put.map fun fs =>
      { w with sending := fs.2, log := w.log ++ [fs.1], channel := w.channel ++ [fs.1] }
  | .unlock => w.sending.unlock.map fun s => { w with sending := s }
  | .deliver =>
      match w.channel with
      | [] => none
      | f :: rest => some { w with channel := rest, link := w.link.deliver J depth (path, f) }

/-- No message is longer than the browser takes. -/
def Admitted (J : JSON M N) : WireLabel M → Prop
  | .lock _ m _ => (J.marshal m).length ≤ Link.maxMessage
  | _ => True

def system (J : JSON M N) (depth : Nat) (path : Path) : System (Wire M N) (WireLabel M) where
  initial w := w = ⟨.empty, [], [], .new⟩
  step w l w' := Admitted J l ∧ w.step J depth path l = some w'

structure Invariant (J : JSON M N) (depth : Nat) (path : Path) (w : Wire M N) : Prop where
  accounts : w.sending.Accounts J w.log
  sizes : ∀ t ∈ w.sending.taken, (J.marshal t.1).length ≤ Link.maxMessage
  received : ∃ delivered : List Bytes, delivered ++ w.channel = w.log ∧
    w.link = (delivered.map fun f => (path, f)).foldl (Link.deliver J depth) Link.new

variable {J : JSON M N} {number : Int64 → N} {depth : Nat} {path : Path}

/-- Every step keeps frames, channel and link together. -/
theorem Invariant.step {w w' : Wire M N} {l : WireLabel M} (h : w.Invariant J depth path)
    (hStep : (system J depth path).step w l w') : w'.Invariant J depth path := by
  obtain ⟨hAdmitted, hStep⟩ := hStep
  cases l with
  | lock who m id =>
      obtain ⟨s, hLock, rfl⟩ := Option.map_eq_some_iff.mp hStep
      refine ⟨h.accounts.lock hLock, fun t ht => ?_, h.received⟩
      obtain ⟨-, rfl⟩ := Sending.lock_some hLock
      rcases List.mem_append.mp ht with ht | ht
      · exact h.sizes t ht
      · rw [List.mem_singleton.mp ht]
        exact hAdmitted
  | put =>
      obtain ⟨⟨f, s⟩, hPut, rfl⟩ := Option.map_eq_some_iff.mp hStep
      obtain ⟨delivered, hLog, hLink⟩ := h.received
      refine ⟨h.accounts.put hPut, ?_, delivered, by simp [← hLog], hLink⟩
      obtain ⟨who, rest, -, rfl⟩ := Sending.put_some hPut
      exact h.sizes
  | unlock =>
      obtain ⟨s, hUnlock, rfl⟩ := Option.map_eq_some_iff.mp hStep
      refine ⟨h.accounts.unlock hUnlock, ?_, h.received⟩
      obtain ⟨who, -, rfl⟩ := Sending.unlock_some hUnlock
      exact h.sizes
  | deliver =>
      simp only [Wire.step] at hStep
      split at hStep
      · cases hStep
      · next f rest hChannel =>
          cases hStep
          obtain ⟨delivered, hLog, hLink⟩ := h.received
          refine ⟨h.accounts, h.sizes, delivered ++ [f], ?_, ?_⟩
          · simp [← hLog, hChannel]
          · simp [hLink]

/-- The invariant in every reachable state. -/
theorem invariant {w : Wire M N} (h : Reachable (system J depth path) w) :
    w.Invariant J depth path := by
  refine h.invariant (fun w hw => ?_) fun w l w' hw hStep => hw.step hStep
  cases hw
  exact ⟨rfl, by simp [Sending.empty], [], rfl, rfl⟩

/-- The holder of the mutex can put all that it has still to put. -/
theorem exists_put {taken : List (M × Int64)} {who : Sender} {rest log channel : List Bytes}
    {link : Link M N}
    (h : Reachable (system J depth path) ⟨⟨taken, some (who, rest)⟩, log, channel, link⟩) :
    ∃ log' channel', Reachable (system J depth path)
      ⟨⟨taken, some (who, [])⟩, log', channel', link⟩ := by
  induction rest generalizing log channel with
  | nil => exact ⟨log, channel, h⟩
  | cons f rest ih => exact ih (h.next (l := .put) ⟨trivial, rfl⟩)

/-- While nobody holds the mutex, any message of that size can be sent. -/
theorem exists_send {taken : List (M × Int64)} {log channel : List Bytes} {link : Link M N}
    (h : Reachable (system J depth path) ⟨⟨taken, none⟩, log, channel, link⟩) (who : Sender)
    (id : Int64) {m : M} (hSize : (J.marshal m).length ≤ Link.maxMessage) :
    ∃ log' channel', Reachable (system J depth path)
      ⟨⟨taken ++ [(m, id)], none⟩, log', channel', link⟩ := by
  have hLocked : Reachable (system J depth path)
      ⟨⟨taken ++ [(m, id)], some (who, frames id (J.marshal m))⟩, log, channel, link⟩ :=
    h.next (l := .lock who m id) ⟨hSize, rfl⟩
  obtain ⟨log', channel', hPut⟩ := exists_put hLocked
  exact ⟨log', channel', hPut.next (l := .unlock) ⟨trivial, rfl⟩⟩

/-- What is on the channel arrives. -/
theorem exists_deliver {sending : Sending M} {log channel : List Bytes} {link : Link M N}
    (h : Reachable (system J depth path) ⟨sending, log, channel, link⟩) :
    ∃ link', Reachable (system J depth path) ⟨sending, log, [], link'⟩ := by
  induction channel generalizing link with
  | nil => exact ⟨link, h⟩
  | cons f rest ih => exact ih (h.next (l := .deliver) ⟨trivial, rfl⟩)

end Wire

/-- In every reachable state of one in-order channel, every frame is smaller
than 48 KiB, and the browser has dispatched the messages in the order in which
their sends took the mutex, all of them once the channel is empty. -/
theorem framing_round_trip {J : JSON M N} {number : Int64 → N} (hJ : ReadsBack J number)
    {depth : Nat} {path : Path} {w : Wire M N} (h : Reachable (Wire.system J (depth + 1) path) w) :
    (∀ f ∈ w.log, f.length < 48 * 1024) ∧ w.link.dispatched <+: w.sending.sent ∧
      w.link.closed = false ∧
      (w.sending.holder = none → w.channel = [] → w.link.dispatched = w.sending.sent) := by
  obtain ⟨hAccounts, hSizes, delivered, hLog, hLink⟩ := Wire.invariant h
  rw [hLink]
  exact ⟨fun f hf => hAccounts.length_lt hf,
    dispatched_of_accounts depth hJ hAccounts hSizes (by simpa [Function.comp_def] using hLog)⟩

/-! ### A channel with one message -/

theorem asciiBytes_append (s t : List Char) : asciiBytes (s ++ t) = asciiBytes s ++ asciiBytes t := by
  simp [asciiBytes]

def endText : List Char := "\x7b\"type\":\"terminalEnd\"\x7d".toList

/-- A session that only tells that its terminal ended, and a browser that keeps
the digits of a chunk's id. -/
def endJSON : JSON Unit Bytes where
  marshal _ := asciiBytes endText
  parse b :=
    if b = asciiBytes endText then some (.message ())
    else
      let id := (b.drop 9).takeWhile (· ≠ 44)
      let data := (b.drop (9 + id.length + 9)).takeWhile (· ≠ 34)
      some (.chunk id (data.map fun x => Char.ofNat x.toNat)
        (decide ((b.drop (9 + id.length + 9 + data.length + 9)).head? = some 116)))

/-- A clock value is written with digits, behind a sign if it is negative. -/
theorem mem_toString_id {id : Int64} {c : Char} (h : c ∈ (toString id.toInt).toList) :
    c = '-' ∨ c.isDigit = true := by
  have hDigit : ∀ n, ∀ c ∈ (Nat.repr n).toList, c.isDigit = true := fun n c hc => by
    rw [Nat.repr, String.toList_ofList] at hc
    exact Nat.isDigit_of_mem_toDigits (by decide) (by decide) hc
  cases hId : id.toInt with
  | ofNat n =>
      rw [hId] at h
      exact .inr (hDigit n c h)
  | negSucc n =>
      rw [hId, show toString (Int.negSucc n) = "-" ++ Nat.repr (n + 1) from rfl, String.toList_append,
        List.mem_append] at h
      rcases h with h | h
      · exact .inl (by simpa using h)
      · exact .inr (hDigit _ c h)

theorem digit_plain : ∀ n < 64, UInt8.ofNat (Base64.digit n).toNat ≠ 34 ∧
    Char.ofNat (UInt8.ofNat (Base64.digit n).toNat).toNat = Base64.digit n := by decide +kernel

theorem plain_of_mem_encode {b : Bytes} {c : Char} (h : c ∈ Base64.encode b) :
    UInt8.ofNat c.toNat ≠ 34 ∧ Char.ofNat (UInt8.ofNat c.toNat).toNat = c := by
  rcases List.mem_append.mp h with h | h
  · obtain ⟨n, hn, rfl⟩ := Base64.mem_raw h
    exact digit_plain n hn
  · rw [List.eq_of_mem_replicate h]
    decide

theorem takeWhile_append_stop {x : UInt8} {s t : Bytes} (h : ∀ y ∈ s, y ≠ x) :
    (s ++ x :: t).takeWhile (· ≠ x) = s := by
  have hAll : ∀ y ∈ s, (decide (y ≠ x)) = true := fun y hy => decide_eq_true (h y hy)
  rw [List.takeWhile_append_of_pos hAll, List.takeWhile_cons_of_neg (by simp), List.append_nil]

/-- The parts of a chunk, read off one after another. -/
theorem endJSON_parse_chunk {text open' id key data flag last : Bytes}
    (hText : text = open' ++ (id ++ (44 :: key ++ (data ++ (34 :: flag ++ last)))))
    (hEnd : text ≠ asciiBytes endText) (hOpen : open'.length = 9) (hId : ∀ x ∈ id, x ≠ 44)
    (hKey : key.length = 8) (hData : ∀ x ∈ data, x ≠ 34) (hFlag : flag.length = 8) :
    endJSON.parse text = some (.chunk id (data.map fun x => Char.ofNat x.toNat)
      (decide (last.head? = some 116))) := by
  have hAtId : text.drop 9 = id ++ 44 :: (key ++ (data ++ (34 :: flag ++ last))) := by
    rw [hText, ← hOpen, List.drop_left]
    rfl
  have hAtData : text.drop (9 + id.length + 9) = data ++ 34 :: (flag ++ last) := by
    rw [hText, show 9 + id.length + 9 = open'.length + (id.length + (44 :: key).length) by
      simp [hOpen, hKey]; omega]
    rw [List.drop_length_add_append, List.drop_length_add_append, List.drop_left]
    rfl
  have hAtLast : text.drop (9 + id.length + 9 + data.length + 9) = last := by
    rw [hText, show 9 + id.length + 9 + data.length + 9 =
      open'.length + (id.length + ((44 :: key).length + (data.length + (34 :: flag).length))) by
      simp [hOpen, hKey, hFlag]; omega]
    rw [List.drop_length_add_append, List.drop_length_add_append, List.drop_length_add_append,
      List.drop_length_add_append, List.drop_left]
  simp only [endJSON, if_neg hEnd, hAtId, takeWhile_append_stop hId, hAtData,
    takeWhile_append_stop hData, hAtLast]

theorem chunkFrame_eq (id : Int64) (data : Bytes) (last : Bool) : chunkFrame id data last =
    asciiBytes "\x7b\"chunk\":".toList ++ (asciiBytes (toString id.toInt).toList ++
      (asciiBytes ",\"data\":\"".toList ++ (asciiBytes (Base64.encode data) ++
        (asciiBytes "\",\"last\":".toList ++ (asciiBytes (toString last).toList ++
          asciiBytes ",\"type\":\"chunk\"\x7d".toList))))) := by
  unfold chunkFrame chunkText
  simp only [asciiBytes_append, List.append_assoc]

/-- This codec reads back its message and every chunk. -/
theorem endJSON_readsBack : ReadsBack endJSON fun id => asciiBytes (toString id.toInt).toList where
  message _ := by simp [endJSON]
  chunk id data last := by
    have hKey : asciiBytes ",\"data\":\"".toList = 44 :: asciiBytes "\"data\":\"".toList := by
      decide +kernel
    have hFlag : asciiBytes "\",\"last\":".toList = 34 :: asciiBytes ",\"last\":".toList := by
      decide +kernel
    have hText := chunkFrame_eq id data last
    rw [hKey, hFlag] at hText
    have hNotEnd : chunkFrame id data last ≠ asciiBytes endText := by
      intro hEq
      have hThird := congrArg (fun b : Bytes => b[2]?) (hText.symm.trans hEq)
      have hOpen : asciiBytes "\x7b\"chunk\":".toList = [123, 34, 99, 104, 117, 110, 107, 34, 58] := by
        decide +kernel
      have hEndThird : (asciiBytes endText)[2]? = some 116 := by decide +kernel
      rw [hOpen, hEndThird] at hThird
      simp at hThird
    have hDecoded : (asciiBytes (Base64.encode data)).map (fun x => Char.ofNat x.toNat) =
        Base64.encode data := by
      rw [asciiBytes, List.map_map]
      conv_rhs => rw [← List.map_id (Base64.encode data)]
      exact List.map_congr_left fun c hc => (plain_of_mem_encode hc).2
    have hLast : decide ((asciiBytes (toString last).toList ++
        asciiBytes ",\"type\":\"chunk\"\x7d".toList).head? = some 116) = last := by
      cases last <;> decide +kernel
    rw [endJSON_parse_chunk hText hNotEnd (by decide +kernel) ?_ (by decide +kernel) ?_
      (by decide +kernel), hDecoded, hLast]
    · intro x hx
      obtain ⟨c, hc, rfl⟩ := List.mem_map.mp hx
      rcases mem_toString_id hc with rfl | hDigit
      · decide
      · obtain ⟨hLower, hUpper⟩ := Char.isDigit_iff_toNat.mp hDigit
        intro hComma
        have hValue := congrArg UInt8.toNat hComma
        rw [UInt8.toNat_ofNat', show (44 : UInt8).toNat = 44 from rfl] at hValue
        have hZero : '0'.toNat = 48 := rfl
        have hNine : '9'.toNat = 57 := rfl
        omega
    · intro x hx
      obtain ⟨c, hc, rfl⟩ := List.mem_map.mp hx
      exact (plain_of_mem_encode hc).1

/-! ### A channel with two senders -/

inductive SessionMessage where
  | result
  | ended

/-- The answer to a request, with a text of that length. -/
def longText (n : Nat) : List Char :=
  "\x7b\"id\":1,\"ok\":true,\"result\":\"".toList ++
    (List.replicate n 'A' ++ "\",\"type\":\"result\"\x7d".toList)

/-- A session that answers one request besides. -/
def sessionJSON (n : Nat) : JSON SessionMessage Bytes where
  marshal
    | .result => asciiBytes (longText n)
    | .ended => asciiBytes endText
  parse b :=
    if b = asciiBytes (longText n) then some (.message .result)
    else match endJSON.parse b with
      | some (.message ()) => some (.message .ended)
      | some (.chunk id data last) => some (.chunk id data last)
      | none => none

theorem third_longText (n : Nat) : (asciiBytes (longText n))[2]? = some 105 := by
  have hThird : (asciiBytes "\x7b\"id\":1,\"ok\":true,\"result\":\"".toList)[2]? = some 105 := by
    decide +kernel
  unfold longText
  rw [asciiBytes_append, List.getElem?_append_left, hThird]
  exact (List.getElem?_eq_some_iff.mp hThird).1

/-- The length of a long answer. -/
theorem length_longText (n : Nat) : (asciiBytes (longText n)).length = n + 46 := by
  have hOpen : (asciiBytes "\x7b\"id\":1,\"ok\":true,\"result\":\"".toList).length = 28 := by
    decide +kernel
  have hClose : (asciiBytes "\",\"type\":\"result\"\x7d".toList).length = 18 := by decide +kernel
  have hData : (asciiBytes (List.replicate n 'A')).length = n := by
    rw [asciiBytes, List.length_map, List.length_replicate]
  unfold longText
  rw [asciiBytes_append, asciiBytes_append, List.length_append, List.length_append, hOpen, hClose,
    hData]
  omega

/-- The codec with two messages reads back what it has written. -/
theorem sessionJSON_readsBack (n : Nat) :
    ReadsBack (sessionJSON n) fun id => asciiBytes (toString id.toInt).toList where
  message m := by
    cases m with
    | result => exact if_pos rfl
    | ended =>
        have hOther : asciiBytes endText ≠ asciiBytes (longText n) := by
          intro hEq
          have hThird := (congrArg (fun b : Bytes => b[2]?) hEq).trans (third_longText n)
          exact absurd hThird (by decide +kernel)
        have hEnded : endJSON.parse (asciiBytes endText) = some (.message ()) :=
          endJSON_readsBack.message ()
        simp only [sessionJSON, if_neg hOther, hEnded]
  chunk id data last := by
    have hOther : chunkFrame id data last ≠ asciiBytes (longText n) := by
      intro hEq
      have hThird := (congrArg (fun b : Bytes => b[2]?) hEq).trans (third_longText n)
      rw [chunkFrame_eq, List.getElem?_append_left (by decide +kernel)] at hThird
      exact absurd hThird (by decide +kernel)
    simp only [sessionJSON, if_neg hOther, endJSON_readsBack.chunk id data last]

/-- The loop answers in chunks, the terminal ends behind it, and both messages arrive
in this order. -/
theorem framing_round_trip_two_senders : ∃ n,
    2 < (frames 7 ((sessionJSON n).marshal .result)).length ∧
    ∃ w : Wire SessionMessage Bytes, w.sending.sent = [.result, .ended] ∧
      w.link.dispatched = w.sending.sent := by
  obtain ⟨n, hn⟩ : ∃ n, n = 50000 := ⟨_, rfl⟩
  have hLong : ((sessionJSON n).marshal .result).length = n + 46 := length_longText n
  have hShort : ((sessionJSON n).marshal .ended).length = 22 := rfl
  have hMax : Link.maxMessage = 4194304 := rfl
  have hStart : Reachable (Wire.system (sessionJSON n) 1 .direct) ⟨⟨[], none⟩, [], [], .new⟩ :=
    Reachable.initial rfl
  obtain ⟨log, channel, hAnswered⟩ := Wire.exists_send hStart .loop 7 (m := .result) (by omega)
  obtain ⟨log', channel', hEnded⟩ := Wire.exists_send hAnswered .terminalEnd 8 (m := .ended) (by omega)
  obtain ⟨link, hArrived⟩ := Wire.exists_deliver hEnded
  refine ⟨n, ?_, _, rfl, (framing_round_trip (sessionJSON_readsBack n) hArrived).2.2.2 rfl rfl⟩
  rw [frames, if_pos (by omega), List.length_map, Pieces.pieces_more (by decide) (by omega),
    Pieces.pieces_more (by decide) (by rw [List.length_drop]; omega), Pieces.pieces_last]
  · exact Nat.lt_succ_self 2
  · rw [← List.length_pos_iff, List.length_drop, List.length_drop]
    omega
  · rw [List.length_drop, List.length_drop]
    omega

end NetConductor
