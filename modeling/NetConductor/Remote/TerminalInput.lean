import NetConductor.Remote.Listing
import NetConductor.Remote.Session
import NetConductor.Text.CodeUnits

/-! What is typed or pasted into the terminal of the page, on its way to the
program on the device. The page sends each string as one request. -/
namespace NetConductor
open Routine

/-! ### The requests of the page -/

/-- `new TextEncoder().encode`. -/
def textEncode (data : List UInt16) : Bytes := utf8 (String.ofList (CodeUnits.scalarValues data))

/-- JSON text of the call `stdin`. -/
def stdinText (id : Nat) (b : Bytes) : List Char :=
  "\x7b\"id\":".toList ++ (toString id).toList ++ ",\"op\":\"stdin\",\"data\":\"".toList ++
    Base64.encode b ++ "\"\x7d".toList

def stdinBytes (id : Nat) (b : Bytes) : Bytes := asciiBytes (stdinText id b)

/-- What `terminal.onData` has the link send, by whichever way; `seq` counts the
calls before. -/
def onData (seq : Nat) (data : List UInt16) : List Bytes := [stdinBytes (seq + 1) (textEncode data)]

def stdinRequest (b : Bytes) : RemoteRequest :=
  ⟨"stdin", "", "", String.ofList (Base64.encode b), 0, 0, 0⟩

/-! ### The ways to the session -/

/-- The identifier of a session, from `core.Token`. -/
structure SID where
  text : List Char
  length : text.length = 64

/-- A data channel carries messages of 64 KiB, also where neither end says how
long they may be. -/
structure DataChannel where
  maxMessageSize : Nat
  atLeast : 65536 ≤ maxMessageSize

/-- A request takes the data channel, or the server passes it on: to its own
session, or to that of an agent. -/
inductive RequestRoute where
  | channel (c : DataChannel)
  | cloud
  | agent (sid : SID)

/-- The limit of both WebSockets. -/
def readLimit : Nat := 128 * 1024

def relayMessage (text : Bytes) : Bytes :=
  asciiBytes "\x7b\"type\":\"relay\",\"data\":".toList ++ text ++ asciiBytes "\x7d".toList

def agentMessage (sid : SID) (text : Bytes) : Bytes :=
  asciiBytes ("\x7b\"sid\":\"".toList ++ sid.text ++ "\",\"type\":\"relay\",\"data\":".toList) ++ text ++
    asciiBytes "\x7d\n".toList

/-- A `json.RawMessage` as it is written again: without white space between its
parts, and escaped for HTML. -/
def compact : Nat → Bool → Bytes → Bytes
  | 0, _, _ => []
  | _, _, [] => []
  | fuel + 1, inString, b :: rest =>
      if b = 38 ∨ b = 60 ∨ b = 62 then unicodeEscape b.toNat ++ compact fuel inString rest
      else if lineSeparator b rest then
        unicodeEscape (if rest.take 2 = [0x80, 0xA8] then 0x2028 else 0x2029) ++
          compact fuel inString (rest.drop 2)
      else if inString then
        if b = 92 then b :: rest.take 1 ++ compact fuel true (rest.drop 1)
        else b :: compact fuel (b ≠ 34) rest
      else if b = 9 ∨ b = 10 ∨ b = 13 ∨ b = 32 then compact fuel false rest
      else b :: compact fuel (b = 34) rest

/-- The bytes that come to the session. A connection fails on a message beyond
its limit, and `send` of a data channel on one beyond the channel's. -/
def RequestRoute.carry (text : Bytes) : RequestRoute → Option Bytes
  | .channel c => if text.length ≤ c.maxMessageSize then some text else none
  | .cloud => if (relayMessage text).length ≤ readLimit then some text else none
  | .agent sid =>
      let forwarded := compact text.length false text
      if (relayMessage text).length ≤ readLimit ∧ (agentMessage sid forwarded).length ≤ readLimit then
        some forwarded
      else none

/-! ### At the session -/

/-- All that was written to the program. -/
def stdinData (acts : List Act) : Bytes :=
  acts.flatMap fun
    | .writeStdin b => b
    | _ => []

variable {M : Type}

/-- A message as the session takes it. -/
def rawRequest (unmarshal : Bytes → Option RemoteRequest) (b : Bytes) : Raw RemoteRequest :=
  ⟨b.length, unmarshal b⟩

def Session.acceptAll (unmarshal : Bytes → Option RemoteRequest) (done : Bool)
    (s : Session RemoteRequest M) (texts : List Bytes) : Session RemoteRequest M :=
  texts.foldl (fun s b => s.accept done (rawRequest unmarshal b)) s

theorem Session.acceptAll_singleton (unmarshal : Bytes → Option RemoteRequest) (done : Bool)
    (s : Session RemoteRequest M) (b : Bytes) :
    s.acceptAll unmarshal done [b] = s.accept done (rawRequest unmarshal b) := rfl

/-- The session's loop, over what waits in its queue. -/
def Access.handleAll (out : Outside) (a : Access) (raws : List (Raw RemoteRequest)) : Access :=
  (raws.filterMap Raw.request).foldl (fun a r => a.after (out, r)) a

/-- An SSH session whose terminal runs. -/
structure Access.TerminalOpen (a : Access) : Prop where
  mode : a.mode = "ssh"
  client : a.client = true
  stdin : a.stdin = true

/-- All requests arrive and are queued, and the program gets the string's bytes. -/
structure InputAccepted (unmarshal : Bytes → Option RemoteRequest) (done : Bool) (route : RequestRoute) (out : Outside)
    (s : Session RemoteRequest M) (a : Access) (texts : List Bytes) (input : Bytes) : Prop where
  carried : ∀ text ∈ texts, (route.carry text).isSome
  short : ∀ b ∈ texts.filterMap route.carry, b.length ≤ 65536
  running : (s.acceptAll unmarshal done (texts.filterMap route.carry)).cancelled = false
  queued : (s.acceptAll unmarshal done (texts.filterMap route.carry)).queue =
    s.queue ++ (texts.filterMap route.carry).map (rawRequest unmarshal)
  written : stdinData (a.handleAll out ((texts.filterMap route.carry).map (rawRequest unmarshal))).acts =
    stdinData a.acts ++ input

/-! ### The text of a request -/

/-- How long the request for `n` bytes is. -/
def stdinLength (id n : Nat) : Nat := 30 + (toString id).length + 4 * ((n + 2) / 3)

/-- The length of a request that carries `b`. -/
theorem length_stdinBytes (id : Nat) (b : Bytes) : (stdinBytes id b).length = stdinLength id b.length := by
  have hOpen : "\x7b\"id\":".toList.length = 6 := by decide +kernel
  have hData : ",\"op\":\"stdin\",\"data\":\"".toList.length = 22 := by decide +kernel
  have hClose : "\"\x7d".toList.length = 2 := by decide +kernel
  unfold stdinBytes stdinText stdinLength
  simp only [length_asciiBytes, List.length_append, hOpen, hData, hClose, Base64.encode_length,
    String.length_toList]
  omega

/-- The bytes at which writing a text again may differ from it. -/
def altered : Bytes := [9, 10, 13, 32, 38, 60, 62, 92, 0xE2]

def unaltered (c : Char) : Bool := decide (UInt8.ofNat c.toNat ∉ altered)

/-- A text without the altered bytes is compact already. -/
theorem compact_unaltered {s : Bytes} (h : ∀ b ∈ s, b ∉ altered) {fuel : Nat} (hFuel : s.length ≤ fuel)
    (inString : Bool) : compact fuel inString s = s := by
  induction s generalizing fuel inString with
  | nil => cases fuel <;> rfl
  | cons b rest ih =>
      obtain ⟨fuel, rfl⟩ : ∃ n, fuel = n + 1 :=
        Nat.exists_eq_succ_of_ne_zero (by rw [List.length_cons] at hFuel; omega)
      have hRest := fun inString => ih (fun c hc => h c (List.mem_cons_of_mem b hc))
        (Nat.le_of_succ_le_succ hFuel) inString
      have hFirst := h b List.mem_cons_self
      simp only [altered, List.mem_cons, List.not_mem_nil, or_false, not_or] at hFirst
      have hLine : lineSeparator b rest = false := by simp [lineSeparator, hFirst]
      cases inString <;> simp [compact, hFirst, hLine, hRest]

theorem isDigit_of_mem_toString {id : Nat} {c : Char} (h : c ∈ (toString id).toList) : c.isDigit = true := by
  change c ∈ (Nat.repr id).toList at h
  rw [Nat.repr, String.toList_ofList] at h
  exact Nat.isDigit_of_mem_toDigits (by decide) (by decide) h

theorem digit_unaltered {c : Char} (h : c.isDigit = true) : UInt8.ofNat c.toNat ∉ altered := by
  have hRange : 48 ≤ c.toNat ∧ c.toNat ≤ 57 := by simpa [Char.isDigit, UInt32.le_iff_toNat_le] using h
  intro hMem
  simp only [altered, List.mem_cons, List.not_mem_nil, or_false, ← UInt8.toNat_inj, UInt8.toNat_ofNat'] at hMem
  simp at hMem
  omega

theorem base64_unaltered : ∀ n < 64, UInt8.ofNat (Base64.digit n).toNat ∉ altered := by decide +kernel

/-- A request with input is such a text. -/
theorem stdinBytes_unaltered (id : Nat) (data : Bytes) : ∀ b ∈ stdinBytes id data, b ∉ altered := by
  have hOpen : "\x7b\"id\":".toList.all unaltered = true := by decide +kernel
  have hKey : ",\"op\":\"stdin\",\"data\":\"".toList.all unaltered = true := by decide +kernel
  have hClose : "\"\x7d".toList.all unaltered = true := by decide +kernel
  intro b hb
  unfold stdinBytes stdinText asciiBytes at hb
  obtain ⟨c, hc, rfl⟩ := List.mem_map.mp hb
  simp only [List.mem_append, or_assoc] at hc
  rcases hc with hc | hc | hc | hc | hc
  · exact of_decide_eq_true (List.all_eq_true.mp hOpen c hc)
  · exact digit_unaltered (isDigit_of_mem_toString hc)
  · exact of_decide_eq_true (List.all_eq_true.mp hKey c hc)
  · rcases List.mem_append.mp hc with hc | hc
    · obtain ⟨n, hn, rfl⟩ := Base64.mem_raw hc
      exact base64_unaltered n hn
    · rw [List.eq_of_mem_replicate hc]
      decide
  · exact of_decide_eq_true (List.all_eq_true.mp hClose c hc)

/-! ### One request -/

theorem length_relayMessage (text : Bytes) : (relayMessage text).length = text.length + 24 := by
  have hOpen : "\x7b\"type\":\"relay\",\"data\":".toList.length = 23 := by decide +kernel
  have hClose : "\x7d".toList.length = 1 := by decide +kernel
  rw [relayMessage, List.length_append, List.length_append, length_asciiBytes, length_asciiBytes, hOpen, hClose]
  omega

theorem length_agentMessage (sid : SID) (text : Bytes) :
    (agentMessage sid text).length = text.length + 98 := by
  have hOpen : "\x7b\"sid\":\"".toList.length = 8 := by decide +kernel
  have hType : "\",\"type\":\"relay\",\"data\":".toList.length = 24 := by decide +kernel
  have hClose : "\x7d\n".toList.length = 2 := by decide +kernel
  unfold agentMessage
  rw [List.length_append, List.length_append, length_asciiBytes, length_asciiBytes, List.length_append,
    List.length_append, hOpen, hType, hClose, sid.length]
  omega

/-- A request that arrives is what was sent. -/
theorem carry_unaltered {route : RequestRoute} {text b : Bytes} (hText : ∀ b ∈ text, b ∉ altered)
    (h : route.carry text = some b) : b = text := by
  have hSame : compact text.length false text = text := compact_unaltered hText (Nat.le_refl _) false
  cases route with
  | channel c => simp_all [RequestRoute.carry]
  | cloud => simp_all [RequestRoute.carry]
  | agent sid => simp_all [RequestRoute.carry]

/-- What a session accepts passes every way to it. -/
theorem carry_short (route : RequestRoute) {text : Bytes} (hText : ∀ b ∈ text, b ∉ altered)
    (hShort : text.length ≤ 65536) : route.carry text = some text := by
  have hSame : compact text.length false text = text := compact_unaltered hText (Nat.le_refl _) false
  have hRelay : (relayMessage text).length ≤ readLimit := by
    rw [length_relayMessage, readLimit]
    omega
  cases route with
  | channel c => exact if_pos (hShort.trans c.atLeast)
  | cloud => exact if_pos hRelay
  | agent sid =>
      have hAgent : (agentMessage sid text).length ≤ readLimit := by
        rw [length_agentMessage, readLimit]
        omega
      simp only [RequestRoute.carry, hSame]
      exact if_pos ⟨hRelay, hAgent⟩

/-- Input reaches the terminal that is open. -/
theorem handle_stdin {a : Access} (hOpen : a.TerminalOpen) (out : Outside) (b : Bytes) :
    (a.after (out, stdinRequest b)).acts = a.acts ++ [.connect, .writeStdin b] := by
  have hDecode : Access.decodeString out (String.ofList (Base64.encode b)) = .ok b := by
    rw [Access.decodeString, String.toList_ofList, Base64.decodeString_encode]
  simp [Access.after, Access.handle, Access.connect, Access.terminalRequest, Access.writeStdin, Access.deref,
    stdinRequest, outcome_bind, hOpen.mode, hOpen.client, hOpen.stdin, hDecode, Except.mapError]

/-- A string is accepted just when its request has at most 64 KiB, over a third
of which go into base64, and the queue has room for it. -/
theorem input_accepted_iff (unmarshal : Bytes → Option RemoteRequest)
    (hRead : ∀ id b, unmarshal (stdinBytes id b) = some (stdinRequest b)) (done : Bool) (route : RequestRoute)
    (out : Outside) {s : Session RemoteRequest M} (hRunning : s.cancelled = false) {a : Access}
    (hOpen : a.TerminalOpen) (seq : Nat) (data : List UInt16) :
    InputAccepted unmarshal done route out s a (onData seq data) (textEncode data) ↔
      stdinLength (seq + 1) (textEncode data).length ≤ 65536 ∧ s.queue.length < 64 := by
  have hText := stdinBytes_unaltered (seq + 1) (textEncode data)
  rw [← length_stdinBytes]
  constructor
  · intro h
    obtain ⟨b, hCarry⟩ := Option.isSome_iff_exists.mp (h.carried _ (List.mem_singleton_self _))
    obtain rfl := carry_unaltered hText hCarry
    have hArrived : (onData seq data).filterMap route.carry = [stdinBytes (seq + 1) (textEncode data)] := by
      simp [onData, hCarry]
    have hShort := h.short _ (hArrived ▸ List.mem_singleton_self _)
    refine ⟨hShort, Nat.lt_of_not_le fun hFull => ?_⟩
    have hKept := h.running
    rw [hArrived, Session.acceptAll_singleton, Session.accept_cancels (.inr hFull)] at hKept
    cases hKept
  · rintro ⟨hShort, hRoom⟩
    have hCarry := carry_short route hText hShort
    have hArrived : (onData seq data).filterMap route.carry = [stdinBytes (seq + 1) (textEncode data)] := by
      simp [onData, hCarry]
    have hQueued : s.acceptAll unmarshal done [stdinBytes (seq + 1) (textEncode data)] =
        { s with queue := s.queue ++ [rawRequest unmarshal (stdinBytes (seq + 1) (textEncode data))] } := by
      rw [Session.acceptAll_singleton]
      exact Session.accept_queued hRunning hShort hRoom
    have hHandled : (a.handleAll out [rawRequest unmarshal (stdinBytes (seq + 1) (textEncode data))]).acts =
        a.acts ++ [.connect, .writeStdin (textEncode data)] := by
      rw [← handle_stdin hOpen out, Access.handleAll, rawRequest, hRead]
      rfl
    constructor
    case carried =>
      intro text hMem
      rw [List.mem_singleton.mp hMem, hCarry]
      rfl
    case short =>
      intro b hb
      rw [hArrived, List.mem_singleton] at hb
      rwa [hb]
    case running => rw [hArrived, hQueued, hRunning]
    case queued => rw [hArrived, hQueued, List.map_singleton]
    case written =>
      rw [hArrived, List.map_singleton, hHandled, stdinData, List.flatMap_append]
      simp [stdinData]

/-! ### A short string and a long one -/

/-- A reader of requests of the terminal: what stands after the key of the data,
up to the next quote. -/
def readStdin (text : Bytes) : Option RemoteRequest :=
  let digits := (text.drop 6).takeWhile (· ≠ 44)
  let data := (text.drop (28 + digits.length)).takeWhile (· ≠ 34)
  some ⟨"stdin", "", "", String.ofList (data.map fun b => Char.ofNat b.toNat), 0, 0, 0⟩

/-- The request that the page writes is read back as it was. -/
theorem readStdin_stdinBytes (id : Nat) (b : Bytes) : readStdin (stdinBytes id b) = some (stdinRequest b) := by
  have hKey : asciiBytes ",\"op\":\"stdin\",\"data\":\"".toList =
      44 :: asciiBytes "\"op\":\"stdin\",\"data\":\"".toList := by decide +kernel
  have hClose : asciiBytes "\"\x7d".toList = [34, 125] := by decide +kernel
  have hOpenLength : (asciiBytes "\x7b\"id\":".toList).length = 6 := by decide +kernel
  have hKeyLength : (asciiBytes ",\"op\":\"stdin\",\"data\":\"".toList).length = 22 := by decide +kernel
  have hParts : stdinBytes id b = asciiBytes "\x7b\"id\":".toList ++ (asciiBytes (toString id).toList ++
      (asciiBytes ",\"op\":\"stdin\",\"data\":\"".toList ++ (asciiBytes (Base64.encode b) ++ [34, 125]))) := by
    unfold stdinBytes stdinText
    simp only [asciiBytes_append, List.append_assoc, hClose]
  have hDigits : ((stdinBytes id b).drop 6).takeWhile (· ≠ 44) = asciiBytes (toString id).toList := by
    rw [hParts, ← hOpenLength, List.drop_left, hKey]
    refine takeWhile_append_stop fun y hy => ?_
    obtain ⟨c, hc, rfl⟩ := List.mem_map.mp hy
    have hRange : 48 ≤ c.toNat ∧ c.toNat ≤ 57 := by
      simpa [Char.isDigit, UInt32.le_iff_toNat_le] using isDigit_of_mem_toString hc
    intro hComma
    have hValue := congrArg UInt8.toNat hComma
    simp at hValue
    omega
  have hData : ((stdinBytes id b).drop (28 + (asciiBytes (toString id).toList).length)).takeWhile (· ≠ 34) =
      asciiBytes (Base64.encode b) := by
    rw [hParts, show 28 + (asciiBytes (toString id).toList).length =
      (asciiBytes "\x7b\"id\":".toList).length + ((asciiBytes (toString id).toList).length +
        (asciiBytes ",\"op\":\"stdin\",\"data\":\"".toList).length) by
      rw [hOpenLength, hKeyLength]
      omega,
      List.drop_length_add_append, List.drop_length_add_append, List.drop_left]
    refine takeWhile_append_stop fun y hy => ?_
    obtain ⟨c, hc, rfl⟩ := List.mem_map.mp hy
    exact (plain_of_mem_encode hc).1
  have hBack : (asciiBytes (Base64.encode b)).map (fun x => Char.ofNat x.toNat) = Base64.encode b := by
    rw [asciiBytes, List.map_map]
    exact (List.map_congr_left fun c hc => (plain_of_mem_encode hc).2).trans (List.map_id _)
  rw [readStdin]
  simp only [hDigits, hData, hBack, stdinRequest]

/-- A session whose terminal waits for input. -/
def typing : Access := { Transfer.connected with mode := "ssh", terminal := true, stdin := true }

def typingOutside : Outside := Transfer.plainServer.answer ∅ (stdinRequest [])

theorem typing_open : typing.TerminalOpen := ⟨rfl, rfl, rfl⟩

theorem command_accepted : InputAccepted readStdin false .cloud typingOutside (Session.new (M := Unit)) typing
    (onData 0 [108, 115, 13]) (textEncode [108, 115, 13]) :=
  (input_accepted_iff readStdin readStdin_stdinBytes false .cloud typingOutside rfl typing_open 0
    [108, 115, 13]).mpr ⟨by decide +kernel, by decide⟩

theorem scalarValues_replicate (n : Nat) : CodeUnits.scalarValues (List.replicate n 97) = List.replicate n 'a' := by
  induction n with
  | zero => rfl
  | succ n ih =>
      rw [List.replicate_succ, CodeUnits.scalarValues_single (by decide), ih, List.replicate_succ]
      rfl

theorem length_textEncode_replicate (n : Nat) : (textEncode (List.replicate n 97)).length = n := by
  have hASCII : ∀ c ∈ List.replicate n 'a', c.toNat < 128 := by
    intro c hc
    rw [List.eq_of_mem_replicate hc]
    decide
  rw [textEncode, scalarValues_replicate, utf8_ascii hASCII, length_asciiBytes, List.length_replicate]

/-- A paste of 50000 letters. -/
def paste : List UInt16 := List.replicate 50000 97

theorem length_paste : (stdinBytes 1 (textEncode paste)).length = 66699 := by
  rw [length_stdinBytes, paste, length_textEncode_replicate]
  decide +kernel

/-- Between the two limits a request cancels the server's own session. -/
theorem long_cancels {seq : Nat} {data : List UInt16}
    (hLong : 65536 < (stdinBytes (seq + 1) (textEncode data)).length)
    (hRelay : (stdinBytes (seq + 1) (textEncode data)).length + 24 ≤ readLimit)
    (unmarshal : Bytes → Option RemoteRequest) (done : Bool) (s : Session RemoteRequest M) :
    (s.acceptAll unmarshal done ((onData seq data).filterMap RequestRoute.cloud.carry)).cancelled = true := by
  have hCarry : RequestRoute.cloud.carry (stdinBytes (seq + 1) (textEncode data)) =
      some (stdinBytes (seq + 1) (textEncode data)) := by
    rw [RequestRoute.carry, length_relayMessage, if_pos hRelay]
  have hArrived : (onData seq data).filterMap RequestRoute.cloud.carry =
      [stdinBytes (seq + 1) (textEncode data)] := by
    simp [onData, hCarry]
  rw [hArrived, Session.acceptAll_singleton]
  exact Session.accept_cancels (.inl hLong)

/-- A paste of that length ends the session. -/
theorem paste_refused :
    ((Session.new (M := Unit)).acceptAll readStdin false ((onData 0 paste).filterMap RequestRoute.cloud.carry)).cancelled =
      true ∧
    ¬InputAccepted readStdin false .cloud typingOutside (Session.new (M := Unit)) typing (onData 0 paste)
      (textEncode paste) := by
  have hLong : 65536 < (stdinBytes 1 (textEncode paste)).length := by
    rw [length_paste]
    decide
  have hRelay : (stdinBytes 1 (textEncode paste)).length + 24 ≤ readLimit := by
    rw [length_paste]
    decide
  have hCancelled := @long_cancels Unit 0 paste hLong hRelay readStdin false (Session.new (M := Unit))
  refine ⟨hCancelled, fun h => ?_⟩
  have hRunning := h.running
  rw [hCancelled] at hRunning
  cases hRunning

end NetConductor
