import NetConductor.Core.Bridge
import NetConductor.Core.LocalProxy

/-! What the SOCKS5 entry accepts: its grammar, and that the entry follows it,
however the bytes of the client come in. -/
namespace NetConductor
open GoText GoNet Deadline Sources Source Transition

/-! ### The grammar -/

/-- A kind of address with an encoded host, and the host. -/
inductive EncodesHost : UInt8 → List UInt8 → Chars → Prop where
  | v4 {ip : List UInt8} (h : ip.length = 4) : EncodesHost 1 ip (ipString ip)
  | v6 {ip : List UInt8} (h : ip.length = 16) : EncodesHost 4 ip (ipString ip)
  | name {k : UInt8} {name : List UInt8} (hk : k ≠ 0) (h : name.length = k.toNat) :
      EncodesHost 3 (k :: name) (byteText name)

/-- The host is not all there, or its name is empty. -/
def NoHost (kind : UInt8) (input : List UInt8) : Prop :=
  (kind = 1 ∧ input.length < 4) ∨ (kind = 4 ∧ input.length < 16) ∨
    (kind = 3 ∧ (input = [] ∨ ∃ k name, input = k :: name ∧ (k = 0 ∨ name.length < k.toNat)))

/-- Two bytes, the first one counting more. -/
def bigEndian (hi lo : UInt8) : Nat := hi.toNat * 256 + lo.toNat

/-- What a stream comes to: some bytes in answer and no more, or a dial, with the
bytes that follow the request. -/
inductive SOCKSOutcome where
  | answer (written : List UInt8)
  | dial (address : String) (following : List UInt8)
deriving DecidableEq

def SOCKSOutcome.after (written : List UInt8) : SOCKSOutcome → SOCKSOutcome
  | .answer more => .answer (written ++ more)
  | .dial address following => .dial address following

/-- What follows the greeting. -/
inductive SOCKSRequest : List UInt8 → SOCKSOutcome → Prop where
  | short {input : List UInt8} (h : input.length < 4) : SOCKSRequest input (.answer [])
  | malformed {version command reserved kind : UInt8} {input : List UInt8}
      (h : version ≠ 5 ∨ reserved ≠ 0) :
      SOCKSRequest (version :: command :: reserved :: kind :: input) (.answer [])
  | command {command kind : UInt8} {input : List UInt8} (h : command ≠ 1) :
      SOCKSRequest (5 :: command :: 0 :: kind :: input) (.answer [5, 7, 0, 1, 0, 0, 0, 0, 0, 0])
  | kind {kind : UInt8} {input : List UInt8} (h : kind ≠ 1 ∧ kind ≠ 3 ∧ kind ≠ 4) :
      SOCKSRequest (5 :: 1 :: 0 :: kind :: input) (.answer [5, 8, 0, 1, 0, 0, 0, 0, 0, 0])
  | noHost {kind : UInt8} {input : List UInt8} (h : NoHost kind input) :
      SOCKSRequest (5 :: 1 :: 0 :: kind :: input) (.answer [])
  | noPort {kind : UInt8} {encoded input : List UInt8} {host : Chars}
      (hHost : EncodesHost kind encoded host) (h : input.length < 2) :
      SOCKSRequest (5 :: 1 :: 0 :: kind :: (encoded ++ input)) (.answer [])
  | zeroPort {kind hi lo : UInt8} {encoded following : List UInt8} {host : Chars}
      (hHost : EncodesHost kind encoded host) (h : bigEndian hi lo = 0) :
      SOCKSRequest (5 :: 1 :: 0 :: kind :: (encoded ++ hi :: lo :: following))
        (.answer [5, 1, 0, 1, 0, 0, 0, 0, 0, 0])
  | connect {kind hi lo : UInt8} {encoded following : List UInt8} {host : Chars}
      (hHost : EncodesHost kind encoded host) (h : bigEndian hi lo ≠ 0) :
      SOCKSRequest (5 :: 1 :: 0 :: kind :: (encoded ++ hi :: lo :: following))
        (.dial (String.ofList (joinHostPort host (fmtInt (bigEndian hi lo)).toList)) following)

/-- The whole stream. -/
inductive SOCKSStream : List UInt8 → SOCKSOutcome → Prop where
  | short {input : List UInt8} (h : input.length < 2) : SOCKSStream input (.answer [])
  | version {version n : UInt8} {input : List UInt8} (h : version ≠ 5) :
      SOCKSStream (version :: n :: input) (.answer [])
  | noMethods {n : UInt8} {input : List UInt8} (h : input.length < n.toNat) :
      SOCKSStream (5 :: n :: input) (.answer [])
  | refused {n : UInt8} {methods input : List UInt8} (hMethods : methods.length = n.toNat)
      (h : 0 ∉ methods) : SOCKSStream (5 :: n :: (methods ++ input)) (.answer [5, 255])
  | greeted {n : UInt8} {methods input : List UInt8} {out : SOCKSOutcome}
      (hMethods : methods.length = n.toNat) (h : 0 ∈ methods) (hRequest : SOCKSRequest input out) :
      SOCKSStream (5 :: n :: (methods ++ input)) (out.after [5, 0])

/-! ### The parser follows the grammar -/

def requestOutcome (input : List UInt8) : SOCKSOutcome :=
  match socksRequest input with
  | .error written => .answer written
  | .ok (address, following) => .dial address following

def streamOutcome (input : List UInt8) : SOCKSOutcome :=
  match socksGreeting input with
  | .error written => .answer written
  | .ok (_, input) => (requestOutcome input).after [5, 0]

/-- Enough bytes are read, the others left. -/
theorem readFull_append {n : Nat} {first : List UInt8} (h : first.length = n) (more : List UInt8) :
    readFull n (first ++ more) = .ok (first, more) := by
  subst h
  simp [readFull]

/-- Too few are an error without an answer. -/
theorem readFull_short {n : Nat} {input : List UInt8} (h : input.length < n) :
    readFull n input = .error [] := if_neg (Nat.not_le.mpr h)

@[simp] theorem readFull_one (b : UInt8) (more : List UInt8) : readFull 1 (b :: more) = .ok ([b], more) :=
  @readFull_append 1 [b] rfl more

@[simp] theorem readFull_two (b c : UInt8) (more : List UInt8) :
    readFull 2 (b :: c :: more) = .ok ([b, c], more) :=
  @readFull_append 2 [b, c] rfl more

@[simp] theorem readFull_four (b c d e : UInt8) (more : List UInt8) :
    readFull 4 (b :: c :: d :: e :: more) = .ok ([b, c, d, e], more) :=
  @readFull_append 4 [b, c, d, e] rfl more

/-- A host that is encoded is read back, with what follows. -/
theorem socksHost_encoded {kind : UInt8} {encoded : List UInt8} {host : Chars}
    (h : EncodesHost kind encoded host) (more : List UInt8) :
    socksHost kind (encoded ++ more) = .ok (host, more) := by
  cases h with
  | v4 h => simp [socksHost, readFull_append h]
  | v6 h => simp [socksHost, readFull_append h]
  | name hk h => simp [socksHost, hk, readFull_append h]

/-- What encodes no host is refused. -/
theorem socksHost_none {kind : UInt8} {input : List UInt8} (h : NoHost kind input) :
    socksHost kind input = .error [] := by
  rcases h with ⟨rfl, h⟩ | ⟨rfl, h⟩ | ⟨rfl, rfl | ⟨k, name, rfl, h⟩⟩
  · simp [socksHost, readFull_short h]
  · simp [socksHost, readFull_short h]
  · rfl
  · by_cases hk : k = 0
    · simp [socksHost, hk]
    · simp [socksHost, hk, readFull_short (h.resolve_left hk)]

/-- The parser gives each request of the grammar the outcome of the grammar. -/
theorem requestOutcome_eq {input : List UInt8} {out : SOCKSOutcome} (h : SOCKSRequest input out) :
    requestOutcome input = out := by
  cases h with
  | short h => simp [requestOutcome, socksRequest, readFull_short h]
  | malformed h => simp [requestOutcome, socksRequest, h]
  | command h => simp [requestOutcome, socksRequest, socksReply, h]
  | kind h => simp [requestOutcome, socksRequest, socksHost, socksReply, h]
  | noHost h => simp [requestOutcome, socksRequest, socksHost_none h]
  | noPort hHost h => simp [requestOutcome, socksRequest, socksHost_encoded hHost, readFull_short h]
  | zeroPort hHost h =>
      simp only [bigEndian] at h
      simp [requestOutcome, socksRequest, socksHost_encoded hHost, socksReply, h]
  | connect hHost h =>
      simp only [requestOutcome, socksRequest, readFull_four, socksHost_encoded hHost, readFull_two]
      simp only [bigEndian] at h ⊢
      simp only [h, ne_eq, not_true_eq_false, or_self, if_false]

/-- A host of a kind that is served is there in full, or it is not. -/
theorem host_cases {kind : UInt8} (hKind : kind = 1 ∨ kind = 3 ∨ kind = 4) (input : List UInt8) :
    NoHost kind input ∨
      ∃ encoded host more, input = encoded ++ more ∧ EncodesHost kind encoded host := by
  have hSplit : ∀ (n : Nat) (xs : List UInt8), n ≤ xs.length → (xs.take n).length = n := fun n xs h =>
    List.length_take_of_le h
  rcases hKind with rfl | rfl | rfl
  · rcases Nat.lt_or_ge input.length 4 with h | h
    · exact .inl (.inl ⟨rfl, h⟩)
    · exact .inr ⟨_, _, _, (List.take_append_drop 4 input).symm, .v4 (hSplit 4 input h)⟩
  · cases input with
    | nil => exact .inl (.inr (.inr ⟨rfl, .inl rfl⟩))
    | cons k more =>
        by_cases hk : k = 0
        · exact .inl (.inr (.inr ⟨rfl, .inr ⟨k, more, rfl, .inl hk⟩⟩))
        · rcases Nat.lt_or_ge more.length k.toNat with h | h
          · exact .inl (.inr (.inr ⟨rfl, .inr ⟨k, more, rfl, .inr h⟩⟩))
          · refine .inr ⟨k :: more.take k.toNat, _, more.drop k.toNat, ?_, .name hk (hSplit _ more h)⟩
            rw [List.cons_append, List.take_append_drop]
  · rcases Nat.lt_or_ge input.length 16 with h | h
    · exact .inl (.inr (.inl ⟨rfl, h⟩))
    · exact .inr ⟨_, _, _, (List.take_append_drop 16 input).symm, .v6 (hSplit 16 input h)⟩

/-- Every sequence of bytes is a request of the grammar, a malformed one at least. -/
theorem exists_request (input : List UInt8) : ∃ out, SOCKSRequest input out := by
  match input with
  | [] | [_] | [_, _] | [_, _, _] => exact ⟨_, .short (by simp)⟩
  | version :: command :: reserved :: kind :: more =>
      by_cases hForm : version ≠ 5 ∨ reserved ≠ 0
      · exact ⟨_, .malformed hForm⟩
      obtain ⟨rfl, rfl⟩ : version = 5 ∧ reserved = 0 := by simpa [not_or] using hForm
      by_cases hCommand : command = 1
      swap
      · exact ⟨_, .command hCommand⟩
      subst hCommand
      by_cases hKind : kind = 1 ∨ kind = 3 ∨ kind = 4
      swap
      · exact ⟨_, .kind (by simpa [not_or] using hKind)⟩
      rcases host_cases hKind more with hNone | ⟨encoded, host, more, rfl, hHost⟩
      · exact ⟨_, .noHost hNone⟩
      · match more with
        | [] | [_] => exact ⟨_, .noPort hHost (by simp)⟩
        | hi :: lo :: following =>
            by_cases hPort : bigEndian hi lo = 0
            · exact ⟨_, .zeroPort hHost hPort⟩
            · exact ⟨_, .connect hHost hPort⟩

/-- The parser gives each stream the outcome that the grammar gives it. -/
theorem socksRequest_iff {input : List UInt8} {out : SOCKSOutcome} :
    SOCKSRequest input out ↔ requestOutcome input = out := by
  constructor
  · exact requestOutcome_eq
  · rintro rfl
    obtain ⟨out, h⟩ := exists_request input
    rwa [requestOutcome_eq h]

/-- The outcome that the grammar gives is the computed one. -/
theorem streamOutcome_eq {input : List UInt8} {out : SOCKSOutcome} (h : SOCKSStream input out) :
    streamOutcome input = out := by
  cases h with
  | short h => simp [streamOutcome, socksGreeting, readFull_short h]
  | version h => simp [streamOutcome, socksGreeting, h]
  | noMethods h => simp [streamOutcome, socksGreeting, readFull_short h]
  | refused hMethods h => simp [streamOutcome, socksGreeting, readFull_append hMethods, h]
  | greeted hMethods h hRequest =>
      simp [streamOutcome, socksGreeting, readFull_append hMethods, h, socksRequest_iff.mp hRequest]

/-- The same of the whole stream. -/
theorem exists_stream (input : List UInt8) : ∃ out, SOCKSStream input out := by
  match input with
  | [] | [_] => exact ⟨_, .short (by simp)⟩
  | version :: n :: more =>
      by_cases hVersion : version = 5
      swap
      · exact ⟨_, .version hVersion⟩
      subst hVersion
      rcases Nat.lt_or_ge more.length n.toNat with hShort | hLong
      · exact ⟨_, .noMethods hShort⟩
      · have hMethods : (more.take n.toNat).length = n.toNat := List.length_take_of_le hLong
        rw [← List.take_append_drop n.toNat more]
        by_cases hNone : 0 ∈ more.take n.toNat
        · obtain ⟨out, hRequest⟩ := exists_request (more.drop n.toNat)
          exact ⟨_, .greeted hMethods hNone hRequest⟩
        · exact ⟨_, .refused hMethods hNone⟩

/-- The grammar and the parser have the same outcome for every stream. -/
theorem socksStream_iff {input : List UInt8} {out : SOCKSOutcome} :
    SOCKSStream input out ↔ streamOutcome input = out := by
  constructor
  · exact streamOutcome_eq
  · rintro rfl
    obtain ⟨out, h⟩ := exists_stream input
    rwa [streamOutcome_eq h]

example : SOCKSStream [5, 1, 0, 5, 1, 0, 3, 1, 97, 1, 187, 22] (.dial "a:443" [22]) :=
  socksStream_iff.mpr (by decide +kernel)

/-! ### The entry, reading its connection -/

section Connection

variable {σ : Type} [Source σ UInt8] {β : Type}

/-- What has been read and the connection after it, or what has been written
when it is closed early. -/
abbrev ReadingFrom (σ β : Type) := Except (List UInt8) (β × σ)

/-- `io.ReadFull` on a connection. -/
def readFullFrom (n : Nat) (c : σ) : ReadingFrom σ (List UInt8) :=
  if (Sources.readFull n c).1.length = n then .ok (Sources.readFull n c) else .error []

def socksGreetingFrom (c : σ) : ReadingFrom σ Unit :=
  match readFullFrom 2 c with
  | .ok ([version, n], c) =>
      if version ≠ 5 then .error []
      else match readFullFrom n.toNat c with
        | .ok (methods, c) => if 0 ∈ methods then .ok ((), c) else .error [5, 255]
        | .error w => .error w
  | _ => .error []

def socksHostFrom (kind : UInt8) (c : σ) : ReadingFrom σ Chars :=
  if kind = 1 ∨ kind = 4 then
    match readFullFrom (if kind = 4 then 16 else 4) c with
    | .ok (ip, c) => .ok (ipString ip, c)
    | .error w => .error w
  else if kind = 3 then
    match readFullFrom 1 c with
    | .ok ([size], c) =>
        if size = 0 then .error []
        else match readFullFrom size.toNat c with
          | .ok (name, c) => .ok (byteText name, c)
          | .error w => .error w
    | _ => .error []
  else .error (socksReply 8)

def socksRequestFrom (c : σ) : ReadingFrom σ String :=
  match readFullFrom 4 c with
  | .ok ([version, command, reserved, kind], c) =>
      if version ≠ 5 ∨ reserved ≠ 0 then .error []
      else if command ≠ 1 then .error (socksReply 7)
      else match socksHostFrom kind c with
        | .error w => .error w
        | .ok (host, c) =>
            match readFullFrom 2 c with
            | .ok ([hi, lo], c) =>
                let port := hi.toNat * 256 + lo.toNat
                if port = 0 then .error (socksReply 1)
                else .ok (String.ofList (joinHostPort host (fmtInt port).toList), c)
            | _ => .error []
  | _ => .error []

/-- The bytes that are left to read instead of the connection. -/
def ReadingFrom.flat (r : ReadingFrom σ β) : Reading β := r.map (Prod.map id rest)

@[simp] theorem flat_error (w : List UInt8) :
    ReadingFrom.flat (.error w : ReadingFrom σ β) = .error w := rfl

@[simp] theorem flat_ok (b : β) (c : σ) :
    ReadingFrom.flat (.ok (b, c) : ReadingFrom σ β) = .ok (b, rest c) := rfl

/-- Reading from a connection is reading from the bytes that it still has. -/
theorem flat_readFullFrom (n : Nat) (c : σ) : (readFullFrom n c).flat = readFull n (rest c) := by
  obtain ⟨hTake, hRest⟩ := readFull_eq n c
  have hLength : (Sources.readFull n c).1.length = n ↔ n ≤ (rest c).length := by
    rw [hTake, List.length_take]
    omega
  unfold readFullFrom readFull
  split_ifs with hAll hEnough hEnough
  · exact congrArg Except.ok (Prod.ext hTake hRest)
  · exact absurd (hLength.mp hAll) hEnough
  · exact absurd (hLength.mpr hEnough) hAll
  · rfl

/-- The greeting does not depend on how its bytes come in. -/
theorem flat_greeting (c : σ) : (socksGreetingFrom c).flat = socksGreeting (rest c) := by
  unfold socksGreetingFrom socksGreeting
  rw [← flat_readFullFrom 2 c]
  cases readFullFrom 2 c with
  | error w => rfl
  | ok head =>
      obtain ⟨bytes, c⟩ := head
      match bytes with
      | [] | [_] | _ :: _ :: _ :: _ => rfl
      | [version, n] =>
          dsimp only [flat_ok]
          rw [← flat_readFullFrom n.toNat c]
          split_ifs
          · rfl
          · cases readFullFrom n.toNat c with
            | error w => rfl
            | ok found =>
                obtain ⟨methods, c⟩ := found
                dsimp only [flat_ok]
                split_ifs <;> rfl

/-- The host that is read does not depend on how its bytes come in. -/
theorem flat_host (kind : UInt8) (c : σ) : (socksHostFrom kind c).flat = socksHost kind (rest c) := by
  unfold socksHostFrom socksHost
  split_ifs with hIP hName
  · rw [← flat_readFullFrom]
    cases readFullFrom _ c <;> rfl
  · rw [← flat_readFullFrom]
    cases readFullFrom _ c <;> rfl
  · rw [← flat_readFullFrom 1 c]
    cases readFullFrom 1 c with
    | error w => rfl
    | ok head =>
        obtain ⟨bytes, c⟩ := head
        match bytes with
        | [] | _ :: _ :: _ => rfl
        | [size] =>
            dsimp only [flat_ok]
            rw [← flat_readFullFrom size.toNat c]
            split_ifs
            · rfl
            · cases readFullFrom size.toNat c <;> rfl
  · rfl

/-- The request that is read does not depend on how its bytes come in. -/
theorem flat_request (c : σ) : (socksRequestFrom c).flat = socksRequest (rest c) := by
  unfold socksRequestFrom socksRequest
  rw [← flat_readFullFrom 4 c]
  cases readFullFrom 4 c with
  | error w => rfl
  | ok head =>
      obtain ⟨bytes, c⟩ := head
      match bytes with
      | [] | [_] | [_, _] | [_, _, _] | _ :: _ :: _ :: _ :: _ :: _ => rfl
      | [version, command, reserved, kind] =>
          dsimp only [flat_ok]
          rw [← flat_host kind c]
          split_ifs
          · rfl
          · rfl
          · cases socksHostFrom kind c with
            | error w => rfl
            | ok found =>
                obtain ⟨host, c⟩ := found
                dsimp only [flat_ok]
                rw [← flat_readFullFrom 2 c]
                cases readFullFrom 2 c with
                | error w => rfl
                | ok tail =>
                    obtain ⟨bytes, c⟩ := tail
                    match bytes with
                    | [] | [_] | _ :: _ :: _ :: _ => rfl
                    | [hi, lo] =>
                        dsimp only [flat_ok]
                        split_ifs <;> rfl

end Connection

/-! ### Serving a connection -/

/-- A SOCKS connection served, with what is written before the dial and after it,
and the two ends of the bridge. -/
structure SOCKSConnection (Trace Conn σ : Type) where
  dials : List (DialRun Trace Conn)
  before : List UInt8
  answer : List UInt8
  bridge : Option (σ × Conn)

variable {Trace Conn σ : Type} [Source σ UInt8]

/-- `serveSOCKS` on a connection. -/
def serveSOCKSFrom (dial : DialFunc Trace Conn) (greeted : Bool) (c : σ) :
    SOCKSConnection Trace Conn σ :=
  match socksGreetingFrom c with
  | .error w => ⟨[], w, [], none⟩
  | .ok (_, c) =>
      if greeted = false then ⟨[], [], [], none⟩
      else match socksRequestFrom c with
        | .error w => ⟨[], [5, 0] ++ w, [], none⟩
        | .ok (address, c) =>
            let d := dial address (some (20 * second))
            match d.outcome.result with
            | .error _ => ⟨[d], [5, 0], socksReply 1, none⟩
            | .ok upstream => ⟨[d], [5, 0], socksReply 0, some (c, upstream)⟩

/-- How much of it does not depend on the way the bytes come in. -/
def SOCKSConnection.flat (run : SOCKSConnection Trace Conn σ) : SOCKSRun Trace Conn :=
  ⟨run.dials, run.before ++ run.answer, run.bridge.map Prod.snd⟩

/-- Only the bytes of the stream count for the whole entry, not how they come in. -/
theorem flat_serveSOCKS (dial : DialFunc Trace Conn) (greeted : Bool) (c : σ) :
    (serveSOCKSFrom dial greeted c).flat = serveSOCKS dial greeted (rest c) := by
  unfold serveSOCKSFrom serveSOCKS
  rw [← flat_greeting c]
  cases socksGreetingFrom c with
  | error w => simp [SOCKSConnection.flat]
  | ok greeting =>
      obtain ⟨⟨⟩, c⟩ := greeting
      dsimp only [flat_ok]
      split_ifs
      · rfl
      · rw [← flat_request c]
        cases socksRequestFrom c with
        | error w => simp [SOCKSConnection.flat]
        | ok request =>
            obtain ⟨address, c⟩ := request
            dsimp only [flat_ok]
            cases (dial address (some (20 * second))).outcome.result <;> rfl

/-- What `serveSOCKS` does for a client whose stream has the outcome: it dials at
most once, and once connected sends on exactly what follows the request. -/
def SOCKSConnection.Meets [Source Conn UInt8] (dial : DialFunc Trace Conn)
    (run : SOCKSConnection Trace Conn σ) : SOCKSOutcome → Prop
  | .answer written => run = ⟨[], written, [], none⟩
  | .dial address following =>
      let d := dial address (some (20 * second))
      run.dials = [d] ∧ run.before = [5, 0] ∧
        (d.outcome.Fails → run.answer = [5, 1, 0, 1, 0, 0, 0, 0, 0, 0] ∧ run.bridge = none) ∧
        ∀ upstream, d.outcome.result = .ok upstream → run.answer = [5, 0, 0, 1, 0, 0, 0, 0, 0, 0] ∧
          ∃ c, run.bridge = some (c, upstream) ∧ ∀ w, Reachable (Bridge.system c upstream) w →
            w.toB.delivered <+: following ∧ (w.toB.status = .ended → w.toB.delivered = following)

/-- The entry does what the outcome of its stream says. -/
theorem serveSOCKS_meets [Source Conn UInt8] (dial : DialFunc Trace Conn) (c : σ) :
    (serveSOCKSFrom dial true c).Meets dial (streamOutcome (rest c)) := by
  unfold serveSOCKSFrom streamOutcome requestOutcome
  rw [← flat_greeting c]
  cases socksGreetingFrom c with
  | error w => rfl
  | ok greeting =>
      obtain ⟨⟨⟩, c⟩ := greeting
      dsimp only [flat_ok]
      rw [← flat_request c, if_neg (by simp)]
      cases socksRequestFrom c with
      | error w => rfl
      | ok request =>
          obtain ⟨address, c⟩ := request
          dsimp only [flat_ok]
          cases hDial : (dial address (some (20 * second))).outcome.result with
          | error e =>
              refine ⟨rfl, rfl, fun _ => ⟨rfl, rfl⟩, fun upstream hOk => ?_⟩
              rw [hDial] at hOk
              cases hOk
          | ok upstream =>
              refine ⟨rfl, rfl, fun hFails => absurd hDial (hFails upstream), fun upstream' hOk => ?_⟩
              rw [hDial] at hOk
              cases hOk
              refine ⟨rfl, c, rfl, fun w hw => ?_⟩
              have hConserves := Bridge.conserves hw
              exact ⟨hConserves.toB.begins, fun hEnded =>
                hConserves.toB.drained_iff.mp (hConserves.toB.ended hEnded)⟩

/-- Without a greeting there is no dial. -/
theorem serveSOCKS_ungreeted (dial : DialFunc Trace Conn) (c : σ) :
    (serveSOCKSFrom dial false c).dials = [] := by
  unfold serveSOCKSFrom
  cases socksGreetingFrom c <;> rfl

/-! ### The first byte -/

/-- `bufio.Reader`, in front of a connection. -/
abbrev Reader (σ : Type) := Buffered σ UInt8 4096

inductive LocalConnection (Trace Conn σ : Type) where
  | closed
  | socks (run : SOCKSConnection Trace Conn (Reader σ))
  | http (c : Reader σ)

/-- What `serveLocalProxy` does with a connection: it looks at the first byte and
leaves it to be read. -/
def acceptLocal (dial : DialFunc Trace Conn) (greeted : Bool) (c : σ) : LocalConnection Trace Conn σ :=
  match Buffered.peek (.new c) with
  | (none, _) => .closed
  | (some first, r) => if first = 5 then .socks (serveSOCKSFrom dial greeted r) else .http r

/-- A stream that starts with 5 is served as SOCKS from its first byte. -/
theorem acceptLocal_socks (dial : DialFunc Trace Conn) (greeted : Bool) {c : σ}
    (hFirst : (rest c).head? = some 5) : ∃ r : Reader σ, rest r = rest c ∧
      acceptLocal dial greeted c = .socks (serveSOCKSFrom dial greeted r) := by
  have hPeek : (Buffered.peek (.new c : Reader σ)).1 = some 5 := by
    rw [Buffered.peek_eq (by omega), Buffered.rest_new, hFirst]
  refine ⟨(Buffered.peek (.new c)).2, by rw [Buffered.rest_peek, Buffered.rest_new], ?_⟩
  unfold acceptLocal
  rw [← Prod.mk.eta (p := Buffered.peek (.new c : Reader σ)), hPeek]
  rfl

/-- A dial is made exactly for a request to connect. -/
theorem dials_iff [Source Conn UInt8] {dial : DialFunc Trace Conn} {run : SOCKSConnection Trace Conn σ}
    {out : SOCKSOutcome} (h : run.Meets dial out) :
    run.dials.length ≤ 1 ∧
      (run.dials ≠ [] ↔ ∃ address following, out = .dial address following) := by
  cases out with
  | answer written =>
      rw [show run = _ from h]
      simp
  | dial address following =>
      rw [h.1]
      simp

/-- For all bytes of a client and all ways in which they are cut: there is one
outcome by the grammar, and the entry meets it. -/
theorem socks_exact [Source Conn UInt8] (dial : DialFunc Trace Conn) (pieces : List (List UInt8)) :
    ∃ out, (∀ out', SOCKSStream pieces.flatten out' ↔ out' = out) ∧
      (pieces.flatten.head? ≠ some 5 → out = .answer []) ∧
      (pieces.flatten.head? = some 5 → ∀ greeted, ∃ run,
        acceptLocal dial greeted (⟨pieces⟩ : Segments UInt8) = .socks run ∧
        run.dials.length ≤ 1 ∧
        (run.dials ≠ [] ↔ greeted = true ∧ ∃ address following, out = .dial address following) ∧
        (greeted = true → run.Meets dial out)) := by
  refine ⟨streamOutcome pieces.flatten, fun out' => socksStream_iff.trans eq_comm, fun hOther => ?_,
    fun hFirst greeted => ?_⟩
  · match hBytes : pieces.flatten with
    | [] => rfl
    | [_] => rfl
    | version :: n :: more =>
        rw [hBytes] at hOther
        exact streamOutcome_eq (.version fun hFive => hOther (by rw [hFive]; rfl))
  · obtain ⟨r, hRest, hAccept⟩ :=
      acceptLocal_socks dial greeted (c := (⟨pieces⟩ : Segments UInt8)) hFirst
    refine ⟨_, hAccept, ?_⟩
    cases greeted with
    | false => simp [serveSOCKS_ungreeted]
    | true =>
        have hMeets := serveSOCKS_meets dial r
        rw [hRest, rest_segments] at hMeets
        obtain ⟨hOnce, hDials⟩ := dials_iff hMeets
        exact ⟨hOnce, hDials.trans (and_iff_right rfl).symm, fun _ => hMeets⟩

end NetConductor
