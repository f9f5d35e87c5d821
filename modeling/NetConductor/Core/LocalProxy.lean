import NetConductor.Core.Proxy

/-! The entry for local programs: SOCKS5 and HTTP on one listener, told apart
by the first byte. -/
namespace NetConductor
open GoText GoNet Deadline

/-- What is left to read, or what has been written when the connection is
closed early. -/
abbrev Reading (α : Type) := Except (List UInt8) (α × List UInt8)

/-- `io.ReadFull`; a client that stops, also until the deadline, ends it. -/
def readFull (n : Nat) (input : List UInt8) : Reading (List UInt8) :=
  if n ≤ input.length then .ok (input.take n, input.drop n) else .error []

/-- A Go string is a string of bytes; each is written as the character of its number. -/
def byteText (bytes : List UInt8) : Chars := bytes.map fun b => Char.ofNat b.toNat

def socksReply (code : UInt8) : List UInt8 := [5, code, 0, 1, 0, 0, 0, 0, 0, 0]

/-- The greeting: version 5 and the methods, of which 0 (no authentication) has
to be one. -/
def socksGreeting (input : List UInt8) : Reading Unit :=
  match readFull 2 input with
  | .ok ([version, n], input) =>
      if version ≠ 5 then .error []
      else match readFull n.toNat input with
        | .ok (methods, input) => if 0 ∈ methods then .ok ((), input) else .error [5, 255]
        | .error w => .error w
  | _ => .error []

def socksHost (kind : UInt8) (input : List UInt8) : Reading Chars :=
  if kind = 1 ∨ kind = 4 then
    match readFull (if kind = 4 then 16 else 4) input with
    | .ok (ip, input) => .ok (ipString ip, input)
    | .error w => .error w
  else if kind = 3 then
    match readFull 1 input with
    | .ok ([size], input) =>
        if size = 0 then .error []
        else match readFull size.toNat input with
          | .ok (name, input) => .ok (byteText name, input)
          | .error w => .error w
    | _ => .error []
  else .error (socksReply 8)

/-- The request: CONNECT only, no BIND or UDP association. -/
def socksRequest (input : List UInt8) : Reading String :=
  match readFull 4 input with
  | .ok ([version, command, reserved, kind], input) =>
      if version ≠ 5 ∨ reserved ≠ 0 then .error []
      else if command ≠ 1 then .error (socksReply 7)
      else match socksHost kind input with
        | .error w => .error w
        | .ok (host, input) =>
            match readFull 2 input with
            | .ok ([hi, lo], input) =>
                let port := hi.toNat * 256 + lo.toNat
                if port = 0 then .error (socksReply 1)
                else .ok (String.ofList (joinHostPort host (fmtInt port).toList), input)
            | _ => .error []
  | _ => .error []

variable {Trace Conn : Type}

/-- A SOCKS connection served: the dials made for it, the bytes written to the
client, and the connection it is bridged to, if any. -/
structure SOCKSRun (Trace Conn : Type) where
  dials : List (DialRun Trace Conn)
  written : List UInt8
  tunnel : Option Conn

/-- `greeted` says whether the answer to the greeting can be written. -/
def serveSOCKS (dial : DialFunc Trace Conn) (greeted : Bool) (input : List UInt8) :
    SOCKSRun Trace Conn :=
  match socksGreeting input with
  | .error w => ⟨[], w, none⟩
  | .ok (_, input) =>
      if greeted = false then ⟨[], [], none⟩
      else match socksRequest input with
        | .error w => ⟨[], [5, 0] ++ w, none⟩
        | .ok (address, _) =>
            let d := dial address (some (20 * second))
            match d.outcome.result with
            | .error _ => ⟨[d], [5, 0] ++ socksReply 1, none⟩
            | .ok upstream => ⟨[d], [5, 0] ++ socksReply 0, some upstream⟩

inductive LocalRun (Trace Conn : Type) where
  | closed
  | socks (run : SOCKSRun Trace Conn)
  | http (served : Served Trace Conn)

/-- One connection, and on it one request. The HTTP side asks for no
credentials. -/
def serveLocalProxy (lib : Stdlib Conn) (dial : DialFunc Trace Conn) (greeted : Bool)
    (input : List UInt8) : LocalRun Trace Conn :=
  match input with
  | [] => .closed
  | first :: _ =>
      if first = 5 then .socks (serveSOCKS dial greeted input)
      else match lib.readRequest input with
        | none => .closed
        | some r => .http (proxyHandler lib (fun _ => .ok dial) r)

/-! ### What passes through -/

def SOCKSRun.passed (run : SOCKSRun Trace Conn) : Passed Trace Conn :=
  ⟨run.dials, run.tunnel, decide (run.written = [5, 0] ++ socksReply 1)⟩

def LocalRun.passed : LocalRun Trace Conn → Passed Trace Conn
  | .closed => ⟨[], none, false⟩
  | .socks run => run.passed
  | .http served => served.passed

/-- Where a SOCKS client wants to go. -/
def socksDestination (greeted : Bool) (input : List UInt8) : Option String :=
  match socksGreeting input with
  | .error _ => none
  | .ok (_, input) =>
      if greeted = false then none
      else match socksRequest input with
        | .error _ => none
        | .ok (address, _) => some address

def localDestination (lib : Stdlib Conn) (greeted : Bool) (input : List UInt8) : Option String :=
  match input with
  | [] => none
  | first :: _ =>
      if first = 5 then socksDestination greeted input
      else (lib.readRequest input).bind (requestDestination lib)

/-- The SOCKS5 entry dials at most one address, the one that the client asks for. -/
theorem serveSOCKS_passes (dial : DialFunc Trace Conn) (greeted : Bool) (input : List UInt8) :
    Passes dial (socksDestination greeted input) (serveSOCKS dial greeted input).passed := by
  unfold socksDestination serveSOCKS
  cases socksGreeting input with
  | error w => exact ⟨rfl, rfl⟩
  | ok greeting =>
      obtain ⟨⟨⟩, rest⟩ := greeting
      cases greeted with
      | false => exact ⟨rfl, rfl⟩
      | true =>
          simp only [Bool.true_eq_false, if_false]
          cases socksRequest rest with
          | error w => exact ⟨rfl, rfl⟩
          | ok request =>
              obtain ⟨address, rest⟩ := request
              refine ⟨some (20 * second), ?_⟩
              cases hDial : (dial address (some (20 * second))).outcome.result with
              | error e => simp [hDial, SOCKSRun.passed]
              | ok c =>
                  refine ⟨by simp [hDial, SOCKSRun.passed], fun c' hc => ?_,
                    fun hFails => absurd hDial (hFails c)⟩
                  simp only [hDial, SOCKSRun.passed, Option.some.injEq] at hc
                  exact congrArg Except.ok hc

/-- The local entry dials at most one address, the one asked for, in either protocol. -/
theorem serveLocalProxy_passes (lib : Stdlib Conn) (dial : DialFunc Trace Conn) (greeted : Bool)
    (input : List UInt8) :
    Passes dial (localDestination lib greeted input)
      (serveLocalProxy lib dial greeted input).passed := by
  cases input with
  | nil => exact ⟨rfl, rfl⟩
  | cons first rest =>
      simp only [localDestination, serveLocalProxy]
      split
      · exact serveSOCKS_passes dial greeted (first :: rest)
      · cases lib.readRequest (first :: rest) with
        | none => exact ⟨rfl, rfl⟩
        | some r => exact proxyHandler_passes rfl

end NetConductor
