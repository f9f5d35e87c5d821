import NetConductor.Core.LocalProxy
import NetConductor.Server.Devices

/-! Connections by policy: `dialPolicy` and the entries of the hub that lead to
it. -/
namespace NetConductor
open GoText GoNet Deadline

variable {Conn : Type}

/-- What one call of `dialPolicy` did: the exits it tried, the direct dial if it
made one, and the name it stored as active, if any. -/
structure PolicyDial (Conn : Type) where
  exits : List (Device × Timed String Conn)
  direct : Option (Timed String Conn)
  active : Option String

/-- The address of a device's own proxy. -/
def upstream (d : Device) : String := d.proxyType ++ "://" ++ hostPort d.ip d.proxyPort

/-- The `n`-th dial, through an exit: six seconds at most. -/
def dialExit (lib : Stdlib Conn) (net : Nat → Network Conn) (address : String) (n : Nat)
    (d : Device) : Task String Conn :=
  within (6 * second) (dialVia lib (net n) (upstream d) address)

namespace Server

def blockPolicy : Policy := ⟨"", [], "block", ""⟩

/-- The devices among a policy's exits, as the snapshot takes them. -/
def exitsOf (s : Server) (p : Policy) : List Device := p.exits.filterMap s.device

/-- Policy and exits are those of the moment when the call takes the lock; the
network is what each of its dials meets. -/
def dialPolicy (lib : Stdlib Conn) (net : Nat → Network Conn) (s : Server) (id : String) :
    DialFunc (PolicyDial Conn) Conn := fun address left =>
  let p := s.policyFor id blockPolicy
  let tried := tryEach (dialExit lib net address) 0 left (s.exitsOf p)
  match found tried with
  | some (d, c) => ⟨⟨tried, none, some d.id⟩, .ok c, total tried⟩
  | none =>
      if p.onFailure = "direct" then
        let r := dialDirect (net tried.length) address (left.map (· - total tried))
        ⟨⟨tried, some r, match r.result with | .ok _ => some "DIRECT" | .error _ => none⟩,
          r.result, total tried + r.elapsed⟩
      else
        ⟨⟨tried, none, some ""⟩, .error "all exits failed; direct access disabled", total tried⟩

/-- Who a request to the hub comes from, if its credentials are those of a device. -/
def proxySource (s : Server) (r : ProxyRequest) : Option String :=
  match proxyCredentials r with
  | none => none
  | some (id, t) => if (s.device id).any fun d => equal d.token t then some id else none

def authorizeProxy (lib : Stdlib Conn) (net : Nat → Network Conn) (s : Server) (r : ProxyRequest) :
    Except String (DialFunc (PolicyDial Conn) Conn) :=
  match s.proxySource r with
  | none => .error "unauthorized"
  | some id => .ok (s.dialPolicy lib net id)

def proxyHandler (lib : Stdlib Conn) (net : Nat → Network Conn) (s : Server) (r : ProxyRequest) :
    Served (PolicyDial Conn) Conn :=
  NetConductor.proxyHandler lib (s.authorizeProxy lib net) r

/-- One connection to the entry for programs on the server itself. -/
def runLocalProxy (lib : Stdlib Conn) (net : Nat → Network Conn) (s : Server) (greeted : Bool)
    (input : List UInt8) : LocalRun (PolicyDial Conn) Conn :=
  serveLocalProxy lib (s.dialPolicy lib net "cloud") greeted input

end Server

/-! ### The policy obeyed -/

/-- The policy that governs a source: its last row, or, without any, one that
blocks everything. -/
def Governs (policies : List Policy) (id : String) (p : Policy) : Prop :=
  (∃ before after, policies = before ++ p :: after ∧ p.source = id ∧ ∀ x ∈ after, x.source ≠ id) ∨
    ((∀ x ∈ policies, x.source ≠ id) ∧ p = Server.blockPolicy)

/-- The existing devices among the exits are tried in their order, each by a
dial of its own, until the first success, whose connection is returned. A
direct dial follows if all of them failed and the policy says so, and only
then. -/
structure Obeys (lib : Stdlib Conn) (net : Nat → Network Conn) (s : Server) (p : Policy)
    (address : String) (run : DialRun (PolicyDial Conn) Conn) : Prop where
  order : run.trace.exits.map Prod.fst = (s.exitsOf p).take run.trace.exits.length
  dials : ∀ i d r, run.trace.exits[i]? = some (d, r) → ∃ left, r = dialExit lib net address i d left
  stops : ∀ a ∈ run.trace.exits.dropLast, a.2.Fails
  direct_iff : run.trace.direct.isSome = true ↔
    run.trace.exits.length = (s.exitsOf p).length ∧ (∀ a ∈ run.trace.exits, a.2.Fails) ∧
      p.onFailure = "direct"
  direct_dial : ∀ r ∈ run.trace.direct, ∃ left,
    r = dialDirect (net run.trace.exits.length) address left
  returned : ∀ c, run.outcome.result = .ok c ↔
    (∃ d t, run.trace.exits.getLast? = some (d, ⟨.ok c, t⟩)) ∨
      ∃ r ∈ run.trace.direct, r.result = .ok c
  exhausted : run.outcome.Fails → run.trace.exits.length = (s.exitsOf p).length

/-- The policy that is looked up governs the device. -/
theorem governs_policyFor (s : Server) (id : String) :
    Governs s.state.policies id (s.policyFor id Server.blockPolicy) := by
  unfold Server.policyFor
  induction s.state.policies using List.reverseRecOn with
  | nil => exact .inr ⟨by simp, rfl⟩
  | append_singleton rows x ih =>
      rw [List.foldl_concat]
      split
      · next hSource => exact .inl ⟨rows, [], rfl, hSource, by simp⟩
      · next hSource =>
          rcases ih with ⟨before, after, hRows, hId, hAfter⟩ | ⟨hNone, hBlock⟩
          · refine .inl ⟨before, after ++ [x], ?_, hId, fun y hy => ?_⟩
            · conv_lhs => rw [hRows]
              rw [List.append_assoc, List.cons_append]
            · rcases List.mem_append.mp hy with hy | hy
              · exact hAfter y hy
              · rw [List.mem_singleton.mp hy]
                exact hSource
          · refine .inr ⟨fun y hy => ?_, hBlock⟩
            rcases List.mem_append.mp hy with hy | hy
            · exact hNone y hy
            · rw [List.mem_singleton.mp hy]
              exact hSource

/-- The exits that a call tries. -/
def triedExits (lib : Stdlib Conn) (net : Nat → Network Conn) (s : Server) (id address : String)
    (left : Left) : List (Device × Timed String Conn) :=
  tryEach (dialExit lib net address) 0 left (s.exitsOf (s.policyFor id Server.blockPolicy))

section
variable {lib : Stdlib Conn} {net : Nat → Network Conn} {s : Server} {id address : String} {left : Left}

/-- The first exit that answers is the connection. -/
theorem dialPolicy_found {d : Device} {c : Conn}
    (h : found (triedExits lib net s id address left) = some (d, c)) :
    s.dialPolicy lib net id address left =
      ⟨⟨triedExits lib net s id address left, none, some d.id⟩, .ok c,
        total (triedExits lib net s id address left)⟩ := by
  unfold triedExits at h ⊢
  simp only [Server.dialPolicy, h]

/-- With no exit left the dial is direct where the policy says so. -/
theorem dialPolicy_direct (h : found (triedExits lib net s id address left) = none)
    (hDirect : (s.policyFor id Server.blockPolicy).onFailure = "direct") :
    ∃ r, r = dialDirect (net (triedExits lib net s id address left).length) address
        (left.map (· - total (triedExits lib net s id address left))) ∧
      s.dialPolicy lib net id address left =
        ⟨⟨triedExits lib net s id address left, some r, match r.result with
            | .ok _ => some "DIRECT"
            | .error _ => none⟩,
          r.result, total (triedExits lib net s id address left) + r.elapsed⟩ := by
  unfold triedExits at h ⊢
  simp only [Server.dialPolicy, h, if_pos hDirect]
  exact ⟨_, rfl, rfl⟩

/-- With no exit and no direct access the dial fails. -/
theorem dialPolicy_blocked (h : found (triedExits lib net s id address left) = none)
    (hBlock : (s.policyFor id Server.blockPolicy).onFailure ≠ "direct") :
    s.dialPolicy lib net id address left =
      ⟨⟨triedExits lib net s id address left, none, some ""⟩,
        .error "all exits failed; direct access disabled",
        total (triedExits lib net s id address left)⟩ := by
  unfold triedExits at h ⊢
  simp only [Server.dialPolicy, h, if_neg hBlock]

/-- Of the exits tried, none that failed is the one returned. -/
theorem getLast_fails {tried : List (Device × Timed String Conn)} (h : found tried = none)
    {c : Conn} : ¬∃ d t, tried.getLast? = some (d, ⟨.ok c, t⟩) := by
  rintro ⟨d, t, hLast⟩
  exact found_eq_none_iff.mp h _ (List.mem_of_getLast? hLast) c rfl

end

/-- A dial tries the exits of the policy in their order, and does what the policy says
when all fail. -/
theorem dialPolicy_obeys (lib : Stdlib Conn) (net : Nat → Network Conn) (s : Server)
    (id address : String) (left : Left) :
    Obeys lib net s (s.policyFor id Server.blockPolicy) address
      (s.dialPolicy lib net id address left) := by
  have hOrder : (triedExits lib net s id address left).map Prod.fst = _ := tryEach_order ..
  have hStops : ∀ a ∈ (triedExits lib net s id address left).dropLast, a.2.Fails :=
    tryEach_stops 0 left _
  have hDials : ∀ i d r, (triedExits lib net s id address left)[i]? = some (d, r) →
      ∃ left, r = dialExit lib net address i d left := by
    intro i d r h
    simpa using tryEach_outcome h
  cases hFound : found (triedExits lib net s id address left) with
  | some dc =>
      obtain ⟨d, c⟩ := dc
      obtain ⟨t, hLast⟩ := tryEach_found hFound
      rw [dialPolicy_found hFound]
      refine ⟨hOrder, hDials, hStops, ?_, by simp, fun c' => ?_, fun hFails => absurd rfl (hFails c)⟩
      · refine iff_of_false (by simp) fun h => ?_
        rw [found_eq_none_iff.mpr h.2.1] at hFound
        cases hFound
      · constructor
        · intro hc
          cases hc
          exact .inl ⟨d, t, hLast⟩
        · rintro (⟨d', t', hLast'⟩ | ⟨r, hr, -⟩)
          · cases hLast.symm.trans hLast'
            rfl
          · simp at hr
  | none =>
      have hAll := tryEach_exhausted hFound
      have hFails := found_eq_none_iff.mp hFound
      by_cases hDirect : (s.policyFor id Server.blockPolicy).onFailure = "direct"
      · obtain ⟨r, hr, hRun⟩ := dialPolicy_direct hFound hDirect
        rw [hRun]
        refine ⟨hOrder, hDials, hStops, iff_of_true rfl ⟨hAll, hFails, hDirect⟩, ?_, fun c => ?_,
          fun _ => hAll⟩
        · rintro r' hr'
          cases hr'
          exact ⟨_, hr⟩
        · simp [getLast_fails hFound]
      · rw [dialPolicy_blocked hFound hDirect]
        refine ⟨hOrder, hDials, hStops, iff_of_false (by simp) fun h => hDirect h.2.2, by simp,
          fun c => ?_, fun _ => hAll⟩
        simp [getLast_fails hFound]

/-! ### The time it takes -/

/-- What every dial that the policy of a source allows would come to, each in
its own time: the exits, then the direct dial if it is allowed. -/
def exitAttempts (lib : Stdlib Conn) (net : Nat → Network Conn) (s : Server) (id address : String) :
    List (Timed String Conn) :=
  outcomes (dialExit lib net address) 0 (s.exitsOf (s.policyFor id Server.blockPolicy))

def directAttempt (net : Nat → Network Conn) (s : Server) (id address : String) :
    List (Timed String Conn) :=
  if (s.policyFor id Server.blockPolicy).onFailure = "direct" then
    [dialDirect (net (s.exitsOf (s.policyFor id Server.blockPolicy)).length) address none]
  else []

def attempts (lib : Stdlib Conn) (net : Nat → Network Conn) (s : Server) (id address : String) :
    List (Timed String Conn) :=
  exitAttempts lib net s id address ++ directAttempt net s id address

theorem cancels_dialExit (lib : Stdlib Conn) (net : Nat → Network Conn) (address : String) (n : Nat)
    (d : Device) : Cancels (dialExit lib net address n d) :=
  (cancels_dialVia lib (net n) (upstream d) address).within _

section
variable {lib : Stdlib Conn} {net : Nat → Network Conn} {s : Server} {id address : String} {l : Nat}

/-- The time of the first exit that answers is the time of the loop. -/
theorem acceptTime_exits (lib : Stdlib Conn) (net : Nat → Network Conn) (s : Server) (id address : String) :
    acceptTime (exitAttempts lib net s id address) =
      (found (triedExits lib net s id address none)).map fun _ =>
        total (triedExits lib net s id address none) := by
  have hSome : (found (triedExits lib net s id address none)).isSome =
      (acceptTime (exitAttempts lib net s id address)).isSome := found_tryEach ..
  have hTotal : total (triedExits lib net s id address none) = _ := total_tryEach ..
  cases hAccept : acceptTime (exitAttempts lib net s id address) with
  | none =>
      rw [hAccept, Option.isSome_none, Option.isSome_eq_false_iff, Option.isNone_iff_eq_none] at hSome
      rw [hSome]
      rfl
  | some t =>
      rw [hAccept] at hSome
      obtain ⟨dc, hFound⟩ := Option.isSome_iff_exists.mp hSome
      rw [hFound, hTotal]
      unfold exitAttempts at hAccept
      rw [hAccept]
      rfl

/-- Where no exit accepts, all of them together take the time of their failures. -/
theorem total_exits (h : found (triedExits lib net s id address none) = none) :
    total (triedExits lib net s id address none) =
      ((exitAttempts lib net s id address).map Timed.elapsed).sum := by
  have hTotal : total (triedExits lib net s id address none) = _ := total_tryEach ..
  have hAccept := acceptTime_exits lib net s id address
  unfold exitAttempts at hAccept ⊢
  rw [hTotal, hAccept, h]
  rfl

/-- Where no exit accepts, the first acceptance is that of the direct dial. -/
theorem acceptTime_direct (h : found (triedExits lib net s id address none) = none) :
    acceptTime (attempts lib net s id address) =
      (acceptTime (directAttempt net s id address)).map
        (total (triedExits lib net s id address none) + ·) := by
  rw [attempts, acceptTime_append, acceptTime_exits, h, total_exits h]
  rfl

/-- No attempt is accepted before the exits are through. -/
theorem total_le_acceptTime {t : Nat} (h : acceptTime (attempts lib net s id address) = some t) :
    total (triedExits lib net s id address none) ≤ t := by
  cases hFound : found (triedExits lib net s id address none) with
  | some dc =>
      rw [attempts, acceptTime_append, acceptTime_exits, hFound] at h
      simp only [Option.map_some, Option.some_or, Option.some.injEq] at h
      omega
  | none =>
      rw [acceptTime_direct hFound] at h
      obtain ⟨u, -, rfl⟩ := Option.map_eq_some_iff.mp h
      omega

theorem acceptTime_singleton {r : Timed String Conn} {t : Nat} :
    acceptTime [r] = some t ↔ ∃ c, r = ⟨.ok c, t⟩ := by
  obtain ⟨e | c, u⟩ := r
  · simp [acceptTime]
  · simp [acceptTime]

/-- The direct dial after `T` of the time: it is accepted when it would be
accepted in the rest. -/
theorem direct_ok_iff {n t T : Nat} :
    (∃ c, (⟨(dialDirect (net n) address (some (l - T))).result,
        T + (dialDirect (net n) address (some (l - T))).elapsed⟩ : Timed String Conn) =
        ⟨.ok c, t⟩) ↔
      (acceptTime [dialDirect (net n) address none]).map (T + ·) = some t ∧ t < l := by
  constructor
  · rintro ⟨c, hRun⟩
    obtain ⟨hResult, hElapsed⟩ := Timed.mk.injEq .. ▸ hRun
    have hRest : dialDirect (net n) address (some (l - T)) =
        ⟨.ok c, (dialDirect (net n) address (some (l - T))).elapsed⟩ := by rw [← hResult]
    obtain ⟨hFull, hLess⟩ := (cancels_dialDirect (net n) address).ok_iff.mp hRest
    rw [acceptTime_singleton.mpr ⟨c, hFull⟩, Option.map_some, hElapsed]
    exact ⟨rfl, by omega⟩
  · rintro ⟨hAccept, hLess⟩
    obtain ⟨u, hu, rfl⟩ := Option.map_eq_some_iff.mp hAccept
    obtain ⟨c, hFull⟩ := acceptTime_singleton.mp hu
    have hRest := (cancels_dialDirect (net n) address).ok_iff.mpr ⟨hFull, (by omega : u < l - T)⟩
    exact ⟨c, by rw [hRest]⟩

/-- A call with a deadline succeeds when the first attempt that is accepted is
accepted before it, and it takes just that time. -/
theorem dialPolicy_ok_iff {t : Nat} :
    (∃ c, (s.dialPolicy lib net id address (some l)).outcome = ⟨.ok c, t⟩) ↔
      acceptTime (attempts lib net s id address) = some t ∧ t < l := by
  have hCancels := cancels_dialExit lib net address
  rcases Nat.lt_or_ge (total (triedExits lib net s id address none)) l with hIn | hOut
  · have hSame : triedExits lib net s id address (some l) = triedExits lib net s id address none :=
      tryEach_of_lt hCancels hIn
    cases hFound : found (triedExits lib net s id address none) with
    | some dc =>
        rw [dialPolicy_found (by rw [hSame, hFound]), hSame, attempts, acceptTime_append,
          acceptTime_exits, hFound]
        simp only [Timed.mk.injEq, Except.ok.injEq, exists_eq_left', Option.map_some, Option.some_or,
          Option.some.injEq]
        omega
    | none =>
        rw [acceptTime_direct hFound]
        by_cases hDirect : (s.policyFor id Server.blockPolicy).onFailure = "direct"
        · have hNone : found (triedExits lib net s id address (some l)) = none := by rw [hSame, hFound]
          obtain ⟨r, rfl, hRun⟩ := dialPolicy_direct hNone hDirect
          have hAll : (triedExits lib net s id address none).length = _ := tryEach_exhausted hFound
          rw [hRun, hSame, directAttempt, if_pos hDirect, hAll]
          exact direct_ok_iff
        · rw [dialPolicy_blocked (by rw [hSame, hFound]) hDirect]
          simp [directAttempt, hDirect, acceptTime]
  · -- the exits use up the time, and nothing is left for the direct dial
    obtain ⟨hFound, hTotal⟩ := tryEach_of_le hCancels hOut
    refine iff_of_false ?_ fun h => absurd h.2 (Nat.not_lt.mpr (hOut.trans (total_le_acceptTime h.1)))
    by_cases hDirect : (s.policyFor id Server.blockPolicy).onFailure = "direct"
    · have hNone : found (triedExits lib net s id address (some l)) = none := hFound
      obtain ⟨r, rfl, hRun⟩ := dialPolicy_direct hNone hDirect
      have hTried : total (triedExits lib net s id address (some l)) = l := hTotal
      rw [hRun, hTried]
      intro hOk
      obtain ⟨hAccept, hLess⟩ := direct_ok_iff.mp hOk
      obtain ⟨u, -, rfl⟩ := Option.map_eq_some_iff.mp hAccept
      omega
    · rw [dialPolicy_blocked hFound hDirect]
      simp

end

/-! ### The entries -/

/-- A connection to the hub's proxy, with a request of any method, or to the
entry for local programs, in either protocol. -/
inductive Entry where
  | hub (r : ProxyRequest)
  | local (greeted : Bool) (input : List UInt8)

namespace Entry

/-- Who the connection counts for. -/
def source (s : Server) : Entry → Option String
  | .hub r => s.proxySource r
  | .local _ _ => some "cloud"

def destination (lib : Stdlib Conn) : Entry → Option String
  | .hub r => requestDestination lib r
  | .local greeted input => localDestination lib greeted input

def serve (lib : Stdlib Conn) (net : Nat → Network Conn) (s : Server) :
    Entry → Passed (PolicyDial Conn) Conn
  | .hub r => (s.proxyHandler lib net r).passed
  | .local greeted input => (s.runLocalProxy lib net greeted input).passed

end Entry

/-- Without a source or a destination nothing is dialed; otherwise the policy of
the source is obeyed for the destination, only the connection it led to
reaches the client, and a failure is told. -/
def FailClosed (lib : Stdlib Conn) (net : Nat → Network Conn) (s : Server) (e : Entry) : Prop :=
  match e.source s, e.destination lib with
  | some id, some address => ∃ p run, Governs s.state.policies id p ∧
      Obeys lib net s p address run ∧ (e.serve lib net s).dials = [run] ∧
      (∀ c, (e.serve lib net s).conn = some c → run.outcome.result = .ok c) ∧
      (run.outcome.Fails → (e.serve lib net s).refused = true)
  | _, _ => (e.serve lib net s).dials = [] ∧ (e.serve lib net s).conn = none

/-- An entry that passes its dials on is as closed as the policy. -/
theorem failClosed_of_passes {lib : Stdlib Conn} {net : Nat → Network Conn} {s : Server} {e : Entry}
    {id : String} (hSource : e.source s = some id)
    (h : Passes (s.dialPolicy lib net id) (e.destination lib) (e.serve lib net s)) :
    FailClosed lib net s e := by
  unfold FailClosed
  rw [hSource]
  cases hTo : e.destination lib with
  | none =>
      rw [hTo] at h
      exact h
  | some address =>
      rw [hTo] at h
      obtain ⟨left, hDials, hConn, hRefused⟩ := h
      exact ⟨_, _, governs_policyFor s id, dialPolicy_obeys lib net s id address left, hDials, hConn,
        hRefused⟩

/-- Through whichever entry a connection comes, the policy of its source decides
which dials are made for it. -/
theorem entries_failClosed (lib : Stdlib Conn) (net : Nat → Network Conn) (s : Server) (e : Entry) :
    FailClosed lib net s e := by
  cases e with
  | hub r =>
      cases hSource : s.proxySource r with
      | none =>
          have hRefused : s.authorizeProxy lib net r = .error "unauthorized" := by
            rw [Server.authorizeProxy, hSource]
          simp only [FailClosed, Entry.source, hSource]
          exact proxyHandler_unauthorized hRefused
      | some id =>
          have hAuthorized : s.authorizeProxy lib net r = .ok (s.dialPolicy lib net id) := by
            rw [Server.authorizeProxy, hSource]
          exact failClosed_of_passes hSource (proxyHandler_passes hAuthorized)
  | «local» greeted input =>
      exact failClosed_of_passes rfl (serveLocalProxy_passes lib _ greeted input)

end NetConductor
