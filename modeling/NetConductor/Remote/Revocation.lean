import NetConductor.Remote.Isolation
import NetConductor.Server.Sessions

/-! The websockets of an administrator outlive the request that opened them:
whether a message that comes later is still carried out when the session is
over. `remoteBrowser` asks again for every message, `terminal` does not. -/
namespace NetConductor
open Transition

variable {S : Type} {C : SDPCodec S}

/-- A message to `/api/ssh`: bytes for the shell, or a text from which
`json.Unmarshal` reads columns and rows, if it can. -/
inductive Frame where
  | binary (b : List UInt8)
  | text (size : Option (Int × Int))

/-- The loop of `terminal` writes to the shell or changes its window. -/
def Frame.acts : Frame → Bool
  | .binary _ => true
  | .text none => false
  | .text (some (cols, rows)) => 10 ≤ cols && cols ≤ 500 && 5 ≤ rows && rows ≤ 200

/-- Where `terminal` is. -/
inductive TerminalPhase where
  | connecting
  | serving
  | done
deriving DecidableEq

structure Terminal where
  headers : AdminHeaders
  phase : TerminalPhase

/-- The loop of `remoteBrowser`, seen from the request: `inbox` is a message it
has read and not yet checked, and whether its credential passed when it was
read. -/
structure Console where
  headers : AdminHeaders
  inbox : Option (Message × Bool)

/-- A message was carried out; `live` tells whether the credential of its socket
passed when it was read. -/
structure Carried where
  terminal : Bool
  socket : Nat
  live : Bool
deriving DecidableEq

/-- The hub, and beside it the sockets of the administrator. `issued` are the
values of all session cookies so far. -/
structure Desk where
  hub : Hub
  now : Time
  issued : List String
  consoles : List Console
  terminals : List Terminal
  carried : List Carried

inductive DeskLabel where
  | tick (now : Time)
  | login (addr token : String) (body : Decoded String)
  | logout (headers : AdminHeaders)
  | memory (s : Server)
  | openRemote (headers : AdminHeaders) (id mode : String)
  | read (b : Nat) (m : Message)
  | check (b : Nat) (failure : Option String)
  | hub (l : HubLabel)
  | openTerminal (headers : AdminHeaders)
  | shell (k : Nat)
  | leave (k : Nat)
  | frame (k : Nat) (f : Frame) (ok : Bool)

/-- The loop of `remoteBrowser` forwards the message, makes a session of it, or
hands it to the session it has made. -/
def Browser.actsOn (C : SDPCodec S) (cfg : ServerConfig) (m : Message) (admin : Bool)
    (failure : Option String) (w : Browser) : Bool :=
  match (w.read C cfg m admin failure).1.phase with
  | .forwarding _ => true
  | .serving =>
      decide (m.type = "relay") || decide (w.made.length < (w.read C cfg m admin failure).1.made.length)
  | _ => false

namespace Desk

def server (w : Desk) : Server := w.hub.server

def withServer (s : Server) (w : Desk) : Desk := { w with hub := { w.hub with server := s } }

/-- The steps of the hub that are not said here otherwise. -/
def remaining (w : Desk) : HubLabel → Bool
  | .server _ | .open_ _ _ | .browser _ (.read _ _ _) => false
  | .browser b .fails => (w.consoles[b]?.bind Console.inbox).isNone
  | _ => true

def step (C : SDPCodec S) (w : Desk) : DeskLabel → Option Desk
  | .tick now => if now < w.now then none else some { w with now := now }
  | .login addr token body =>
      if token ∈ w.issued then none
      else
        let out := w.server.login w.now addr token body
        some { w.withServer out.1 with issued := w.issued ++ if out.2.isOk then [token] else [] }
  | .logout h => some (w.withServer (w.server.logout h))
  | .memory s => some (w.withServer s)
  | .openRemote h id mode =>
      if w.server.admin w.now h then
        (w.hub.step C (.open_ id mode)).map fun t =>
          { w with hub := t, consoles := w.consoles ++ [⟨h, none⟩] }
      else some w
  | .read b m => w.consoles[b]?.bind fun x =>
      match w.hub.handlers[b]?.map Browser.phase, x.inbox with
      | some .serving, none => some { w with
          consoles := w.consoles.set b { x with inbox := some (m, w.server.admin w.now x.headers) } }
      | _, _ => none
  | .check b failure => w.consoles[b]?.bind fun x => x.inbox.bind fun i => w.hub.handlers[b]?.bind fun r =>
      (w.hub.step C (.browser b (.read i.1 (w.server.admin w.now x.headers) failure))).map fun t =>
        { w with
          hub := t
          consoles := w.consoles.set b { x with inbox := none }
          carried := w.carried ++
            if r.actsOn C w.server.cfg i.1 (w.server.admin w.now x.headers) failure then
              [⟨false, b, i.2⟩] else [] }
  | .hub l => if w.remaining l then (w.hub.step C l).map fun t => { w with hub := t } else none
  | .openTerminal h =>
      if w.server.admin w.now h then some { w with terminals := w.terminals ++ [⟨h, .connecting⟩] }
      else some w
  | .shell k => w.terminals[k]?.bind fun x =>
      match x.phase with
      | .connecting => some { w with terminals := w.terminals.set k { x with phase := .serving } }
      | _ => none
  | .leave k => w.terminals[k]?.map fun x =>
      { w with terminals := w.terminals.set k { x with phase := .done } }
  | .frame k f ok => w.terminals[k]?.bind fun x =>
      match x.phase with
      | .serving => some { w with
          -- a shell that takes no more input ends the loop, a window that does
          -- not change does not
          terminals := match f, ok with
            | .binary _, false => w.terminals.set k { x with phase := .done }
            | _, _ => w.terminals
          carried := w.carried ++
            if f.acts then [⟨true, k, w.server.admin w.now x.headers⟩] else [] }
      | _ => none

/-- All runs of a server from its start. The other handlers may change the
memory, except for the password and the sessions. -/
def system (C : SDPCodec S) (cfg : ServerConfig) : System Desk DeskLabel where
  initial w := ∃ st now, w = ⟨Hub.start (newServer cfg st), now, [], [], [], []⟩
  step w l v := (∀ s, l = .memory s → w.server.SameAccess s) ∧ w.step C l = some v

/-- Every message carried out was read while the credential of its socket still
passed. -/
def Revoked (w : Desk) : Prop := ∀ c ∈ w.carried, c.live = true

/-- What a terminal carries out comes while its credential still passes. -/
def Authorized (w : Desk) : DeskLabel → Prop
  | .frame k f _ => f.acts = true → ∀ x ∈ w.terminals[k]?, w.server.admin w.now x.headers = true
  | _ => True

instance (w : Desk) (l : DeskLabel) : Decidable (w.Authorized l) := by
  unfold Authorized
  split <;> infer_instance

/-! ### The invariant -/

/-- The headers carry the password, or the cookie of a session that there has
been. -/
def Held (w : Desk) (h : AdminHeaders) : Prop :=
  equal (bearer h.authorization) w.server.cfg.adminToken = true ∨ ∃ c ∈ w.issued, h.cookie = some c

/-- A message that waits for its check with a credential that had already
failed waits in vain: the credential fails from then on. -/
structure Consistent (w : Desk) : Prop where
  sessions : ∀ c t, w.server.sessions.lookup c = some t → c ∈ w.issued
  consoles : ∀ x ∈ w.consoles, w.Held x.headers
  inbox : ∀ x ∈ w.consoles, ∀ m, x.inbox = some (m, false) → w.server.admin w.now x.headers = false

/-- What every step does to the clock, the password and the sessions: of the
cookies handed out, none gets a session again. -/
structure Onward (w v : Desk) : Prop where
  now : w.now ≤ v.now
  cfg : v.server.cfg = w.server.cfg
  issued : w.issued ⊆ v.issued
  ended : ∀ c ∈ w.issued, ∀ t, v.server.sessions.lookup c = some t →
    w.server.sessions.lookup c = some t
  begun : ∀ c t, v.server.sessions.lookup c = some t →
    w.server.sessions.lookup c = some t ∨ c ∈ v.issued

variable {w v : Desk} {l : DeskLabel}

/-- A step that touches no credential goes onward. -/
theorem Onward.of_access (hAccess : w.server.SameAccess v.server) (hNow : w.now ≤ v.now)
    (hIssued : v.issued = w.issued) : Onward w v where
  now := hNow
  cfg := hAccess.cfg
  issued := by rw [hIssued]; exact List.Subset.refl _
  ended := fun c _ t ht => hAccess.sessions ▸ ht
  begun := fun c t ht => .inl (hAccess.sessions ▸ ht)

/-- The hub touches none. -/
theorem hub_access {t : Hub} {l : HubLabel} (hLabel : ∀ s, l ≠ .server s)
    (hStep : w.hub.step C l = some t) : w.server.SameAccess t.server := by
  rcases Hub.step_server hLabel hStep with hSame | ⟨now, action, detail, hAudit⟩
  · rw [hSame]
    exact Server.SameAccess.refl _
  · rw [hAudit]
    exact Server.SameAccess.audit ..

/-- A new cookie is one that was not handed out before. -/
theorem onward_login {addr token : String} {body : Decoded String}
    (hStep : w.step C (.login addr token body) = some v) : Onward w v := by
  by_cases hFresh : token ∈ w.issued
  · simp [step, hFresh] at hStep
  simp only [step, if_neg hFresh, Option.some.injEq] at hStep
  subst hStep
  obtain ⟨hCfg, ⟨hFail, hSessions⟩ | ⟨hOk, hSessions⟩⟩ :=
    Server.login_sessions w.now addr token body w.server
  · refine ⟨Nat.le_refl _, hCfg, List.subset_append_left .., fun c _ t ht => ?_, fun c t ht => .inl ?_⟩
    · exact hSessions ▸ ht
    · exact hSessions ▸ ht
  · have hLookup : ∀ c t, (w.server.login w.now addr token body).1.sessions.lookup c = some t →
        c = token ∨ w.server.sessions.lookup c = some t := by
      intro c t ht
      rw [hSessions] at ht
      rcases lookup_of_insert ht with ⟨rfl, -⟩ | ⟨-, hOld⟩
      · exact .inl rfl
      · exact .inr (lookup_deleteIf.mp hOld).1
    refine ⟨Nat.le_refl _, hCfg, List.subset_append_left .., fun c hc t ht => ?_, fun c t ht => ?_⟩
    · exact (hLookup c t ht).resolve_left fun hToken => hFresh (hToken ▸ hc)
    · rcases hLookup c t ht with rfl | hOld
      · exact .inr (by simp [hOk, Except.isOk, Except.toBool])
      · exact .inl hOld

/-- A logout ends one session, and begins none. -/
theorem onward_logout {h : AdminHeaders} (hStep : w.step C (.logout h) = some v) : Onward w v := by
  cases hStep
  have hLookup : ∀ c t, (w.server.logout h).sessions.lookup c = some t →
      w.server.sessions.lookup c = some t := by
    intro c t ht
    unfold Server.logout at ht
    split at ht
    · exact ht
    · exact (lookup_of_erase ht).2
  refine ⟨Nat.le_refl _, ?_, List.Subset.refl _, fun c _ t ht => hLookup c t ht,
    fun c t ht => .inl (hLookup c t ht)⟩
  change (w.server.logout h).cfg = w.server.cfg
  unfold Server.logout
  split <;> rfl

/-- No step brings a cookie back; the hub and the terminals leave the sessions alone. -/
theorem step_onward {cfg : ServerConfig} (hStep : (system C cfg).step w l v) : Onward w v := by
  obtain ⟨hMemory, hStep⟩ := hStep
  have hSelf := Server.SameAccess.refl w.server
  cases l with
  | tick now =>
      simp only [step] at hStep
      split_ifs at hStep with hClock
      cases hStep
      exact .of_access hSelf (Nat.not_lt.mp hClock) rfl
  | login addr token body => exact onward_login hStep
  | logout h => exact onward_logout hStep
  | memory s =>
      cases hStep
      exact .of_access (hMemory s rfl) (Nat.le_refl _) rfl
  | openRemote h id mode =>
      simp only [step] at hStep
      split_ifs at hStep
      · obtain ⟨t, hHub, rfl⟩ := Option.map_eq_some_iff.mp hStep
        exact .of_access (hub_access (by simp) hHub) (Nat.le_refl _) rfl
      · cases hStep
        exact .of_access hSelf (Nat.le_refl _) rfl
  | read b m =>
      obtain ⟨x, -, hStep⟩ := Option.bind_eq_some_iff.mp hStep
      split at hStep <;> cases hStep
      exact .of_access hSelf (Nat.le_refl _) rfl
  | check b failure =>
      obtain ⟨x, -, hStep⟩ := Option.bind_eq_some_iff.mp hStep
      obtain ⟨i, -, hStep⟩ := Option.bind_eq_some_iff.mp hStep
      obtain ⟨r, -, hStep⟩ := Option.bind_eq_some_iff.mp hStep
      obtain ⟨t, hHub, rfl⟩ := Option.map_eq_some_iff.mp hStep
      exact .of_access (hub_access (by simp) hHub) (Nat.le_refl _) rfl
  | hub l =>
      simp only [step] at hStep
      split_ifs at hStep with hRemaining
      obtain ⟨t, hHub, rfl⟩ := Option.map_eq_some_iff.mp hStep
      refine .of_access (hub_access ?_ hHub) (Nat.le_refl _) rfl
      rintro s rfl
      cases hRemaining
  | openTerminal h =>
      simp only [step] at hStep
      split_ifs at hStep <;> cases hStep <;> exact .of_access hSelf (Nat.le_refl _) rfl
  | shell k =>
      obtain ⟨x, -, hStep⟩ := Option.bind_eq_some_iff.mp hStep
      split at hStep <;> cases hStep
      exact .of_access hSelf (Nat.le_refl _) rfl
  | leave k =>
      obtain ⟨x, -, rfl⟩ := Option.map_eq_some_iff.mp hStep
      exact .of_access hSelf (Nat.le_refl _) rfl
  | frame k f ok =>
      obtain ⟨x, -, hStep⟩ := Option.bind_eq_some_iff.mp hStep
      split at hStep <;> cases hStep
      exact .of_access hSelf (Nat.le_refl _) rfl

theorem Onward.held (h : Onward w v) {k : AdminHeaders} (hHeld : w.Held k) : v.Held k := by
  rcases hHeld with hBearer | ⟨c, hc, hCookie⟩
  · exact .inl (h.cfg ▸ hBearer)
  · exact .inr ⟨c, h.issued hc, hCookie⟩

/-- A credential that fails keeps failing. -/
theorem Onward.fails (h : Onward w v) {k : AdminHeaders} (hHeld : w.Held k)
    (hFails : w.server.admin w.now k = false) : v.server.admin v.now k = false := by
  rw [← Bool.not_eq_true, Server.admin_true] at hFails ⊢
  rintro (hBearer | ⟨c, t, hCookie, hLookup, hTime⟩)
  · exact hFails (.inl (h.cfg ▸ hBearer))
  · rcases hHeld with hBearer | ⟨c', hc', hCookie'⟩
    · exact hFails (.inl hBearer)
    · obtain rfl := Option.some.inj (hCookie.symm.trans hCookie')
      exact hFails (.inr ⟨c, t, hCookie, h.ended c hc' t hLookup, Nat.lt_of_le_of_lt h.now hTime⟩)

/-- Who passes has the password or a session. -/
theorem Consistent.held (hInv : w.Consistent) {k : AdminHeaders}
    (hAdmin : w.server.admin w.now k = true) : w.Held k := by
  rcases Server.admin_true.mp hAdmin with hBearer | ⟨c, t, hCookie, hLookup, -⟩
  · exact .inl hBearer
  · exact .inr ⟨c, hInv.sessions c t hLookup, hCookie⟩

/-- Nothing is done for a message whose check fails. -/
theorem admin_of_actsOn {r : Browser} {scfg : ServerConfig} {m : Message} {admin : Bool}
    {failure : Option String} (h : r.actsOn C scfg m admin failure = true) : admin = true := by
  cases admin with
  | true => rfl
  | false => cases h

/-- What a step does to the consoles and to what is carried out: nothing, unless
it opens a console, reads or checks a message of one, or reads a frame. -/
inductive Handles (w : Desk) : DeskLabel → Desk → Prop where
  | nothing {l : DeskLabel} {v : Desk} (hAuthorized : w.Authorized l)
      (hConsoles : v.consoles = w.consoles) (hCarried : v.carried = w.carried) : Handles w l v
  | opens {l : DeskLabel} {v : Desk} (h : AdminHeaders) (hAuthorized : w.Authorized l)
      (hAdmin : w.server.admin w.now h = true) (hConsoles : v.consoles = w.consoles ++ [⟨h, none⟩])
      (hCarried : v.carried = w.carried) : Handles w l v
  | reads (b : Nat) (x : Console) (m : Message) (hx : w.consoles[b]? = some x) :
      Handles w (.read b m) { w with
        consoles := w.consoles.set b { x with inbox := some (m, w.server.admin w.now x.headers) } }
  | checks {v : Desk} (b : Nat) (failure : Option String) (x : Console) (m : Message) (live acts : Bool)
      (hx : w.consoles[b]? = some x) (hInbox : x.inbox = some (m, live))
      (hActs : acts = true → w.server.admin w.now x.headers = true)
      (hConsoles : v.consoles = w.consoles.set b { x with inbox := none })
      (hCarried : v.carried = w.carried ++ if acts then [⟨false, b, live⟩] else []) :
      Handles w (.check b failure) v
  | frame {v : Desk} (k : Nat) (f : Frame) (ok : Bool) (x : Terminal) (hx : w.terminals[k]? = some x)
      (hConsoles : v.consoles = w.consoles)
      (hCarried : v.carried =
        w.carried ++ if f.acts then [⟨true, k, w.server.admin w.now x.headers⟩] else []) :
      Handles w (.frame k f ok) v

/-- Only the consoles and the frames of terminals have something carried out. -/
theorem step_handles (hStep : w.step C l = some v) : Handles w l v := by
  cases l with
  | tick now =>
      simp only [step] at hStep
      split_ifs at hStep
      cases hStep
      exact .nothing trivial rfl rfl
  | login addr token body =>
      by_cases hFresh : token ∈ w.issued
      · simp [step, hFresh] at hStep
      simp only [step, if_neg hFresh, Option.some.injEq] at hStep
      subst hStep
      exact .nothing trivial rfl rfl
  | logout h =>
      cases hStep
      exact .nothing trivial rfl rfl
  | memory s =>
      cases hStep
      exact .nothing trivial rfl rfl
  | openRemote h id mode =>
      simp only [step] at hStep
      split_ifs at hStep with hAdmin
      · obtain ⟨t, -, rfl⟩ := Option.map_eq_some_iff.mp hStep
        exact .opens h trivial hAdmin rfl rfl
      · cases hStep
        exact .nothing trivial rfl rfl
  | read b m =>
      obtain ⟨x, hx, hStep⟩ := Option.bind_eq_some_iff.mp hStep
      split at hStep <;> cases hStep
      exact .reads b x m hx
  | check b failure =>
      obtain ⟨x, hx, hStep⟩ := Option.bind_eq_some_iff.mp hStep
      obtain ⟨⟨m, live⟩, hInbox, hStep⟩ := Option.bind_eq_some_iff.mp hStep
      obtain ⟨r, -, hStep⟩ := Option.bind_eq_some_iff.mp hStep
      obtain ⟨t, -, rfl⟩ := Option.map_eq_some_iff.mp hStep
      exact .checks b failure x m live _ hx hInbox admin_of_actsOn rfl rfl
  | hub l =>
      simp only [step] at hStep
      split_ifs at hStep
      obtain ⟨t, -, rfl⟩ := Option.map_eq_some_iff.mp hStep
      exact .nothing trivial rfl rfl
  | openTerminal h =>
      simp only [step] at hStep
      split_ifs at hStep <;> cases hStep <;> exact .nothing trivial rfl rfl
  | shell k =>
      obtain ⟨x, -, hStep⟩ := Option.bind_eq_some_iff.mp hStep
      split at hStep <;> cases hStep
      exact .nothing trivial rfl rfl
  | leave k =>
      obtain ⟨x, -, rfl⟩ := Option.map_eq_some_iff.mp hStep
      exact .nothing trivial rfl rfl
  | frame k f ok =>
      obtain ⟨x, hx, hStep⟩ := Option.bind_eq_some_iff.mp hStep
      split at hStep <;> cases hStep
      exact .frame k f ok x hx rfl rfl

/-- Every step keeps sessions and requests together: a request that was let in had a
session. -/
theorem Consistent.step (hInv : w.Consistent) {cfg : ServerConfig}
    (hStep : (system C cfg).step w l v) : v.Consistent := by
  have hOnward := step_onward hStep
  have hSessions : ∀ c t, v.server.sessions.lookup c = some t → c ∈ v.issued := by
    intro c t ht
    rcases hOnward.begun c t ht with hOld | hNew
    · exact hOnward.issued (hInv.sessions c t hOld)
    · exact hNew
  have hHeld : ∀ x ∈ w.consoles, v.Held x.headers := fun x hx => hOnward.held (hInv.consoles x hx)
  have hFails : ∀ x ∈ w.consoles, ∀ m, x.inbox = some (m, false) →
      v.server.admin v.now x.headers = false :=
    fun x hx m hm => hOnward.fails (hInv.consoles x hx) (hInv.inbox x hx m hm)
  cases step_handles hStep.2 with
  | nothing _ hConsoles => exact ⟨hSessions, hConsoles ▸ hHeld, hConsoles ▸ hFails⟩
  | frame k f ok x _ hConsoles => exact ⟨hSessions, hConsoles ▸ hHeld, hConsoles ▸ hFails⟩
  | opens h _ hAdmin hConsoles =>
      refine ⟨hSessions, fun x hx => ?_, fun x hx m hm => ?_⟩ <;> rw [hConsoles] at hx <;>
        rcases List.mem_append.mp hx with hOld | hNew
      · exact hHeld x hOld
      · obtain rfl := List.mem_singleton.mp hNew
        exact hOnward.held (hInv.held hAdmin)
      · exact hFails x hOld m hm
      · obtain rfl := List.mem_singleton.mp hNew
        cases hm
  | reads b x m hx =>
      have hMem := List.mem_of_getElem? hx
      refine ⟨hSessions, fun y hy => ?_, fun y hy m' hm => ?_⟩ <;>
        rcases List.mem_or_eq_of_mem_set hy with hOld | rfl
      · exact hHeld y hOld
      · exact hHeld x hMem
      · exact hFails y hOld m' hm
      · exact (Prod.mk.inj (Option.some.inj hm)).2
  | checks b failure x m live acts hx hInbox _ hConsoles =>
      have hMem := List.mem_of_getElem? hx
      refine ⟨hSessions, fun y hy => ?_, fun y hy m' hm => ?_⟩ <;> rw [hConsoles] at hy <;>
        rcases List.mem_or_eq_of_mem_set hy with hOld | rfl
      · exact hHeld y hOld
      · exact hHeld x hMem
      · exact hFails y hOld m' hm
      · cases hm

theorem consistent_start {cfg : ServerConfig} (h : (system C cfg).initial w) : w.Consistent := by
  obtain ⟨st, now, rfl⟩ := h
  refine ⟨fun c t ht => ?_, by simp, by simp⟩
  cases ht

/-- A step carries out messages of live credentials only, if a terminal does. -/
theorem revoked_step (hInv : w.Consistent) (hStep : w.step C l = some v) :
    v.Revoked ↔ w.Revoked ∧ w.Authorized l := by
  have hSame : w.Authorized l → v.carried = w.carried → (v.Revoked ↔ w.Revoked ∧ w.Authorized l) := by
    intro hAuthorized hCarried
    rw [Revoked, hCarried]
    exact ⟨fun h => ⟨h, hAuthorized⟩, fun h => h.1⟩
  have hMore : ∀ {e : Carried} {acts : Bool}, v.carried = w.carried ++ (if acts then [e] else []) →
      (v.Revoked ↔ w.Revoked ∧ (acts = true → e.live = true)) := by
    intro e acts hCarried
    rw [Revoked, hCarried, List.forall_mem_append]
    cases acts <;> simp [Revoked]
  cases step_handles hStep with
  | nothing hAuthorized _ hCarried => exact hSame hAuthorized hCarried
  | opens h hAuthorized _ _ hCarried => exact hSame hAuthorized hCarried
  | reads b x m hx => exact hSame trivial rfl
  | checks b failure x m live acts hx hInbox hActs _ hCarried =>
      -- a message that was read too late is not carried out
      have hLive : acts = true → live = true := by
        intro hDone
        cases live with
        | true => rfl
        | false => exact absurd (hActs hDone) (by simp [hInv.inbox x (List.mem_of_getElem? hx) m hInbox])
      rw [hMore hCarried]
      exact ⟨fun h => ⟨h.1, trivial⟩, fun h => ⟨h.1, hLive⟩⟩
  | frame k f ok x hx _ hCarried =>
      have hAuthorized : w.Authorized (.frame k f ok) ↔
          (f.acts = true → w.server.admin w.now x.headers = true) := by
        simp [Authorized, hx]
      rw [hAuthorized]
      exact hMore hCarried

/-- A session's end ends the power of its sockets in exactly the runs in which
no terminal reads a keystroke or a window size after its credential has failed. -/
theorem revoked_iff {cfg : ServerConfig} {labels : List DeskLabel}
    (hStart : (system C cfg).initial w) (run : Runs (system C cfg) w labels v) :
    v.Revoked ↔ Runs ((system C cfg).guarded Authorized) w labels v := by
  refine Runs.guarded_iff (I := Consistent) (P := Revoked) ?_
    (fun _ _ _ h hStep => h.step hStep) (fun _ _ _ h hStep => revoked_step h hStep.2) run
    (consistent_start hStart) ?_
  · intro s l t u ht hu
    exact Option.some.inj (ht.2.symm.trans hu.2)
  · obtain ⟨st, now, rfl⟩ := hStart
    simp [Revoked]

/-- A server that has just started. -/
def first : Desk :=
  ⟨Hub.start (newServer sampleConfig (firstState sampleConfig "secret")), 0, [], [], [], []⟩

theorem first_initial : (system C sampleConfig).initial first := ⟨_, 0, rfl⟩

/-- The administrator logs in and opens a shell. -/
def shellOpened : List DeskLabel :=
  [.login "198.51.100.1" "cookie" (.ok sampleConfig.adminToken), .openTerminal ⟨"", some "cookie"⟩,
    .shell 0]

def keystroke : DeskLabel := .frame 0 (.binary [10]) true

/-- What is followed here changes no memory behind the handlers' back. -/
theorem run_of_follow (cfg : ServerConfig) (guard : Desk → DeskLabel → Bool) {labels : List DeskLabel}
    (hMemory : ∀ l ∈ labels, ∀ s, l ≠ .memory s)
    (h : follow (fun w l => if guard w l = true then w.step C l else none) w labels = some v) :
    Runs ((system C cfg).guarded fun w l => guard w l = true) w labels v := by
  induction labels generalizing w with
  | nil =>
      cases h
      exact Runs.nil _
  | cons l rest ih =>
      obtain ⟨u, hFirst, hRest⟩ := Option.bind_eq_some_iff.mp h
      dsimp only at hFirst
      split_ifs at hFirst with hGuard
      have hLabel : ∀ s, l = .memory s → w.server.SameAccess s := fun s hs =>
        absurd hs (hMemory l (by simp) s)
      have hStep : ((system C cfg).guarded fun w l => guard w l = true).step w l u :=
        ⟨hGuard, hLabel, hFirst⟩
      exact (Runs.single hStep).trans (ih (fun l' hl' => hMemory l' (List.mem_cons_of_mem l hl')) hRest)

/-- A keystroke before the logout is carried, and after it none can be. -/
theorem keystroke_authorized : ∃ v : Desk, v.Revoked ∧ v.carried = [⟨true, 0, true⟩] := by
  have hRun : ∃ v, follow (fun w l => if decide (w.Authorized l) = true then w.step textCodec l
      else none) first (shellOpened ++ [keystroke]) = some v ∧ v.carried = [⟨true, 0, true⟩] := by
    refine ⟨_, rfl, ?_⟩
    decide +kernel
  obtain ⟨v, hFollow, hCarried⟩ := hRun
  have hGuarded := run_of_follow sampleConfig (fun w l => decide (w.Authorized l))
    (by simp [shellOpened, keystroke]) hFollow
  simp only [decide_eq_true_eq] at hGuarded
  exact ⟨v, (revoked_iff first_initial hGuarded.of_guarded).mpr hGuarded, hCarried⟩

/-- A keystroke that comes after the administrator has logged out. -/
theorem keystroke_after_logout :
    ¬∀ (cfg : ServerConfig) (w v : Desk) (labels : List DeskLabel),
      (system textCodec cfg).initial w → Runs (system textCodec cfg) w labels v → v.Revoked := by
  intro hAll
  have hRun : ∃ v, follow (fun w l => if true = true then w.step textCodec l else none) first
      (shellOpened ++ [.logout ⟨"", some "cookie"⟩, keystroke]) = some v ∧
        v.carried = [⟨true, 0, false⟩] := by
    refine ⟨_, rfl, ?_⟩
    decide +kernel
  obtain ⟨v, hFollow, hCarried⟩ := hRun
  have hGuarded := run_of_follow sampleConfig (fun _ _ => true) (by simp [shellOpened, keystroke]) hFollow
  have hRevoked := hAll sampleConfig first v _ first_initial hGuarded.of_guarded
  have hLive := hRevoked ⟨true, 0, false⟩ (by rw [hCarried]; exact List.mem_singleton_self _)
  exact absurd hLive (by decide)

end Desk
end NetConductor
