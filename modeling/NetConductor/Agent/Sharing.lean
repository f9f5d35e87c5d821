import NetConductor.Agent.Join
import NetConductor.Semantics.Routine
import NetConductor.Semantics.Tables

/-! Sharing a proxy of the machine with the server: the request that adds one,
with the listener and the firewall rule it takes, and what a request that is
refused leaves behind. -/
namespace NetConductor
open GoText GoNet Routine

structure SharedPort where
  localPort : Int
  listenPort : Int
deriving DecidableEq

/-- The configuration, as far as the agent's listeners go. -/
structure SharingConfig extends AgentSettings where
  localListen : String
  proxyListen : String
  localToken : String
  shares : List SharedPort
deriving DecidableEq

/-- A firewall rule that allows TCP connections from outside. -/
structure FirewallRule where
  name : String
  displayName : String
  localAddress : String
  localPort : Int
  remoteAddress : String
deriving DecidableEq

/-- Where the goroutine of a listener is: in its loop; after an `Accept` that
failed, with the listener still to be closed; waiting for the lock; at its end. -/
inductive AcceptPhase where
  | accepting
  | failed
  | waiting
  | done
deriving DecidableEq

/-- A listener that `startShare` opened. -/
structure SharedListener where
  address : String
  port : Int
  isOpen : Bool
  phase : AcceptPhase
deriving DecidableEq

def SharedListener.shut (l : SharedListener) : SharedListener := { l with isOpen := false }

/-- The agent's file, its memory, and what the machine has for it. The listeners
are all that were ever opened; the table refers to them by their place. -/
structure Sharing where
  saved : SharingConfig
  cfg : SharingConfig
  shares : AList fun _ : Int => Nat
  listeners : List SharedListener
  rules : List FirewallRule

/-- The body of a request to share a proxy. -/
structure ShareForm where
  port : Int
  listenPort : Int
deriving DecidableEq

/-- How the calls of one request come out: whether the proxy accepts a
connection, the backup, the firewall command, the listener, and the saving of
the configuration. -/
structure ShareOutcome where
  reachable : Bool
  backup : Except String Unit
  firewall : Bool
  listens : Bool
  save : Except String Unit

/-- A request whose listener is open but not yet in the table. -/
structure OpenedShare where
  cfg : SharingConfig
  share : SharedPort
  listener : Nat

namespace Sharing

/-- The addresses the machine listens on for the shares. -/
def sockets (s : Sharing) : List String := (s.listeners.filter (·.isOpen)).map (·.address)

def close (ln : Nat) (s : Sharing) : Sharing :=
  { s with listeners := s.listeners.modify ln .shut }

end Sharing

namespace Agent

/-- `share` up to its first effect: there is nothing to do, or a port to share,
with the server's host. -/
def checkShare (reachable : Bool) (body : Decoded ShareForm) (c : SharingConfig) :
    Except Server.Failure (Option (SharedPort × Chars)) :=
  match body with
  | .error _ => .error ⟨400, "请选择实际代理端口"⟩
  | .ok v =>
      if port v.port = false ∨ port v.listenPort = false ∨ v.listenPort < 1024 ∨ v.port = 17891 ∨
          v.port = 18765 then
        .error ⟨400, "请选择实际代理端口"⟩
      else match splitHostPort c.hubProxy.toList with
        | none => .error ⟨400, "请先入网"⟩
        | some (hub, _) =>
            if parseIP hub = none ∨ parseIPString c.ip = none then .error ⟨400, "请先入网"⟩
            else if reachable = false then .error ⟨400, "本机代理端口未启动"⟩
            else match c.shares.find? (·.listenPort = v.listenPort) with
              | some x => if x.localPort ≠ v.port then .error ⟨409, "共享端口已分配"⟩ else .ok none
              | none => .ok (some (⟨v.port, v.listenPort⟩, hub))

def ruleName (listenPort : Int) : String := "NetConductor-Proxy-" ++ fmtInt listenPort

def shareRule (c : SharingConfig) (hub : Chars) (listenPort : Int) : FirewallRule where
  name := ruleName listenPort
  displayName := ruleName listenPort
  localAddress := c.ip
  localPort := listenPort
  remoteAddress := String.ofList hub

/-- The firewall command: it adds the rule unless there is one of that name. -/
def addRule (rule : FirewallRule) (rules : List FirewallRule) : List FirewallRule :=
  if rules.any (·.name = rule.name) then rules else rules ++ [rule]

/-- The listener for a share, with its goroutine started. Both callers drop the
text of an error. -/
def startShare (listens : Bool) (c : SharingConfig) (p : SharedPort) (s : Sharing) :
    Option (Nat × Sharing) :=
  match splitHostPort c.hubProxy.toList with
  | none => none
  | some _ =>
      if listens then
        some (s.listeners.length, { s with
          listeners := s.listeners ++ [⟨hostPort c.ip p.listenPort, p.listenPort, true, .accepting⟩] })
      else none

/-- `share` up to the listener. -/
def openShare (o : ShareOutcome) (body : Decoded ShareForm) :
    Routine Sharing Server.Failure (Option OpenedShare) := do
  let c := (← get).cfg
  match ← ofAnswer (checkShare o.reachable body c) with
  | none => return none
  | some (share, hub) =>
      ofAnswer (o.backup.mapError fun e => ⟨500, e⟩)
      if o.firewall = false then throw ⟨500, "共享配置失败，请检查后台服务权限"⟩
      modify fun s => { s with rules := addRule (shareRule c hub share.listenPort) s.rules }
      match startShare o.listens c share (← get) with
      | none => throw ⟨409, "共享端口无法监听，请选择其他端口"⟩
      | some (ln, t) =>
          set t
          return some ⟨c, share, ln⟩

/-- The rest of `share`. -/
def commitShare (save : Except String Unit) (w : OpenedShare) : Routine Sharing Server.Failure Unit :=
  let c := { w.cfg with shares := w.cfg.shares ++ [w.share] }
  match save with
  | .error e => do
      modify (Sharing.close w.listener)
      throw ⟨500, e⟩
  | .ok () => modify fun s =>
      { s with saved := c, cfg := c, shares := s.shares.insert w.share.listenPort w.listener }

/-- `Agent.share`: an error, or the answer that all is well. -/
def share (o : ShareOutcome) (body : Decoded ShareForm) : Routine Sharing Server.Failure Unit := do
  match ← openShare o body with
  | none => return ()
  | some w => commitShare o.save w

variable {o : ShareOutcome} {body : Decoded ShareForm} {s : Sharing} {p : SharedPort} {hub : Chars}

/-- What `checkShare` lets pass is a new port on an agent that has joined, and not
one of the two that it names. -/
theorem checkShare_some {reachable : Bool} {c : SharingConfig}
    (h : checkShare reachable body c = .ok (some (p, hub))) :
    (∃ q, splitHostPort c.hubProxy.toList = some (hub, q)) ∧
      (∀ x ∈ c.shares, x.listenPort ≠ p.listenPort) ∧ p.localPort ≠ 17891 ∧ p.localPort ≠ 18765 := by
  unfold checkShare at h
  split at h
  · cases h
  · next v =>
      rcases hSplit : splitHostPort c.hubProxy.toList with _ | ⟨hub', q⟩
      · simp only [hSplit] at h
        split_ifs at h
      · simp only [hSplit] at h
        split_ifs at h with hPorts hJoined hReachable
        split at h
        · split_ifs at h
          cases h
        · next hNone =>
            cases h
            simp only [not_or] at hPorts
            obtain ⟨-, -, -, hProxy, hLocal⟩ := hPorts
            refine ⟨⟨q, rfl⟩, fun x hx hPort => ?_, hProxy, hLocal⟩
            exact absurd (List.find?_eq_none.mp hNone x hx) (by simpa using hPort)

/-- The machine with the listener of a share open. -/
def withListener (c : SharingConfig) (p : SharedPort) (s : Sharing) : Sharing :=
  { s with listeners := s.listeners ++ [⟨hostPort c.ip p.listenPort, p.listenPort, true, .accepting⟩] }

/-- A share starts when the address splits and the port can be listened on. -/
theorem startShare_eq_some {listens : Bool} {c : SharingConfig} {ln : Nat} {t : Sharing} :
    startShare listens c p s = some (ln, t) ↔
      (splitHostPort c.hubProxy.toList).isSome = true ∧ listens = true ∧ ln = s.listeners.length ∧
        t = withListener c p s := by
  unfold startShare
  rcases splitHostPort c.hubProxy.toList with _ | hp
  · simp
  · cases listens <;> simp [withListener, eq_comm]

/-- The machine after a firewall command that was carried out. -/
def withRule (c : SharingConfig) (hub : Chars) (p : SharedPort) (s : Sharing) : Sharing :=
  { s with rules := addRule (shareRule c hub p.listenPort) s.rules }

theorem openShare_error {e : Server.Failure} (h : checkShare o.reachable body s.cfg = .error e) :
    (openShare o body).outcome s = (.error e, s) := by
  simp only [openShare, outcome_bind, outcome_get, outcome_ofAnswer, h]

theorem openShare_present (h : checkShare o.reachable body s.cfg = .ok none) :
    (openShare o body).outcome s = (.ok none, s) := by
  simp only [openShare, outcome_bind, outcome_get, outcome_ofAnswer, h, outcome_pure]

/-- The effects of a request that passes the checks, as far as they go. -/
theorem openShare_checked (h : checkShare o.reachable body s.cfg = .ok (some (p, hub))) :
    (openShare o body).outcome s =
      match o.backup with
      | .error e => (.error ⟨500, e⟩, s)
      | .ok () =>
          if o.firewall = false then (.error ⟨500, "共享配置失败，请检查后台服务权限"⟩, s)
          else if o.listens = false then
            (.error ⟨409, "共享端口无法监听，请选择其他端口"⟩, withRule s.cfg hub p s)
          else
            (.ok (some ⟨s.cfg, p, s.listeners.length⟩), withListener s.cfg p (withRule s.cfg hub p s)) := by
  obtain ⟨⟨q, hSplit⟩, -⟩ := checkShare_some h
  simp only [openShare, outcome_bind, outcome_get, outcome_ofAnswer, h]
  rcases o.backup with e | ⟨⟩
  · rfl
  · cases o.firewall with
    | false => rfl
    | true =>
        simp only [Except.mapError, reduceCtorEq, if_false]
        cases hListens : o.listens with
        | false => simp [startShare, hSplit, outcome_bind, withRule]
        | true => simp [startShare, hSplit, outcome_bind, withListener, withRule, Except.map]

/-- `openShare` opens a listener for a new port, or leaves configuration, table
and listeners alone. -/
theorem openShare_cases (o : ShareOutcome) (body : Decoded ShareForm) (s : Sharing) :
    (∃ p hub, checkShare o.reachable body s.cfg = .ok (some (p, hub)) ∧
      (o.backup = .ok () ∧ o.firewall = true ∧ o.listens = true) ∧
      (openShare o body).outcome s = (.ok (some ⟨s.cfg, p, s.listeners.length⟩),
        withListener s.cfg p (withRule s.cfg hub p s))) ∨
    ∃ r t, (openShare o body).outcome s = (r, t) ∧ (r = .ok none ∨ ∃ e, r = .error e) ∧
      (t.cfg = s.cfg ∧ t.shares = s.shares ∧ t.listeners = s.listeners) ∧
      ∀ p hub, checkShare o.reachable body s.cfg = .ok (some (p, hub)) →
        ¬(o.backup = .ok () ∧ o.firewall = true ∧ o.listens = true) := by
  rcases hCheck : checkShare o.reachable body s.cfg with e | _ | ⟨p, hub⟩
  · exact .inr ⟨_, s, openShare_error hCheck, .inr ⟨e, rfl⟩, ⟨rfl, rfl, rfl⟩, fun _ _ h => by cases h⟩
  · exact .inr ⟨_, s, openShare_present hCheck, .inl rfl, ⟨rfl, rfl, rfl⟩, fun _ _ h => by cases h⟩
  · have hOpen := openShare_checked hCheck
    rcases hBackup : o.backup with e | ⟨⟩
    · rw [hBackup] at hOpen
      exact .inr ⟨_, s, hOpen, .inr ⟨_, rfl⟩, ⟨rfl, rfl, rfl⟩, fun _ _ _ h => by cases h.1⟩
    · rw [hBackup] at hOpen
      dsimp only at hOpen
      split_ifs at hOpen with hFirewall hListens
      · refine .inr ⟨_, s, hOpen, .inr ⟨_, rfl⟩, ⟨rfl, rfl, rfl⟩, fun _ _ _ h => ?_⟩
        cases hFirewall.symm.trans h.2.1
      · refine .inr ⟨_, _, hOpen, .inr ⟨_, rfl⟩, ⟨rfl, rfl, rfl⟩, fun _ _ _ h => ?_⟩
        cases hListens.symm.trans h.2.2
      · rw [Bool.not_eq_false] at hFirewall hListens
        exact .inl ⟨p, hub, rfl, ⟨rfl, hFirewall, hListens⟩, hOpen⟩

theorem share_opened (w : OpenedShare) {t : Sharing} (h : (openShare o body).outcome s = (.ok (some w), t)) :
    (share o body).outcome s = (commitShare o.save w).outcome t := by
  rw [share, outcome_bind, h]

theorem share_present {t : Sharing} (h : (openShare o body).outcome s = (.ok none, t)) :
    (share o body).outcome s = (.ok (), t) := by
  rw [share, outcome_bind, h]
  rfl

theorem share_refused {e : Server.Failure} {t : Sharing}
    (h : (openShare o body).outcome s = (.error e, t)) : (share o body).outcome s = (.error e, t) := by
  rw [share, outcome_bind, h]

end Agent

namespace Sharing

/-- The same file, memory, sockets and rules. -/
structure Unchanged (s t : Sharing) : Prop where
  saved : t.saved = s.saved
  cfg : t.cfg = s.cfg
  shares : t.shares = s.shares
  sockets : t.sockets = s.sockets
  rules : t.rules = s.rules

theorem Unchanged.refl (s : Sharing) : Unchanged s s := ⟨rfl, rfl, rfl, rfl, rfl⟩

theorem modify_last {α : Type} (l : List α) (a : α) (f : α → α) :
    (l ++ [a]).modify l.length f = l ++ [f a] := by
  induction l with
  | nil => rfl
  | cons x rest ih => simpa using ih

/-- A listener that is opened and closed again leaves no socket. -/
theorem sockets_close_open (s : Sharing) (c : SharingConfig) (p : SharedPort) :
    ((Agent.withListener c p s).close s.listeners.length).sockets = s.sockets := by
  simp [sockets, close, Agent.withListener, modify_last, SharedListener.shut]

/-- A rule that is there is not added again. -/
theorem addRule_eq_self {rule : FirewallRule} {rules : List FirewallRule} :
    Agent.addRule rule rules = rules ↔ rules.any (·.name = rule.name) = true := by
  unfold Agent.addRule
  split_ifs with h
  · exact iff_of_true rfl h
  · refine iff_of_false (fun hSame => ?_) h
    simpa using congrArg List.length hSame

/-- A request that passes the checks and whose firewall command is carried out
finds the rule already there, or gets its listener and is saved. -/
def RuleWanted (o : ShareOutcome) (body : Decoded ShareForm) (s : Sharing) : Prop :=
  ∀ p hub, Agent.checkShare o.reachable body s.cfg = .ok (some (p, hub)) →
    o.backup = .ok () → o.firewall = true →
      s.rules.any (·.name = Agent.ruleName p.listenPort) = true ∨
        o.listens = true ∧ o.save = .ok ()

variable {o : ShareOutcome} {body : Decoded ShareForm} {s : Sharing} {p : SharedPort} {hub : Chars}

/-- For a request that passes the checks the condition is about its own port. -/
theorem ruleWanted_checked (h : Agent.checkShare o.reachable body s.cfg = .ok (some (p, hub))) :
    RuleWanted o body s ↔ (o.backup = .ok () → o.firewall = true →
      s.rules.any (·.name = Agent.ruleName p.listenPort) = true ∨
        o.listens = true ∧ o.save = .ok ()) := by
  constructor
  · intro hWanted
    exact hWanted p hub h
  · intro hWanted p' hub' h'
    cases h.symm.trans h'
    exact hWanted

theorem ruleWanted_unchecked
    (h : ∀ p hub, Agent.checkShare o.reachable body s.cfg ≠ .ok (some (p, hub))) :
    RuleWanted o body s := fun p hub hCheck => absurd hCheck (h p hub)

/-- Nothing has changed when the rule was there before. -/
theorem unchanged_withRule : Unchanged s (Agent.withRule s.cfg hub p s) ↔
    s.rules.any (·.name = Agent.ruleName p.listenPort) = true := by
  have hName : Agent.addRule (Agent.shareRule s.cfg hub p.listenPort) s.rules = s.rules ↔
      s.rules.any (·.name = Agent.ruleName p.listenPort) = true := addRule_eq_self
  constructor
  · intro h
    exact hName.mp h.rules
  · intro h
    exact ⟨rfl, rfl, rfl, rfl, hName.mpr h⟩

/-- What the failed save leaves is what the firewall command left. -/
theorem unchanged_close : Unchanged s (close s.listeners.length
      (Agent.withListener s.cfg p (Agent.withRule s.cfg hub p s))) ↔
    Unchanged s (Agent.withRule s.cfg hub p s) := by
  have hSockets := sockets_close_open (Agent.withRule s.cfg hub p s) s.cfg p
  constructor
  · intro h
    exact ⟨h.saved, h.cfg, h.shares, rfl, h.rules⟩
  · intro h
    exact ⟨h.saved, h.cfg, h.shares, hSockets, h.rules⟩

theorem unchanged_of_refused {e : Server.Failure}
    (h : (Agent.openShare o body).outcome s = (.error e, s)) (e' : Server.Failure) (t : Sharing)
    (hShare : (Agent.share o body).outcome s = (.error e', t)) : Unchanged s t := by
  rw [Agent.share_refused h] at hShare
  cases hShare
  exact .refl s

/-- A request that is answered with an error leaves everything as it was exactly
where no firewall rule was made for it. -/
theorem failed_share_undone_iff (o : ShareOutcome) (body : Decoded ShareForm) (s : Sharing) :
    (∀ e t, (Agent.share o body).outcome s = (.error e, t) → Unchanged s t) ↔ RuleWanted o body s := by
  rcases hCheck : Agent.checkShare o.reachable body s.cfg with e | _ | ⟨p, hub⟩
  · refine iff_of_true (unchanged_of_refused (Agent.openShare_error hCheck)) ?_
    exact ruleWanted_unchecked fun p hub h => by cases hCheck.symm.trans h
  · rw [Agent.share_present (Agent.openShare_present hCheck)]
    refine iff_of_true (fun _ _ h => by cases h) ?_
    exact ruleWanted_unchecked fun p hub h => by cases hCheck.symm.trans h
  · have hOpen := Agent.openShare_checked hCheck
    rw [ruleWanted_checked hCheck]
    rcases hBackup : o.backup with e | ⟨⟩
    · rw [hBackup] at hOpen
      exact iff_of_true (unchanged_of_refused hOpen) fun h => by cases h
    cases hFirewall : o.firewall with
    | false =>
        rw [hBackup, hFirewall] at hOpen
        exact iff_of_true (unchanged_of_refused hOpen) fun _ h => by cases h
    | true =>
        rw [hBackup, hFirewall] at hOpen
        cases hListens : o.listens with
        | false =>
            rw [hListens] at hOpen
            rw [Agent.share_refused hOpen]
            simpa using unchanged_withRule
        | true =>
            rw [hListens] at hOpen
            rw [Agent.share_opened _ hOpen]
            rcases hSave : o.save with e | ⟨⟩
            · simpa [Agent.commitShare, outcome_bind] using unchanged_close.trans unchanged_withRule
            · simp [Agent.commitShare]

end Sharing

/-- An agent that has joined a network and shares nothing. -/
def sampleSharing : SharingConfig :=
  { freshSettings with
    id := "0123456789ab", hubProxy := "10.77.0.1:18090", ip := "10.77.0.2",
    localListen := "127.0.0.1:18765", proxyListen := "127.0.0.1:17891", localToken := "local", shares := [] }

/-- Another program has the port already. -/
def portTaken : ShareOutcome := ⟨true, .ok (), true, false, .ok ()⟩

/-- The request is refused, and the rule that opens the port to the server stays. -/
theorem Sharing.taken_port_keeps_rule :
    ¬∀ e t, (Agent.share portTaken (.ok ⟨7890, 17900⟩)).outcome ⟨sampleSharing, sampleSharing, ∅, [], []⟩ =
        (.error e, t) →
      Unchanged ⟨sampleSharing, sampleSharing, ∅, [], []⟩ t := by
  intro h
  have hCheck : Agent.checkShare true (.ok ⟨7890, 17900⟩) sampleSharing =
      .ok (some (⟨7890, 17900⟩, "10.77.0.1".toList)) := by decide +kernel
  have hOpen := Agent.openShare_checked (o := portTaken)
    (s := ⟨sampleSharing, sampleSharing, ∅, [], []⟩) hCheck
  have hRules := (h _ _ (Agent.share_refused hOpen)).rules
  cases hRules

end NetConductor
