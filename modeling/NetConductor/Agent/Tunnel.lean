import NetConductor.Agent.Join
import NetConductor.Semantics.Transition

/-! The tunnel service of the agent: `join` installs it, `repair` restarts or
reinstalls it, and the recovery loop starts or reinstalls it. A tunnel that was
there before the agent is left as it is. -/
namespace NetConductor
open Transition

/-- The states of a Windows service. -/
inductive ServiceState where
  | stopped
  | startPending
  | stopPending
  | running
  | continuePending
  | pausePending
  | paused
deriving DecidableEq

/-- What the service manager answers for the tunnel's service. -/
inductive OpenedService where
  | missing
  | failed
  | found
deriving DecidableEq

/-- What is done to the tunnel named by the interface, or learned about it. -/
inductive TunnelAct where
  | opened (iface : String) (answer : OpenedService)
  | queried (iface : String) (state : ServiceState)
  | started (iface : String)
  | restarted (iface : String)
  | wrote (iface text : String)
  | installed (iface text : String)
deriving DecidableEq

/-- How writing the configuration and installing the service go. -/
structure InstallOutcome where
  written : Bool
  installed : Bool
deriving DecidableEq

structure RepairOutcome where
  backup : Bool
  windows : Bool
  restarted : Bool
  install : InstallOutcome
deriving DecidableEq

/-- `state` is what the service answers when it is queried. -/
structure RecoveryOutcome where
  windows : Bool
  inTime : Bool
  manager : Bool
  service : OpenedService
  state : Option ServiceState
  started : Bool
  install : InstallOutcome
deriving DecidableEq

structure RecoveryBackoff where
  next : Time
  delay : Time
deriving DecidableEq

def RecoveryBackoff.record (now : Time) (failed : Bool) (b : RecoveryBackoff) : RecoveryBackoff :=
  if failed = false then ⟨now + 30 * second, 0⟩
  else
    let delay := min (if b.delay = 0 then 30 * second else b.delay * 2) (5 * minute)
    ⟨now + delay, delay⟩

namespace Agent

/-- `installTunnel`, and whether it succeeds. -/
def installTunnel (o : InstallOutcome) (c : AgentSettings) : List TunnelAct × Bool :=
  if c.tunnelConfig = "" then ([], false)
  else if o.written = false then ([.wrote c.iface c.tunnelConfig], false)
  else ([.wrote c.iface c.tunnelConfig, .installed c.iface c.tunnelConfig], o.installed)

/-- `repair`; without its backup it does nothing. -/
def repair (o : RepairOutcome) (c : AgentSettings) : List TunnelAct × Bool :=
  if o.backup = false ∨ o.windows = false then ([], false)
  else if o.restarted then ([.restarted c.iface], true)
  else if c.tunnelConfig = "" then ([.restarted c.iface], false)
  else
    let installed := installTunnel o.install c
    (.restarted c.iface :: installed.1, installed.2)

def startStoppedTunnel (o : RecoveryOutcome) (c : AgentSettings) : List TunnelAct × Bool :=
  match o.state with
  | none => ([], false)
  | some state =>
      -- running or on its way: leave the network alone
      if state ≠ .stopped then ([.queried c.iface state], true)
      else ([.queried c.iface state, .started c.iface], o.started)

def ensureTunnel (o : RecoveryOutcome) (c : AgentSettings) : List TunnelAct × Bool :=
  if o.windows = false then ([], true)
  else if o.inTime = false ∨ o.manager = false then ([], false)
  else if o.service = .missing ∧ c.tunnelConfig ≠ "" then
    let installed := installTunnel o.install c
    (.opened c.iface o.service :: installed.1, installed.2)
  else if o.service ≠ .found then ([.opened c.iface o.service], false)
  else
    let started := startStoppedTunnel o c
    (.opened c.iface o.service :: started.1, started.2)

end Agent

/-- A join that was saved: what the agent now works with, and whether it adopted
the tunnel or made a configuration of its own. -/
structure Takeover where
  adopt : Bool
  iface : String
  text : String
deriving DecidableEq

inductive TunnelCaller where
  | join
  | repair
  | recovery
deriving DecidableEq

/-- What one critical section did, and the last join before it. -/
structure TunnelWork where
  caller : TunnelCaller
  current : Option Takeover
  acts : List TunnelAct
deriving DecidableEq

/-- The agent, with all that was done to its tunnel. -/
structure TunnelAgent where
  settings : AgentSettings
  backoff : RecoveryBackoff
  current : Option Takeover
  work : List TunnelWork

inductive TunnelLabel where
  | join (o : JoinSources) (body : Decoded JoinForm) (fetched : Fetched) (saved : Bool)
      (install : InstallOutcome)
  | repair (o : RepairOutcome)
  | recovery (now : Time) (o : RecoveryOutcome)

namespace TunnelAgent

/-- A join that gets as far as the new configuration on disk. -/
def takes (w : TunnelAgent) (o : JoinSources) (body : Decoded JoinForm) (fetched : Fetched)
    (saved : Bool) : Option (PreparedJoin × JoinReply) :=
  match Agent.prepareJoin o body w.settings, Agent.readJoin fetched with
  | .ok p, .ok r => if saved then some (p, r) else none
  | _, _ => none

def takeOver (p : PreparedJoin) (r : JoinReply) (install : InstallOutcome) (w : TunnelAgent) :
    TunnelAgent :=
  let c := Agent.joinedSettings p r w.settings
  let current := some ⟨p.form.adopt, c.iface, c.tunnelConfig⟩
  { w with
    settings := c
    current := current
    work := w.work ++
      [⟨.join, current, if p.form.adopt then [] else (Agent.installTunnel install c).1⟩] }

/-- Every handler holds `op` from its first to its last line. -/
def step (w : TunnelAgent) : TunnelLabel → TunnelAgent
  | .join o body fetched saved install =>
      match w.takes o body fetched saved with
      | none => w
      | some (p, r) => w.takeOver p r install
  | .repair o => { w with work := w.work ++ [⟨.repair, w.current, (Agent.repair o w.settings).1⟩] }
  | .recovery now o =>
      if now < w.backoff.next ∨ w.settings.id = "" then w
      else
        let out := Agent.ensureTunnel o w.settings
        { w with
          backoff := w.backoff.record now !out.2
          work := w.work ++ [⟨.recovery, w.current, out.1⟩] }

/-- All runs of an agent that has not joined a network. -/
def system : System TunnelAgent TunnelLabel where
  initial w := w = ⟨freshSettings, ⟨0, 0⟩, none, []⟩
  step w l v := v = w.step l

/-! ### Whose tunnel it is -/

/-- The text is the configuration that the last join made for the interface. -/
def Made (current : Option Takeover) (iface text : String) : Prop := current = some ⟨false, iface, text⟩

/-- A configuration is written, and a service installed, only from what the last
join made itself; the recovery loop starts what it found stopped, and installs
what it found missing. -/
structure Careful (s : TunnelWork) : Prop where
  wrote : ∀ iface text, .wrote iface text ∈ s.acts → Made s.current iface text
  installed : ∀ iface text, .installed iface text ∈ s.acts → Made s.current iface text
  stopped : s.caller = .recovery → ∀ iface, .started iface ∈ s.acts →
    .queried iface .stopped ∈ s.acts
  missing : s.caller = .recovery → ∀ iface text, .installed iface text ∈ s.acts →
    .opened iface .missing ∈ s.acts

/-- Tunnels that were adopted are not rebuilt. -/
def Owned (w : TunnelAgent) : Prop := ∀ s ∈ w.work, Careful s

/-- No tunnel is adopted while there is a configuration from an earlier join. -/
def Clear (w : TunnelAgent) : TunnelLabel → Prop
  | .join o body fetched saved _ =>
      ∀ t ∈ w.takes o body fetched saved, t.1.form.adopt = true → w.settings.tunnelConfig = ""
  | _ => True

instance (w : TunnelAgent) (l : TunnelLabel) : Decidable (w.Clear l) := by
  unfold Clear
  split <;> infer_instance

/-- The configuration in use is the one that the last join made, and there is
none if it adopted. -/
def Tidy (w : TunnelAgent) : Prop :=
  w.settings.tunnelConfig = "" ∨ Made w.current w.settings.iface w.settings.tunnelConfig

end TunnelAgent

/-! ### What the handlers do -/

namespace Agent

variable {c : AgentSettings}

/-- An install writes and starts the configuration of the settings, never an empty one.
-/
theorem mem_installTunnel {o : InstallOutcome} {a : TunnelAct} (h : a ∈ (installTunnel o c).1) :
    c.tunnelConfig ≠ "" ∧ (a = .wrote c.iface c.tunnelConfig ∨ a = .installed c.iface c.tunnelConfig) := by
  unfold installTunnel at h
  split_ifs at h with hNone hWritten
  · cases h
  · exact ⟨hNone, .inl (List.mem_singleton.mp h)⟩
  · exact ⟨hNone, by simpa using h⟩

/-- `repair` restarts the tunnel, and reinstalls one that has a configuration. -/
theorem mem_repair {o : RepairOutcome} {a : TunnelAct} (h : a ∈ (repair o c).1) :
    a = .restarted c.iface ∨ a ∈ (installTunnel o.install c).1 := by
  unfold repair at h
  split_ifs at h
  · cases h
  · exact .inl (List.mem_singleton.mp h)
  · exact .inl (List.mem_singleton.mp h)
  · exact List.mem_cons.mp h

/-- The recovery loop installs a service that is missing, or looks at one that
is there and starts it when it is stopped. -/
theorem ensureTunnel_cases (o : RecoveryOutcome) (c : AgentSettings) :
    ((ensureTunnel o c).1 = [] ∨ ∃ answer, (ensureTunnel o c).1 = [.opened c.iface answer]) ∨
    (ensureTunnel o c).1 = .opened c.iface .missing :: (installTunnel o.install c).1 ∨
    (∃ state, (ensureTunnel o c).1 = [.opened c.iface .found, .queried c.iface state]) ∨
    (ensureTunnel o c).1 =
      [.opened c.iface .found, .queried c.iface .stopped, .started c.iface] := by
  unfold ensureTunnel
  split_ifs with hWindows hTime hMissing hFound
  · exact .inl (.inl rfl)
  · exact .inl (.inl rfl)
  · exact .inr (.inl (by rw [hMissing.1]))
  · exact .inl (.inr ⟨_, rfl⟩)
  · rw [not_not.mp hFound]
    unfold startStoppedTunnel
    split
    · exact .inl (.inr ⟨_, rfl⟩)
    · next state hState =>
        split_ifs with hStopped
        · exact .inr (.inr (.inl ⟨state, rfl⟩))
        · exact .inr (.inr (.inr (by rw [not_not.mp hStopped])))

end Agent

namespace TunnelAgent

variable {w v : TunnelAgent} {l : TunnelLabel}

/-- Work is careful that opens, restarts and installs nothing but the configuration that
the join made. -/
theorem careful_install {caller : TunnelCaller} {c : AgentSettings} {current : Option Takeover}
    (hMade : c.tunnelConfig ≠ "" → Made current c.iface c.tunnelConfig) {acts : List TunnelAct}
    (hActs : ∀ a ∈ acts, (∃ iface answer, a = .opened iface answer) ∨ a = .restarted c.iface ∨
      ∃ o, a ∈ (Agent.installTunnel o c).1)
    (hMissing : caller = .recovery → .opened c.iface .missing ∈ acts) :
    Careful ⟨caller, current, acts⟩ := by
  have hInstall : ∀ a ∈ acts, ∀ iface text, a = .wrote iface text ∨ a = .installed iface text →
      Made current iface text ∧ iface = c.iface := by
    intro a ha iface text hKind
    rcases hActs a ha with ⟨i, answer, rfl⟩ | rfl | ⟨o, hMem⟩
    · rcases hKind with h | h <;> cases h
    · rcases hKind with h | h <;> cases h
    · obtain ⟨hConfig, rfl | rfl⟩ := Agent.mem_installTunnel hMem
      · rcases hKind with h | h <;> cases h
        exact ⟨hMade hConfig, rfl⟩
      · rcases hKind with h | h <;> cases h
        exact ⟨hMade hConfig, rfl⟩
  refine ⟨fun iface text h => (hInstall _ h iface text (.inl rfl)).1,
    fun iface text h => (hInstall _ h iface text (.inr rfl)).1, fun _ iface h => ?_,
    fun hCaller iface text h => ?_⟩
  · rcases hActs _ h with ⟨i, answer, h⟩ | h | ⟨o, hMem⟩
    · cases h
    · cases h
    · obtain ⟨-, h | h⟩ := Agent.mem_installTunnel hMem <;> cases h
  · rw [(hInstall _ h iface text (.inr rfl)).2]
    exact hMissing hCaller

/-- One pass of the recovery loop. -/
theorem careful_recovery {o : RecoveryOutcome} {c : AgentSettings} {current : Option Takeover}
    (hMade : c.tunnelConfig ≠ "" → Made current c.iface c.tunnelConfig) :
    Careful ⟨.recovery, current, (Agent.ensureTunnel o c).1⟩ := by
  rcases Agent.ensureTunnel_cases o c with (hNone | ⟨answer, hOpened⟩) | hInstall |
    ⟨state, hQueried⟩ | hStarted
  · rw [hNone]
    constructor <;> simp
  · rw [hOpened]
    constructor <;> simp
  · rw [hInstall]
    refine careful_install hMade (fun a ha => ?_) fun _ => List.mem_cons_self
    rcases List.mem_cons.mp ha with rfl | hMem
    · exact .inl ⟨_, _, rfl⟩
    · exact .inr (.inr ⟨o.install, hMem⟩)
  · rw [hQueried]
    constructor <;> simp
  · rw [hStarted]
    constructor <;> simp

/-- A join that adopts does nothing, and one that does not installs what it has
just made. -/
theorem careful_takeOver (p : PreparedJoin) (r : JoinReply) (c : AgentSettings)
    (install : InstallOutcome) :
    Careful ⟨.join, some ⟨p.form.adopt, (Agent.joinedSettings p r c).iface,
        (Agent.joinedSettings p r c).tunnelConfig⟩,
      if p.form.adopt then [] else (Agent.installTunnel install (Agent.joinedSettings p r c)).1⟩ := by
  cases hAdopt : p.form.adopt with
  | true => constructor <;> simp
  | false =>
      rw [if_neg Bool.false_ne_true]
      exact careful_install (fun _ => rfl) (fun a ha => .inr (.inr ⟨install, ha⟩))
        fun hCaller => by cases hCaller

theorem Tidy.made (h : w.Tidy) (hConfig : w.settings.tunnelConfig ≠ "") :
    Made w.current w.settings.iface w.settings.tunnelConfig := h.resolve_left hConfig

/-- The configuration in use stays the one that the last join made, unless a join adopts
on top of an earlier one. -/
theorem Tidy.step (h : w.Tidy) (hClear : w.Clear l) : (w.step l).Tidy := by
  cases l with
  | repair o => exact h
  | recovery now o =>
      simp only [TunnelAgent.step]
      split_ifs
      · exact h
      · exact h
  | join o body fetched saved install =>
      simp only [TunnelAgent.step]
      split
      · exact h
      · next p r hTakes =>
          by_cases hAdopt : p.form.adopt = true
          · refine .inl ?_
            have hNone := hClear (p, r) hTakes hAdopt
            simp only [takeOver, Agent.joinedSettings, hAdopt, if_pos, hNone]
          · refine .inr ?_
            have hFalse : p.form.adopt = false := by simpa using hAdopt
            rw [Made, takeOver, hFalse]

/-- Careful work keeps the tunnels owned. -/
theorem owned_append {s : TunnelWork} (h : w.Owned) (hs : Careful s)
    (hWork : v.work = w.work ++ [s]) : v.Owned := by
  intro t ht
  rw [hWork] at ht
  rcases List.mem_append.mp ht with hOld | hNew
  · exact h t hOld
  · exact List.mem_singleton.mp hNew ▸ hs

/-- Every step adds careful work only. -/
theorem Owned.step (h : w.Owned) (hTidy : w.Tidy) : (w.step l).Owned := by
  cases l with
  | repair o =>
      refine owned_append h (careful_install hTidy.made (fun a ha => ?_) (by simp)) rfl
      rcases Agent.mem_repair ha with hRestart | hInstall
      · exact .inr (.inl hRestart)
      · exact .inr (.inr ⟨o.install, hInstall⟩)
  | recovery now o =>
      simp only [TunnelAgent.step]
      split_ifs
      · exact h
      · exact owned_append h (careful_recovery hTidy.made) rfl
  | join o body fetched saved install =>
      simp only [TunnelAgent.step]
      split
      · exact h
      · next p r hTakes =>
          exact owned_append h (careful_takeOver p r w.settings install) rfl

/-- When a tunnel is adopted beside a configuration from an earlier join, a
repair whose restart fails writes that configuration over it. -/
theorem not_owned_after {o : JoinSources} {body : Decoded JoinForm} {fetched : Fetched} {saved : Bool}
    {install : InstallOutcome} (hClear : ¬w.Clear (.join o body fetched saved install)) :
    ¬((w.step (.join o body fetched saved install)).step
      (.repair ⟨true, true, false, ⟨true, true⟩⟩)).Owned := by
  unfold Clear at hClear
  push Not at hClear
  obtain ⟨⟨p, r⟩, hTakes, hAdopt, hConfig⟩ := hClear
  intro hOwned
  have hTakes : w.takes o body fetched saved = some (p, r) := hTakes
  have hAdopt : p.form.adopt = true := hAdopt
  have hStep : w.step (.join o body fetched saved install) = w.takeOver p r install := by
    simp only [step, hTakes]
  rw [hStep] at hOwned
  have hKept : (w.takeOver p r install).settings.tunnelConfig = w.settings.tunnelConfig := by
    simp only [takeOver, Agent.joinedSettings, hAdopt, if_pos]
  have hCareful := hOwned _ (List.mem_append_right _ (List.mem_singleton_self _))
  have hWrote : TunnelAct.wrote (w.takeOver p r install).settings.iface w.settings.tunnelConfig ∈
      (Agent.repair ⟨true, true, false, ⟨true, true⟩⟩ (w.takeOver p r install).settings).1 := by
    simp [Agent.repair, Agent.installTunnel, hKept, hConfig]
  have hMade := hCareful.wrote _ _ hWrote
  rw [Made, takeOver, hAdopt] at hMade
  cases hMade

/-- In every run in which no tunnel is adopted beside a configuration from an
earlier join, adopted tunnels are never rebuilt; after a join that breaks this,
the next repair can rebuild one. -/
theorem tunnels_owned (h : Reachable (system.guarded Clear) w) :
    w.Owned ∧ ∀ o body fetched saved install, ¬w.Clear (.join o body fetched saved install) →
      ∃ l, ¬((w.step (.join o body fetched saved install)).step l).Owned := by
  have hBoth : w.Owned ∧ w.Tidy := by
    refine h.invariant (I := fun w => w.Owned ∧ w.Tidy) ?_ ?_
    · rintro s rfl
      exact ⟨by simp [Owned], .inl rfl⟩
    · rintro s l t ⟨hOwned, hTidy⟩ ⟨hClear, rfl⟩
      exact ⟨hOwned.step hTidy, hTidy.step hClear⟩
  exact ⟨hBoth.1, fun _ _ _ _ _ hClear => ⟨_, not_owned_after hClear⟩⟩

def fresh : TunnelAgent := ⟨freshSettings, ⟨0, 0⟩, none, []⟩

/-- A join for the interface `nc-wg`; the new keys are `priv` and `pub`. -/
def joining (adopt : Bool) (id : String) : TunnelLabel :=
  .join ⟨some ⟨"https", "hub.example", false, "", "", ""⟩, true, some "pub", some ("priv", "pub")⟩
    (.ok ⟨"https://hub.example", "", "code", "pc", "nc-wg", adopt⟩)
    (.answered 200 true ⟨id, "10.77.0.2", "token", "key", "hub.example:51820", "10.77.0.0/24",
      "10.77.0.1:18080", ""⟩) true ⟨true, true⟩

/-- A pass of the recovery loop that finds no service. -/
def recovering : TunnelLabel :=
  .recovery minute ⟨true, true, true, .missing, none, true, ⟨true, true⟩⟩

theorem managed_owned : ((fresh.step (joining false "device")).step recovering).Owned := by
  have hJoin : Clear fresh (joining false "device") := by decide +kernel
  have hStart : Reachable (system.guarded Clear) fresh := Reachable.initial rfl
  exact (tunnels_owned ((hStart.next ⟨hJoin, rfl⟩).next (l := recovering) ⟨trivial, rfl⟩)).1

/-- A join that makes a tunnel is answered without a device id, then one that
adopts is answered in full; the repair after it writes the earlier configuration
over the adopted tunnel. -/
theorem adopted_tunnel_rebuilt : ¬∀ w, Reachable system w → w.Owned := by
  intro hAll
  have hUnclear : ¬(fresh.step (joining false "")).Clear (joining true "device") := by decide +kernel
  have hStart : Reachable system fresh := Reachable.initial rfl
  exact not_owned_after hUnclear (hAll _ (((hStart.next rfl).next rfl).next rfl))

end TunnelAgent
end NetConductor
