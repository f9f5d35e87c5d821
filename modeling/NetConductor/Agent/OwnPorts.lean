import NetConductor.Agent.Sharing
import NetConductor.Semantics.History
import NetConductor.Server.Devices

/-! Proxies that lead back into the program that uses them. The checks of `share`
and `updateDevice` name the ports of the default configuration, while the ports
in use are those of the configuration at hand. -/
namespace GoNet
open GoText

/-- `parsePort`: a number with or without a sign, or nothing where the text has
to be looked up. -/
def parsePort : Chars → Option Int
  | '+' :: digits => if digits.all isDigit then some (decimal digits) else none
  | '-' :: digits => if digits.all isDigit then some (-decimal digits) else none
  | digits => if digits.all isDigit then some (decimal digits) else none

/-- `net.LookupPort`, with the table of services. -/
def lookupPort (services : Chars → Option Nat) (service : Chars) : Option Int :=
  match parsePort service with
  | none => (services service).map Int.ofNat
  | some n => if 0 ≤ n ∧ n ≤ 65535 then some n else none

end GoNet

namespace NetConductor
open GoText GoNet History Durable

/-- What the system adds to a configured address: the ports of named services,
and the port it chooses where the address has port 0. -/
structure PortTable where
  services : Chars → Option Nat
  chosen : String → Int

/-- The port that a listener on an address gets. -/
def PortTable.bound (t : PortTable) (address : String) : Option Int :=
  match splitHostPort address.toList with
  | none => none
  | some (_, service) => (lookupPort t.services service).map fun n => if n = 0 then t.chosen address else n

/-! ### The agent -/

/-- What `New` meets on its way: whether saving works, and whether the
certificate is PEM. -/
structure NewOutcome where
  token : String
  save : Except String Unit
  pem : Bool

namespace Agent

/-- The configuration with the defaults of `New`. -/
def withDefaults (token : String) (c : SharingConfig) : SharingConfig :=
  { c with
    localListen := if c.localListen = "" then "127.0.0.1:18765" else c.localListen
    proxyListen := if c.proxyListen = "" then "127.0.0.1:17891" else c.proxyListen
    localToken := if c.localToken = "" then token else c.localToken
    iface := if c.iface = "" then "nc-wg" else c.iface }

def onLoopback (address : String) : Bool :=
  (splitHostPort address.toList).any fun hp => hp.1 = "127.0.0.1".toList

/-- `agent.New` on a loaded configuration. -/
def new (o : NewOutcome) (file : SharingConfig) : Except String SharingConfig :=
  let c := withDefaults o.token file
  if safeName c.iface = false then .error "invalid interface"
  else if ([c.localListen, c.proxyListen].all onLoopback) = false then
    .error "agent local listeners must bind 127.0.0.1"
  else match o.save with
    | .error e => .error e
    | .ok () => if c.certificate ≠ "" ∧ o.pem = false then .error "服务器证书格式错误" else .ok c

end Agent

/-- The memory of an agent that has just started, on a machine with some rules. -/
def Sharing.start (c : SharingConfig) (rules : List FirewallRule) : Sharing := ⟨c, c, ∅, [], rules⟩

/-- One of the agent's own two listeners has the port. -/
def SharingConfig.OwnPort (t : PortTable) (c : SharingConfig) (p : Int) : Prop :=
  t.bound c.proxyListen = some p ∨ t.bound c.localListen = some p

/-- No share forwards to the agent itself. -/
def SharingConfig.Clear (t : PortTable) (c : SharingConfig) : Prop :=
  ∀ x ∈ c.shares, ¬c.OwnPort t x.localPort

structure ShareRequest where
  outcome : ShareOutcome
  body : Decoded ShareForm

namespace ShareOutcome

/-- Every call of the request succeeds. -/
def Succeeds (o : ShareOutcome) : Prop :=
  o.backup = .ok () ∧ o.firewall = true ∧ o.listens = true ∧ o.save = .ok ()

end ShareOutcome

namespace Sharing

def after (s : Sharing) (r : ShareRequest) : Sharing := ((Agent.share r.outcome r.body).outcome s).2

/-- A request that passes the checks and succeeds names none of the agent's own
ports. The checks themselves refuse 17891 and 18765 (`asksClear_default`). -/
def AsksClear (t : PortTable) (s : Sharing) (r : ShareRequest) : Prop :=
  ∀ p hub, Agent.checkShare r.outcome.reachable r.body s.cfg = .ok (some (p, hub)) →
    r.outcome.Succeeds → ¬s.cfg.OwnPort t p.localPort

/-- A request adds its share, or leaves the configuration alone. -/
theorem after_cases (s : Sharing) (r : ShareRequest) :
    (∃ p hub, Agent.checkShare r.outcome.reachable r.body s.cfg = .ok (some (p, hub)) ∧
      r.outcome.Succeeds ∧ (s.after r).cfg = { s.cfg with shares := s.cfg.shares ++ [p] }) ∨
    ((s.after r).cfg = s.cfg ∧ ∀ p hub,
      Agent.checkShare r.outcome.reachable r.body s.cfg = .ok (some (p, hub)) → ¬r.outcome.Succeeds) := by
  obtain ⟨o, body⟩ := r
  rcases Agent.openShare_cases o body s with
    ⟨p, hub, hCheck, ⟨hBackup, hFirewall, hListens⟩, hOpen⟩ | ⟨_, t, hOpen, hNone, ⟨hCfg, -⟩, hFails⟩
  · rcases hSave : o.save with e | ⟨⟩
    · refine .inr ⟨?_, fun _ _ _ hSucceeds => by cases hSave.symm.trans hSucceeds.2.2.2⟩
      rw [after, Agent.share_opened _ hOpen, hSave]
      rfl
    · refine .inl ⟨p, hub, hCheck, ⟨hBackup, hFirewall, hListens, hSave⟩, ?_⟩
      rw [after, Agent.share_opened _ hOpen, hSave]
      rfl
  · refine .inr ⟨?_, fun p hub hCheck hSucceeds => ?_⟩
    · rcases hNone with rfl | ⟨e, rfl⟩
      · rw [after, Agent.share_present hOpen, hCfg]
      · rw [after, Agent.share_refused hOpen, hCfg]
    · obtain ⟨hBackup, hFirewall, hListens, -⟩ := hSucceeds
      exact hFails p hub hCheck ⟨hBackup, hFirewall, hListens⟩

/-- A request keeps the shares clear of the agent's own ports exactly when it
does not add one. -/
theorem clear_after {t : PortTable} (s : Sharing) (r : ShareRequest) (h : s.cfg.Clear t) :
    (s.after r).cfg.Clear t ↔ s.AsksClear t r := by
  rcases after_cases s r with ⟨p, hub, hCheck, hSucceeds, hCfg⟩ | ⟨hCfg, hNot⟩
  · rw [hCfg]
    constructor
    · intro hClear p' hub' hCheck' _
      cases hCheck.symm.trans hCheck'
      exact hClear p (by simp)
    · intro hAsks x hx
      rcases List.mem_append.mp hx with hOld | hNew
      · exact h x hOld
      · obtain rfl := List.mem_singleton.mp hNew
        exact hAsks x hub hCheck hSucceeds
  · rw [hCfg]
    exact iff_of_true h fun p hub hCheck hSucceeds => absurd hSucceeds (hNot p hub hCheck)

end Sharing

/-- With the two ports that `share` names, no request can ask for one of them. -/
theorem Sharing.asksClear_default {t : PortTable} {s : Sharing}
    (hProxy : t.bound s.cfg.proxyListen = some 17891) (hLocal : t.bound s.cfg.localListen = some 18765)
    (r : ShareRequest) : s.AsksClear t r := by
  intro p hub hCheck _ hOwn
  obtain ⟨-, -, hNotProxy, hNotLocal⟩ := Agent.checkShare_some hCheck
  rcases hOwn with hSame | hSame
  · exact hNotProxy (Option.some.inj (hSame.symm.trans hProxy))
  · exact hNotLocal (Option.some.inj (hSame.symm.trans hLocal))

/-! ### The server -/

/-- The address is that of the proxy's listener. -/
def ServerConfig.AtEntry (cfg : ServerConfig) (ip : String) : Prop :=
  ∃ host service, splitHostPort cfg.proxyListen.toList = some (host, service) ∧
    (ip.toList = host ∨ ∃ a, parseIPString ip = some a ∧ parseIP host = some a)

structure UpdateRequest where
  env : Env
  id : String
  body : Decoded Server.DeviceSettings
  saved : Bool

namespace Server

/-- No device at the address of the proxy has the proxy's port as its exit. -/
def EntryClear (t : PortTable) (s : Server) : Prop :=
  ∀ d ∈ s.state.devices, s.cfg.AtEntry d.ip → t.bound s.cfg.proxyListen ≠ some d.proxyPort

def afterUpdate (s : Server) (r : UpdateRequest) : Server :=
  ((s.updateDevice r.env r.id r.body).result r.saved).1

/-- The settings pass the checks, there is a device to apply them to, and they
are saved. -/
structure UpdateRequest.Applies (s : Server) (r : UpdateRequest) (v : DeviceSettings) (old : Device) :
    Prop where
  body : r.body = .ok v
  valid : validSettings v = true
  managed : v.proxyPort ≠ 17891 ∧ v.proxyPort ≠ 18090
  device : s.device r.id = some old
  saved : r.saved = true

/-- A request that is applied to a device at the proxy's address does not name
the proxy's port. The checks themselves refuse 17891 and 18090
(`asksClear_default`). -/
def AsksClear (t : PortTable) (s : Server) (r : UpdateRequest) : Prop :=
  ∀ v old, UpdateRequest.Applies s r v old → s.cfg.AtEntry old.ip →
    t.bound s.cfg.proxyListen ≠ some v.proxyPort

/-- A request is applied to the first device of its id, or changes no device. -/
theorem afterUpdate_cases (s : Server) (r : UpdateRequest) : (s.afterUpdate r).cfg = s.cfg ∧
    ((∃ v old, UpdateRequest.Applies s r v old ∧ (s.afterUpdate r).state.devices =
        FirstMatch.update (fun d => d.id = r.id) (applySettings v) s.state.devices) ∨
      ((s.afterUpdate r).state.devices = s.state.devices ∧
        ∀ v old, ¬UpdateRequest.Applies s r v old)) := by
  obtain ⟨env, id, body, saved⟩ := r
  rcases body with e | v
  · exact ⟨rfl, .inr ⟨rfl, fun _ _ h => by cases h.body⟩⟩
  · simp only [afterUpdate, updateDevice]
    split_ifs with hValid hManaged
    · refine ⟨rfl, .inr ⟨rfl, fun v' _ h => ?_⟩⟩
      cases h.body
      exact absurd h.valid (by simpa using hValid)
    · refine ⟨rfl, .inr ⟨rfl, fun v' _ h => ?_⟩⟩
      cases h.body
      exact (hManaged.elim h.managed.1 h.managed.2).elim
    · rcases hDevice : s.device id with _ | old
      · exact ⟨rfl, .inr ⟨rfl, fun v' _ h => by cases hDevice.symm.trans h.device⟩⟩
      · cases saved with
        | true =>
            refine ⟨rfl, .inl ⟨v, old, ⟨rfl, by simpa using hValid, not_or.mp hManaged, hDevice, rfl⟩, rfl⟩⟩
        | false =>
            refine ⟨rfl, .inr ⟨?_, fun v' _ h => by cases h.saved⟩⟩
            exact FirstMatch.update_restore hDevice fun d hd => hd

/-- A request keeps the exits clear of the proxy exactly when it does not make
one of its port. -/
theorem entryClear_after {t : PortTable} (s : Server) (r : UpdateRequest) (h : s.EntryClear t) :
    (s.afterUpdate r).EntryClear t ↔ s.AsksClear t r := by
  obtain ⟨hCfg, hDevices⟩ := afterUpdate_cases s r
  unfold EntryClear at h ⊢
  rw [hCfg]
  rcases hDevices with ⟨v, old, hApplies, hDevices⟩ | ⟨hDevices, hNot⟩
  · rw [hDevices]
    constructor
    · intro hClear v' old' hApplies' hEntry
      cases hApplies.body.symm.trans hApplies'.body
      cases hApplies.device.symm.trans hApplies'.device
      exact hClear _ (FirstMatch.find_mem_update hApplies.device) hEntry
    · intro hAsks d hd hEntry
      rcases FirstMatch.mem_update_find hd with hOld | ⟨a, hFound, rfl⟩
      · exact h d hOld hEntry
      · cases hFound.symm.trans hApplies.device
        exact hAsks v old hApplies hEntry
  · rw [hDevices]
    exact iff_of_true h fun v old hApplies => absurd hApplies (hNot v old)

/-- With one of the two ports that `updateDevice` names, no request can set it. -/
theorem asksClear_default {t : PortTable} {s : Server}
    (hProxy : t.bound s.cfg.proxyListen = some 17891 ∨ t.bound s.cfg.proxyListen = some 18090)
    (r : UpdateRequest) : s.AsksClear t r := by
  intro v old hApplies _ hSame
  rcases hProxy with hProxy | hProxy
  · exact hApplies.managed.1 (Option.some.inj (hSame.symm.trans hProxy))
  · exact hApplies.managed.2 (Option.some.inj (hSame.symm.trans hProxy))

end Server

/-- For every configuration that `New` accepts: no share forwards to the agent's
own ports in any state on the way exactly when none on file does and no request
adds one. For every configuration of the server: no device at the address of the
proxy has its port exactly when none on file has and no request sets it. -/
theorem proxies_clear_iff (t : PortTable) :
    (∀ o file c rules requests, Agent.new o file = .ok c →
      (Throughout Sharing.after (fun s => s.cfg.Clear t) (.start c rules) requests ↔
        c.Clear t ∧ Guarded Sharing.after (Sharing.AsksClear t) (.start c rules) requests)) ∧
    ∀ cfg token st requests,
      (Throughout Server.afterUpdate (Server.EntryClear t) (newServer cfg (loaded cfg token st)) requests ↔
        (newServer cfg (loaded cfg token st)).EntryClear t ∧
          Guarded Server.afterUpdate (Server.AsksClear t) (newServer cfg (loaded cfg token st)) requests) := by
  constructor
  · intro o file c rules requests _
    exact throughout_iff Sharing.clear_after (.start c rules) requests
  · intro cfg token st requests
    exact throughout_iff Server.entryClear_after _ requests

/-- A machine without named services. -/
def samplePorts : PortTable := ⟨fun _ => none, fun _ => 0⟩

def newSucceeds : NewOutcome := ⟨"local", .ok (), true⟩

def shareSucceeds : ShareOutcome := ⟨true, .ok (), true, true, .ok ()⟩

/-- With the ports of the default configuration no share listens on a port of the
agent's own. -/
theorem default_ports_clear :
    Throughout Sharing.after (fun s => s.cfg.Clear samplePorts) (.start sampleSharing [])
      [⟨shareSucceeds, .ok ⟨7890, 17900⟩⟩] := by
  have hProxy : samplePorts.bound "127.0.0.1:17891" = some 17891 := by decide +kernel
  have hLocal : samplePorts.bound "127.0.0.1:18765" = some 18765 := by decide +kernel
  refine ((proxies_clear_iff samplePorts).1 newSucceeds sampleSharing sampleSharing [] _
    (by decide +kernel)).mpr ⟨?_, ?_, trivial⟩
  · intro x hx
    cases hx
  · exact Sharing.asksClear_default hProxy hLocal _

/-- The agent's proxy and the server's proxy on other ports than the default. -/
def movedAgent : SharingConfig := { sampleSharing with proxyListen := "127.0.0.1:17900" }

def movedServer : ServerConfig := { sampleConfig with proxyListen := "10.77.0.1:18091" }

def loopRequest : UpdateRequest where
  env := sampleEnv 'a' 'b'
  id := "cloud"
  body := .ok ⟨"hub", 18091, "http", "", "", 22⟩
  saved := true

/-- A share of the agent's own proxy, and an exit that is the server's own proxy. -/
theorem moved_ports_loop :
    Agent.new newSucceeds movedAgent = .ok movedAgent ∧
    ¬Throughout Sharing.after (fun s => s.cfg.Clear samplePorts) (.start movedAgent [])
      [⟨shareSucceeds, .ok ⟨17900, 18000⟩⟩] ∧
    validConfig movedServer = true ∧
    ¬Throughout Server.afterUpdate (Server.EntryClear samplePorts)
      (newServer movedServer (loaded movedServer "" ⟨[], [], [], []⟩)) [loopRequest] := by
  refine ⟨by decide +kernel, fun h => ?_, by decide +kernel, fun h => ?_⟩
  · have hClear := (Sharing.clear_after _ _ (h [] List.nil_prefix)).mp (h _ (List.prefix_refl _))
    have hCheck : Agent.checkShare true (.ok ⟨17900, 18000⟩) movedAgent =
        .ok (some (⟨17900, 18000⟩, "10.77.0.1".toList)) := by decide +kernel
    refine hClear _ _ hCheck ⟨rfl, rfl, rfl, rfl⟩ (.inl ?_)
    decide +kernel
  · have hClear := (Server.entryClear_after _ _ (h [] List.nil_prefix)).mp (h _ (List.prefix_refl _))
    refine hClear _ (cloudDevice movedServer "") ⟨rfl, by decide +kernel, by decide, rfl, rfl⟩ ?_ ?_
    · exact ⟨"10.77.0.1".toList, "18091".toList, by decide +kernel, .inl (by decide +kernel)⟩
    · decide +kernel

end NetConductor
