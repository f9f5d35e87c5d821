import NetConductor.Server.Store

/-! The policy table: what `putPolicy` checks of a policy when it stores it, in
every state that a run can reach. The devices a policy names are configured by
other requests, which do not look at the policies. -/
namespace NetConductor
open Durable Transition

/-- The device has a proxy that `dialPolicy` can dial. -/
def DeviceConfig.Proxied (d : DeviceConfig) : Prop :=
  port d.proxyPort = true ∧ (d.proxyType = "http" ∨ d.proxyType = "socks5")

def Config.device (c : Config) (id : String) : Option DeviceConfig :=
  c.devices.find? fun d => d.id = id

theorem Config.device_append {c : Config} {id : String} {d : DeviceConfig}
    (h : c.device id = some d) (e : DeviceConfig) :
    Config.device { c with devices := c.devices ++ [e] } id = some d := by
  unfold Config.device at h ⊢
  rw [List.find?_append, h]
  rfl

/-- What is known of one policy on record. -/
structure PolicyConfig.Valid (c : Config) (p : PolicyConfig) : Prop where
  source : (c.device p.source).isSome = true
  few : p.exits.length ≤ 20
  distinct : p.exits.Nodup
  onFailure : p.onFailure = "block" ∨ p.onFailure = "direct"
  exits : ∀ id ∈ p.exits, ∃ d, c.device id = some d ∧ d.Proxied

/-- At most one policy a source, and each of them valid. -/
structure PolicyTable (c : Config) : Prop where
  sources : (c.policies.map PolicyConfig.source).Nodup
  valid : ∀ p ∈ c.policies, p.Valid c

/-- No request that is about to be carried out takes the proxy away from a
device that a policy on record has among its exits. -/
def KeepsExitProxies (p : Process) : Op → Prop
  | .updateDevice _ id (.ok v) => Server.validSettings v = true → v.proxyPort = 0 →
      ∀ x ∈ p.server.state.policies, id ∉ x.exits
  | _ => True

instance (p : Process) (op : Op) : Decidable (KeepsExitProxies p op) := by
  unfold KeepsExitProxies
  split <;> infer_instance

/-- What the runs keep: the table, and that a port that is set is one that can
be dialed. -/
structure PolicyInvariant (c : Config) : Prop where
  table : PolicyTable c
  proxies : ∀ d ∈ c.devices, d.proxyPort ≠ 0 → d.Proxied

theorem Config.device_mem {c : Config} {id : String} {d : DeviceConfig} (h : c.device id = some d) :
    d ∈ c.devices ∧ d.id = id := by
  have hFound := List.find?_some h
  exact ⟨List.mem_of_find?_eq_some h, by simpa using hFound⟩

/-- A policy stays valid as long as the devices it names stay. -/
theorem PolicyConfig.Valid.mono {c c' : Config} {p : PolicyConfig} (h : p.Valid c)
    (hSource : (c.device p.source).isSome = true → (c'.device p.source).isSome = true)
    (hExits : ∀ id ∈ p.exits, ∀ d, c.device id = some d → d.Proxied →
      ∃ e, c'.device id = some e ∧ e.Proxied) : p.Valid c' where
  source := hSource h.source
  few := h.few
  distinct := h.distinct
  onFailure := h.onFailure
  exits id hId := by
    obtain ⟨d, hFound, hProxied⟩ := h.exits id hId
    exact hExits id hId d hFound hProxied

/-- Only devices and policies matter. -/
theorem PolicyInvariant.of_eq {c c' : Config} (h : PolicyInvariant c)
    (hDevices : c'.devices = c.devices) (hPolicies : c'.policies = c.policies) :
    PolicyInvariant c' := by
  obtain ⟨devices, policies, mappings⟩ := c
  obtain ⟨devices', policies', mappings'⟩ := c'
  dsimp only at hDevices hPolicies
  subst hDevices hPolicies
  exact ⟨⟨h.table.sources, fun p hp => (h.table.valid p hp).mono (fun hSource => hSource)
    fun id _ d hFound hProxied => ⟨d, hFound, hProxied⟩⟩, h.proxies⟩

/-- A new device has no policy and is no exit. -/
theorem PolicyInvariant.join {c : Config} (h : PolicyInvariant c) {d : DeviceConfig}
    (hPort : d.proxyPort = 0) : PolicyInvariant { c with devices := c.devices ++ [d] } := by
  refine ⟨⟨h.table.sources, fun p hp => (h.table.valid p hp).mono (fun hSource => ?_)
    fun id _ e hFound hProxied => ⟨e, Config.device_append hFound d, hProxied⟩⟩, fun e he hSet => ?_⟩
  · obtain ⟨e, hFound⟩ := Option.isSome_iff_exists.mp hSource
    rw [Config.device_append hFound d]
    rfl
  · rcases List.mem_append.mp he with he | he
    · exact h.proxies e he hSet
    · rw [List.mem_singleton.mp he] at hSet
      exact absurd hPort hSet

/-- What an accepted `updateDevice` makes of the configuration. -/
def Config.configured (c : Config) (id : String) (v : Server.DeviceSettings) : Config :=
  { c with devices := FirstMatch.update (fun d => d.id = id) (configure v) c.devices }

/-- Where a device is looked up, it is found as before, or as configured. -/
theorem Config.device_configure (c : Config) (id : String) (v : Server.DeviceSettings)
    (id' : String) :
    (c.configured id v).device id' = c.device id' ∨
      ∃ d, c.device id' = some d ∧ d.id = id ∧
        (c.configured id v).device id' = some (configure v d) := by
  rcases FirstMatch.find?_update (p := fun d : DeviceConfig => decide (d.id = id))
    (q := fun d => decide (d.id = id')) (f := configure v) (fun _ _ => rfl) c.devices with
    hSame | ⟨d, hFound, hId, hNew⟩
  · exact .inl hSame
  · exact .inr ⟨d, hFound, by simpa using hId, hNew⟩

theorem proxied_configure {v : Server.DeviceSettings} (hValid : Server.validSettings v = true)
    (hPort : v.proxyPort ≠ 0) (d : DeviceConfig) : (configure v d).Proxied := by
  simp only [Server.validSettings, Bool.not_eq_true', Bool.or_eq_false_iff, Bool.and_eq_false_iff,
    decide_eq_false_iff_not, Bool.not_eq_false'] at hValid
  obtain ⟨⟨⟨⟨⟨-, hProxy⟩, -⟩, hType⟩, -⟩, -⟩ := hValid
  refine ⟨hProxy.resolve_left (not_not.mpr hPort), ?_⟩
  unfold configure
  tauto

/-- A device may lose its proxy port when no policy has it as an exit. -/
theorem PolicyInvariant.configure {c : Config} (h : PolicyInvariant c) {id : String}
    {v : Server.DeviceSettings} (hValid : Server.validSettings v = true)
    (hExit : v.proxyPort = 0 → ∀ p ∈ c.policies, id ∉ p.exits) :
    PolicyInvariant (c.configured id v) := by
  refine ⟨⟨h.table.sources, fun p hp => (h.table.valid p hp).mono (fun hSource => ?_)
    fun id' hId' d hFound hProxied => ?_⟩, fun d hd hSet => ?_⟩
  · rcases c.device_configure id v p.source with hSame | ⟨d, -, -, hNew⟩
    · rwa [hSame]
    · rw [hNew]
      rfl
  · rcases c.device_configure id v id' with hSame | ⟨e, hFound', hId, hNew⟩
    · exact ⟨d, hSame.trans hFound, hProxied⟩
    · obtain rfl : e.id = id' := (Config.device_mem hFound').2
      by_cases hPort : v.proxyPort = 0
      · exact absurd hId' (hId ▸ hExit hPort p hp)
      · exact ⟨_, hNew, proxied_configure hValid hPort e⟩
  · rcases FirstMatch.mem_update hd with hd | ⟨e, -, -, rfl⟩
    · exact h.proxies d hd hSet
    · exact proxied_configure hValid hSet e

theorem PolicyInvariant.store {c : Config} (h : PolicyInvariant c) {p : PolicyConfig}
    (hValid : p.Valid c) :
    PolicyInvariant { c with policies := FirstMatch.upsert PolicyConfig.source p c.policies } := by
  refine ⟨⟨FirstMatch.nodup_upsert h.table.sources p, fun x hx => ?_⟩, h.proxies⟩
  have hOld : x.Valid c := by
    rcases FirstMatch.mem_upsert hx with rfl | ⟨hx, -⟩
    · exact hValid
    · exact h.table.valid x hx
  exact hOld.mono (fun hSource => hSource) fun id _ d hFound hProxied => ⟨d, hFound, hProxied⟩

theorem config_device (s : Server) (id : String) :
    s.state.config.device id = (s.device id).map Device.config := by
  unfold Config.device Server.device State.config
  rw [List.find?_map]
  rfl

/-- The checks of `putPolicy` on a policy that it stores. -/
theorem valid_of_accepted {s : Server} (h : PolicyInvariant s.state.config) {id : String} {v : Policy}
    (hOnFailure : v.onFailure = "block" ∨ v.onFailure = "direct") (hFew : v.exits.length ≤ 20)
    (hSource : s.device id ≠ none) (hExits : s.exitsAccepted v.exits = true) :
    (Server.storedPolicy id v).config.Valid s.state.config := by
  simp only [Server.exitsAccepted, Bool.and_eq_true, List.all_eq_true, Option.any_eq_true,
    decide_eq_true_eq] at hExits
  obtain ⟨hFound, hNodup⟩ := hExits
  refine ⟨?_, hFew, hNodup, hOnFailure, fun exit hExit => ?_⟩
  · rw [config_device, Option.isSome_map]
    exact Option.isSome_iff_ne_none.mpr hSource
  · obtain ⟨d, hDevice, hPort⟩ := hFound exit hExit
    have hConfig : s.state.config.device exit = some d.config := by
      rw [config_device, hDevice, Option.map_some]
    exact ⟨_, hConfig, h.proxies _ (Config.device_mem hConfig).1 hPort⟩

/-- Whatever its answer says has been done, a request that is allowed keeps the
invariant. -/
theorem policy_effect {p : Process} {op : Op} {sec : Section Process Answer}
    (hGuard : KeepsExitProxies p op) (h : PolicyInvariant p.server.state.config)
    (hSec : p.exec op = some sec) :
    PolicyInvariant (effect op (sec.result true).2 p.server.state.config) := by
  by_cases hTelemetry : op.telemetry = true
  · rw [effect_telemetry hTelemetry]
    exact h
  cases op with
  | join env body =>
      obtain rfl := Option.some.inj hSec
      rcases Server.join_cases env body p.server with ⟨status, e, wg, hJoin⟩ | ⟨req, plan, -, -, hJoin⟩
      · rw [hJoin]
        exact h
      · rw [hJoin]
        exact h.join rfl
  | updateDevice env id body =>
      obtain rfl := Option.some.inj hSec
      rcases Server.updateDevice_cases env id body p.server with ⟨status, e, hUpdate⟩ |
        ⟨v, old, rfl, hValid, -, hUpdate⟩
      · rw [hUpdate]
        have hRefused : Refused ⟨.fail status e, []⟩ := rfl
        have hSame := effect_refused (.updateDevice env id body) hRefused p.server.state.config
        exact hSame.symm ▸ h
      · rw [hUpdate]
        refine h.configure hValid fun hPort x hx => ?_
        obtain ⟨y, hy, rfl⟩ := List.mem_map.mp hx
        exact hGuard hValid hPort y hy
  | putPolicy env id body =>
      obtain rfl := Option.some.inj hSec
      rcases Server.putPolicy_cases env id body p.server with ⟨status, e, hPut⟩ |
        ⟨v, -, hOnFailure, hFew, hSource, hExits, hPut⟩
      · rw [hPut]
        exact h
      · rw [hPut]
        exact h.store (valid_of_accepted h hOnFailure hFew hSource hExits)
  | commitMapping env =>
      obtain ⟨reply, wg⟩ := (sec.result true).2
      cases reply with
      | json body => cases body <;> exact h.of_eq rfl rfl
      | fail | done => exact h
  | deleteMapping env id =>
      obtain ⟨reply, wg⟩ := (sec.result true).2
      cases reply with
      | json body => cases body <;> exact h.of_eq rfl rfl
      | fail | done => exact h
  | createCode | putMapping | openMapping | restoreMappings | restoreNext => exact h
  | heartbeat | setActive | writeProbe | saveProbe | auditSession | restoreMark =>
      exact absurd rfl hTelemetry

theorem policy_exec {p : Process} {op : Op} {sec : Section Process Answer}
    (hGuard : KeepsExitProxies p op) (h : PolicyInvariant p.server.state.config)
    (hSec : p.exec op = some sec) :
    sec.Holds (fun q => PolicyInvariant q.server.state.config)
      (fun q => PolicyInvariant q.server.state.config) :=
  (Process.exec_implements hSec).holds h (policy_effect hGuard h hSec)

theorem policy_first (cfg : ServerConfig) (token : String) :
    PolicyInvariant (firstState cfg token).config := by
  have hPolicies : (firstState cfg token).config.policies = [] := rfl
  refine ⟨⟨by simp [hPolicies], by simp [hPolicies]⟩, fun d hd hPort => ?_⟩
  obtain rfl : d = (cloudDevice cfg token).config := by simpa [State.config] using hd
  exact absurd rfl hPort

/-- In every run from an empty state file in which no exit in use loses its
proxy, the policy table of every reachable state is what `putPolicy` checked. -/
theorem policyTable_reachable {cfg : ServerConfig} {token : String}
    {s : Machine Process State Op Answer}
    (h : Reachable (runsWhere cfg token KeepsExitProxies) s) {p : Process} (hUp : s.mem = some p) :
    PolicyTable p.server.state.config := by
  have hInvariant := Service.invariant (I := fun p : Process => PolicyInvariant p.server.state.config)
    (K := fun st : State => PolicyInvariant st.config) (policy_first cfg token)
    (policy_first cfg token) (fun _ hDisk => hDisk)
    (fun _ _ _ hAllowed hMem hSec => policy_exec hAllowed.2 hMem hSec) h
  exact (hInvariant.1 p hUp).table

/-- The server itself as its own exit, with a proxy on a given port. -/
def exitSettings (proxyPort : Int) : Server.DeviceSettings := ⟨"server", proxyPort, "socks5", "", "", 22⟩

def useExit : List (Label Op) :=
  [.run (.updateDevice (sampleEnv 'a' 'b') "cloud" (.ok (exitSettings 1080))) true,
   .run (.putPolicy (sampleEnv 'a' 'b') "cloud" (.ok ⟨"", ["cloud"], "block", ""⟩)) true]

theorem policyTable_with_exit :
    ∃ p : Process, p.server.state.config.policies = [⟨"cloud", ["cloud"], "block"⟩] ∧
      PolicyTable p.server.state.config := by
  obtain ⟨s, p, hReach, hUp, hPolicies⟩ := exists_runsWhere sampleConfig "" KeepsExitProxies
    useExit (fun p => p.server.state.config.policies) [⟨"cloud", ["cloud"], "block"⟩]
    (by decide +kernel)
  exact ⟨p, hPolicies, policyTable_reachable hReach hUp⟩

/-- `updateDevice` takes the proxy away from a device that is an exit. -/
theorem exit_without_proxy :
    ¬∀ (cfg : ServerConfig) (token : String) (s : Machine Process State Op Answer) (p : Process),
      Reachable (runs cfg token) s → s.mem = some p → PolicyTable p.server.state.config := by
  intro hAll
  obtain ⟨s, p, hReach, hUp, hView⟩ := exists_runs sampleConfig ""
    (useExit ++ [.run (.updateDevice (sampleEnv 'a' 'b') "cloud" (.ok (exitSettings 0))) true])
    (fun p => (p.server.state.config.policies,
      (p.server.state.config.device "cloud").map DeviceConfig.proxyPort))
    ([⟨"cloud", ["cloud"], "block"⟩], some 0) (by decide +kernel)
  obtain ⟨hPolicies, hPort⟩ := Prod.mk.injEq .. ▸ hView
  have hTable := hAll sampleConfig "" s p hReach hUp
  obtain ⟨d, hFound, hProxied, -⟩ := (hTable.valid ⟨"cloud", ["cloud"], "block"⟩
    (by simp [hPolicies])).exits "cloud" (by simp)
  rw [hFound, Option.map_some, Option.some.injEq] at hPort
  rw [hPort] at hProxied
  exact absurd hProxied (by decide)

end NetConductor
