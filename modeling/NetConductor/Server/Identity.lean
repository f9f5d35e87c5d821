import NetConductor.Server.Runs

/-! The devices are told apart: by id, by WireGuard key and by address, in
every state that a run can reach. `createCode` checks an address minutes before
`join` compares it, as text, with the addresses on record. -/
namespace NetConductor
open GoNet Durable Transition

/-- Whether an address lies in the server's network. -/
def InNetwork (cfg : ServerConfig) (ip : String) : Prop :=
  ∃ base network, parseCIDR cfg.network.toList = some (base, network) ∧
    network.contains (parseIPString ip) = true

/-- Every device has an id, a key and an address of its own; addresses are
compared as addresses, not as texts. -/
structure DistinctDevices (cfg : ServerConfig) (devices : List Identity) : Prop where
  ids : (devices.map Identity.id).Nodup
  keys : (devices.map Identity.publicKey).Nodup
  parse : ∀ d ∈ devices, (parseIPString d.ip).isSome = true
  addresses : (devices.map fun d => parseIPString d.ip).Nodup
  inNetwork : ∀ d ∈ devices, d.id ≠ "cloud" → InNetwork cfg d.ip
  notServer : ∀ d ∈ devices, d.id ≠ "cloud" → parseIPString d.ip ≠ parseIPString cfg.serverIP

namespace Server

/-- The address is on record already, in another spelling. -/
def Respelled (s : Server) (ip : String) : Prop :=
  ∃ d ∈ s.identities, d.ip ≠ ip ∧ parseIPString d.ip = parseIPString ip

instance (s : Server) (ip : String) : Decidable (s.Respelled ip) :=
  inferInstanceAs (Decidable (∃ d ∈ s.identities, _))

end Server

namespace Server

/-- The test that the allocation loop makes on a candidate. -/
def vacant (s : Server) (network : IPNet) (existing candidate : String) : Bool :=
  !s.addressUsed existing candidate && network.contains (parseIPString candidate)

/-- The address that redeeming a code is about: the one preset in it or, when it
has none, the first candidate that passes the loop's test. -/
def Sought (s : Server) (code : Enrollment) (existing ip : String) : Prop :=
  if code.ip ≠ "" then ip = code.ip
  else ∃ base network before after, parseCIDR s.cfg.network.toList = some (base, network) ∧
    candidates base = before ++ ip :: after ∧
    (∀ c ∈ before, s.vacant network existing c = false) ∧ s.vacant network existing ip = true

/-- Every check of the join passes, and `wg` sets the peer or has the address
for this key already. -/
def Admitted (s : Server) (req : JoinRequest) (env : Env) (existing ip : String) : Prop :=
  (s.joinPlan req env).isOk = true ∧ (peerHits existing ip ≠ [] ∨ env.wg.set = true)

end Server

/-- No join that goes through, its save included, is about an address that is on
record in another spelling. Joins that are refused or not saved may name any. -/
def NoRespelledJoin (p : Process) : Label Op → Prop
  | .run (.join env (.ok req)) true | .crashDuring (.join env (.ok req)) true =>
      ∀ code existing ip, p.server.codes.lookup req.code = some code →
        env.wg.allowedIPs = .ok existing → p.server.Sought code existing ip →
        p.server.Admitted req env existing ip → ¬p.server.Respelled ip
  | _ => True

theorem inNetwork_of_presetAllowed {cfg : ServerConfig} {ip : String}
    (h : Server.presetAllowed cfg ip = true) : InNetwork cfg ip := by
  unfold Server.presetAllowed at h
  split at h
  · cases h
  · next base network hNetwork =>
      simp only [Bool.and_eq_true] at h
      exact ⟨base, network, hNetwork, h.1⟩

theorem InNetwork.parse {cfg : ServerConfig} {ip : String} (h : InNetwork cfg ip) :
    (parseIPString ip).isSome = true := by
  obtain ⟨base, network, -, hContains⟩ := h
  exact IPNet.contains_isSome hContains

/-- A device list stays distinct when a device with a new id, a new key and a
new address in the network is added; the server's address is not new. -/
theorem DistinctDevices.append {cfg : ServerConfig} {devices : List Identity} {d : Identity}
    (h : DistinctDevices cfg devices) (hCloud : cloudIdentity cfg ∈ devices)
    (hId : ∀ x ∈ devices, x.id ≠ d.id) (hKey : ∀ x ∈ devices, x.publicKey ≠ d.publicKey)
    (hNetwork : InNetwork cfg d.ip)
    (hAddress : ∀ x ∈ devices, parseIPString x.ip ≠ parseIPString d.ip) :
    DistinctDevices cfg (devices ++ [d]) where
  ids := by
    rw [List.map_append, List.nodup_append]
    exact ⟨h.ids, by simp, by simpa using hId⟩
  keys := by
    rw [List.map_append, List.nodup_append]
    exact ⟨h.keys, by simp, by simpa using hKey⟩
  parse x hx := by
    rcases List.mem_append.mp hx with hx | hx
    · exact h.parse x hx
    · obtain rfl := List.mem_singleton.mp hx
      exact hNetwork.parse
  addresses := by
    rw [List.map_append, List.nodup_append]
    exact ⟨h.addresses, by simp, by simpa using hAddress⟩
  inNetwork x hx hJoined := by
    rcases List.mem_append.mp hx with hx | hx
    · exact h.inNetwork x hx hJoined
    · obtain rfl := List.mem_singleton.mp hx
      exact hNetwork
  notServer x hx hJoined := by
    rcases List.mem_append.mp hx with hx | hx
    · exact h.notServer x hx hJoined
    · obtain rfl := List.mem_singleton.mp hx
      exact (hAddress _ hCloud).symm

/-- What the runs keep: distinct devices, the cloud among them, and codes whose
preset address has passed the check. -/
structure IdentityInvariant (cfg : ServerConfig) (s : Server) : Prop where
  config : s.cfg = cfg
  distinct : DistinctDevices cfg s.identities
  cloud : cloudIdentity cfg ∈ s.identities
  codes : ∀ key code, s.codes.lookup key = some code →
    code.ip = "" ∨ Server.presetAllowed cfg code.ip = true

/-- The same of a file. -/
def FileIdentities (cfg : ServerConfig) (st : State) : Prop :=
  DistinctDevices cfg (st.devices.map Device.identity) ∧
    cloudIdentity cfg ∈ st.devices.map Device.identity

theorem IdentityInvariant.file {cfg : ServerConfig} {s : Server} (h : IdentityInvariant cfg s) :
    FileIdentities cfg s.state := ⟨h.distinct, h.cloud⟩

/-- Only the configuration, the identities and the codes matter, and a code
more or less that passed the check does not. -/
theorem IdentityInvariant.of_eq {cfg : ServerConfig} {s t : Server} (h : IdentityInvariant cfg s)
    (hCfg : t.cfg = s.cfg) (hIdentities : t.identities = s.identities)
    (hCodes : ∀ key code, t.codes.lookup key = some code → s.codes.lookup key = some code ∨
      code.ip = "" ∨ Server.presetAllowed cfg code.ip = true) : IdentityInvariant cfg t where
  config := hCfg.trans h.config
  distinct := hIdentities ▸ h.distinct
  cloud := hIdentities ▸ h.cloud
  codes key code hLookup := by
    rcases hCodes key code hLookup with hOld | hGood
    · exact h.codes key code hOld
    · exact hGood

/-- The address given out is in the network and is none of those on record. -/
theorem Assigned.new {cfg : ServerConfig} {s : Server} (h : IdentityInvariant cfg s)
    {key existing ip : String} {code : Enrollment} (hCode : s.codes.lookup key = some code)
    (hPreset : code.ip ≠ "" → ∀ d ∈ s.state.devices, d.ip ≠ code.ip)
    (hAssigned : s.assigned code existing = some ip) (hIP : ip ≠ "") (hRespelled : ¬s.Respelled ip) :
    InNetwork cfg ip ∧ ∀ x ∈ s.identities, parseIPString x.ip ≠ parseIPString ip := by
  have hNew : InNetwork cfg ip ∧ ∀ d ∈ s.state.devices, d.ip ≠ ip := by
    unfold Server.assigned at hAssigned
    split_ifs at hAssigned with hPresetIP
    · obtain rfl := Option.some.inj hAssigned
      have hAllowed := (h.codes key code hCode).resolve_left hPresetIP
      exact ⟨inNetwork_of_presetAllowed hAllowed, hPreset hPresetIP⟩
    · obtain ⟨base, network, hNetwork, -, -, -, hDevices, hContains⟩ :=
        Server.allocate_some hAssigned hIP
      exact ⟨⟨base, network, h.config ▸ hNetwork, hContains⟩, hDevices⟩
  refine ⟨hNew.1, fun x hx hSame => hRespelled ⟨x, hx, ?_, hSame⟩⟩
  obtain ⟨d, hd, rfl⟩ := List.mem_map.mp hx
  exact hNew.2 d hd

namespace Server

/-- The address that `join` assigns is the one sought, if it is an address. -/
theorem sought_iff {s : Server} {code : Enrollment} {existing ip : String} :
    s.Sought code existing ip ↔ s.assigned code existing = some ip ∧ ip ≠ "" := by
  unfold Sought assigned
  split_ifs with hPreset
  · constructor
    · rintro rfl
      exact ⟨rfl, hPreset⟩
    · rintro ⟨hSame, -⟩
      exact (Option.some.inj hSame).symm
  · constructor
    · rintro ⟨base, network, before, after, hNetwork, hSplit, hBefore, hVacant⟩
      have hFind : (candidates base).find? (s.vacant network existing) = some ip :=
        List.find?_eq_some_iff_append.mpr ⟨hVacant, before, after, hSplit, by simpa using hBefore⟩
      have hFour : to4 base ≠ none := fun hNone => by simp [candidates, hNone] at hSplit
      refine ⟨?_, fun hEmpty => ?_⟩
      · simp only [allocate, hNetwork, if_neg hFour]
        exact congrArg (fun found : Option String => some (found.getD "")) hFind
      · subst hEmpty
        simp only [vacant, Bool.and_eq_true] at hVacant
        exact absurd (IPNet.contains_isSome hVacant.2) (by decide)
    · rintro ⟨hAllocated, hIP⟩
      unfold allocate at hAllocated
      split at hAllocated
      · cases hAllocated
      · next base network hNetwork =>
          split_ifs at hAllocated with hFour
          have hFind : (candidates base).find? (s.vacant network existing) = some ip := by
            change some (((candidates base).find? (s.vacant network existing)).getD "") = some ip
              at hAllocated
            cases hFound : (candidates base).find? (s.vacant network existing) with
            | none => simp [hFound, hIP.symm] at hAllocated
            | some c => simpa [hFound] using hAllocated
          obtain ⟨hVacant, before, after, hSplit, hBefore⟩ := List.find?_eq_some_iff_append.mp hFind
          exact ⟨base, network, before, after, hNetwork, hSplit, by simpa using hBefore, hVacant⟩

end Server

instance (p : Process) (l : Label Op) : Decidable (NoRespelledJoin p l) := by
  unfold NoRespelledJoin
  have hGuard : ∀ (env : Env) (req : Server.JoinRequest), Decidable (∀ code existing ip,
      p.server.codes.lookup req.code = some code → env.wg.allowedIPs = .ok existing →
      p.server.Sought code existing ip → p.server.Admitted req env existing ip →
      ¬p.server.Respelled ip) := fun env req =>
    match hCode : p.server.codes.lookup req.code, hTable : env.wg.allowedIPs with
    | some code, .ok existing =>
        decidable_of_iff (∀ ip ∈ p.server.assigned code existing, ip ≠ "" →
          (p.server.joinPlan req env).isOk = true ∧
            (Server.peerHits existing ip ≠ [] ∨ env.wg.set = true) → ¬p.server.Respelled ip) (by
          constructor
          · rintro hAll _ _ ip ⟨⟩ ⟨⟩ hSought
            obtain ⟨hAssigned, hIP⟩ := Server.sought_iff.mp hSought
            exact hAll ip hAssigned hIP
          · exact fun hAll ip hAssigned hIP =>
              hAll code existing ip rfl rfl (Server.sought_iff.mpr ⟨hAssigned, hIP⟩))
    | none, _ => .isTrue fun _ _ _ h => by cases h
    | some _, .error _ => .isTrue fun _ _ _ _ h => by cases h
  split
  · exact hGuard _ _
  · exact hGuard _ _
  · infer_instance

/-- A join that goes through does not give out an address in another spelling. -/
theorem NoRespelledJoin.unspelled {p : Process} {l : Label Op} {env : Env}
    {req : Server.JoinRequest} (hGuard : NoRespelledJoin p l)
    (hOutcome : l.outcome = some (.join env (.ok req), true)) {plan : Server.JoinPlan}
    (hPlan : p.server.joinPlan req env = .ok plan)
    (hSet : ¬(plan.adopted = false ∧ env.wg.set = false)) : ¬p.server.Respelled plan.ip := by
  obtain ⟨-, -, code, existing, hCode, -, hTable, -, hAssigned, hIP, -, hAdopted⟩ :=
    Server.joinPlan_ok hPlan
  have hAll : ∀ code existing ip, p.server.codes.lookup req.code = some code →
      env.wg.allowedIPs = .ok existing → p.server.Sought code existing ip →
      p.server.Admitted req env existing ip → ¬p.server.Respelled ip := by
    cases l with
    | run | crashDuring =>
        simp only [Label.outcome, Option.some.injEq, Prod.mk.injEq] at hOutcome
        obtain ⟨rfl, rfl⟩ := hOutcome
        exact hGuard
    | crash | boot => cases hOutcome
  refine hAll code existing plan.ip hCode hTable (Server.sought_iff.mpr ⟨hAssigned, hIP⟩)
    ⟨by rw [hPlan]; rfl, ?_⟩
  by_contra hNeither
  simp only [ne_eq, not_or, not_not, Bool.not_eq_true] at hNeither
  exact hSet ⟨by simp [hAdopted, hNeither.1], hNeither.2⟩

/-- Adding the device of an accepted join keeps the invariant. -/
theorem IdentityInvariant.join {cfg : ServerConfig} {s : Server} (h : IdentityInvariant cfg s)
    {env : Env} {req : Server.JoinRequest} {plan : Server.JoinPlan}
    (hPlan : s.joinPlan req env = .ok plan) (hToken : ∀ d ∈ s.identities, d.id ≠ idOf env.token)
    (hRespelled : ¬s.Respelled plan.ip) :
    IdentityInvariant cfg (s.addDevice env (Server.joinedDevice req env plan.ip)) := by
  obtain ⟨hValid, hKeys, code, existing, hCode, hTime, hExisting, hPreset, hAssigned, hIP, -, -⟩ :=
    Server.joinPlan_ok hPlan
  obtain ⟨hNetwork, hAddress⟩ := Assigned.new h hCode hPreset hAssigned hIP hRespelled
  constructor
  · simpa using h.config
  · rw [Server.identities_addDevice]
    refine h.distinct.append h.cloud hToken (fun x hx => ?_) hNetwork hAddress
    obtain ⟨d, hd, rfl⟩ := List.mem_map.mp hx
    exact hKeys d hd
  · rw [Server.identities_addDevice]
    exact List.mem_append_left _ h.cloud
  · simpa using h.codes

/-- What the join of a label leaves and writes; a save that fails takes the new
device off the list again, whatever its address is. -/
theorem identity_join {cfg : ServerConfig} {p : Process} {l : Label Op} {ok : Bool} {env : Env}
    {body : Decoded Server.JoinRequest} (hOutcome : l.outcome = some (.join env body, ok))
    (hToken : ∀ d ∈ p.server.identities, d.id ≠ idOf env.token) (hGuard : NoRespelledJoin p l)
    (h : IdentityInvariant cfg p.server) :
    IdentityInvariant cfg ((p.server.join env body).result ok).1 ∧
      ∀ st, FileIdentities cfg st →
        FileIdentities cfg ((p.server.join env body).written Server.state ok st) := by
  rcases Server.join_steps env body p.server with ⟨status, e, wg, hJoin⟩ |
    ⟨req, plan, rfl, hPlan, hSet, hJoin⟩
  · rw [hJoin]
    exact ⟨h, fun st hFile => hFile⟩
  rw [hJoin]
  cases ok with
  | false =>
      refine ⟨h.of_eq ?_ ?_ ?_, fun st hFile => hFile⟩
      · simp [Section.result]
      · simp [Section.result, Server.identities]
      · exact fun key code hLookup => .inl (by simpa [Section.result] using hLookup)
  | true =>
      have hAdded := h.join hPlan hToken (hGuard.unspelled hOutcome hPlan hSet)
      refine ⟨hAdded.of_eq rfl rfl fun key code hLookup => ?_, fun st _ => hAdded.file⟩
      by_cases hKey : key = req.code
      · subst hKey
        simp only [Section.result, AList.lookup_erase] at hLookup
        cases hLookup
      · simp only [Section.result, AList.lookup_erase_ne hKey] at hLookup
        exact .inl hLookup

/-- No other request and no task breaks the invariant. -/
theorem identity_exec {cfg : ServerConfig} {p : Process} {op : Op} {sec : Section Process Answer}
    (hOther : ∀ env body, op ≠ .join env body) (h : IdentityInvariant cfg p.server)
    (hSec : p.exec op = some sec) :
    sec.Holds (fun q => IdentityInvariant cfg q.server)
      (fun q => FileIdentities cfg q.server.state) := by
  by_cases hQuiet : op.quiet = true
  · have hKeeps : ∀ q, p.Quiet q → IdentityInvariant cfg q.server := by
      rintro q ⟨s, hs, rfl⟩
      exact h.of_eq hs.cfg hs.identities fun key code hLookup => .inl (hs.codes ▸ hLookup)
    exact (Process.exec_quiet hQuiet hSec).mono hKeeps fun q hq => (hKeeps q hq).file
  by_cases hForwarding : op.forwarding = true
  · have hKeeps : ∀ q, p.SameDevices q → IdentityInvariant cfg q.server := fun q hq =>
      h.of_eq hq.cfg hq.identities fun key code hLookup => .inl (hq.codes ▸ hLookup)
    exact (Process.exec_forwarding hForwarding hSec).mono hKeeps fun q hq => (hKeeps q hq).file
  cases op with
  | createCode env body =>
      obtain ⟨codes, hResult, hCodes⟩ := Server.createCode_cases env body p.server
      obtain rfl := Option.some.inj hSec
      rw [Section.holds_map, hResult]
      refine h.of_eq rfl rfl fun key code hLookup => ?_
      rcases hCodes key code hLookup with hOld | ⟨-, hGood⟩
      · exact .inl hOld
      · exact .inr (h.config ▸ hGood)
  | join env body => exact absurd rfl (hOther env body)
  | heartbeat | updateDevice | putPolicy | setActive | writeProbe | saveProbe | auditSession =>
      exact absurd rfl hQuiet
  | putMapping | openMapping | commitMapping | deleteMapping | restoreMappings | restoreNext
  | restoreMark => exact absurd rfl hForwarding

theorem identity_first {cfg : ServerConfig} (token : String) (hCfg : validConfig cfg = true) :
    FileIdentities cfg (firstState cfg token) := by
  simp only [validConfig, Bool.and_eq_true] at hCfg
  have hDevices : (firstState cfg token).devices.map Device.identity = [cloudIdentity cfg] := rfl
  refine ⟨?_, ?_⟩ <;> rw [hDevices]
  · constructor <;> simp [cloudIdentity, hCfg.1.2]
  · simp

theorem IdentityInvariant.boot {cfg : ServerConfig} {st : State} (h : FileIdentities cfg st) :
    IdentityInvariant cfg (newServer cfg st) :=
  ⟨rfl, h.1, h.2, fun key code hLookup => by simp [newServer] at hLookup⟩

/-- The invariant holds of memory and file in every reachable state. -/
theorem identity_reachable {cfg : ServerConfig} {token : String} (hCfg : validConfig cfg = true)
    {s : Machine Process State Op Answer}
    (h : Reachable (runsWhen cfg token NoRespelledJoin) s) :
    (∀ p, s.mem = some p → IdentityInvariant cfg p.server) ∧ FileIdentities cfg s.disk := by
  have hFirst := identity_first token hCfg
  refine Service.invariant_when (I := fun p : Process => IdentityInvariant cfg p.server)
    (K := FileIdentities cfg) (.boot hFirst) hFirst (fun disk hDisk => .boot hDisk)
    (fun p l op ok sec hAllowed hOutcome hMem hSec => ?_) h
  have hFresh := hAllowed.1 op (Label.op_of_outcome hOutcome)
  by_cases hJoin : ∃ env body, op = .join env body
  · obtain ⟨env, body, rfl⟩ := hJoin
    obtain rfl := Option.some.inj hSec
    have hBoth := identity_join hOutcome hFresh.2 hAllowed.2 hMem
    rw [Section.result_map]
    exact ⟨hBoth.1, fun st hFile => by simpa [service] using hBoth.2 st hFile⟩
  · have hHolds := identity_exec (fun env body hEq => hJoin ⟨env, body, hEq⟩) hMem hSec
    exact ⟨hHolds.result ok, fun st hFile => hHolds.written (fun _ hm => hm) hFile ok⟩

/-- In every run from an empty state file in which no join that goes through
gives out an address that is on record in another spelling, the devices of
every reachable state are distinct. -/
theorem distinctDevices_reachable {cfg : ServerConfig} {token : String}
    (hCfg : validConfig cfg = true) {s : Machine Process State Op Answer}
    (h : Reachable (runsWhen cfg token NoRespelledJoin) s) {p : Process}
    (hUp : s.mem = some p) : DistinctDevices cfg p.server.identities :=
  ((identity_reachable hCfg h).1 p hUp).distinct

/-- A code for an address, and its redemption. -/
def enrollment (ip : String) : List (Label Op) :=
  [.run (.createCode (sampleEnv 'c' 'c') (.ok ip)) true,
   .run (.join (sampleEnv 'a' 'b') (.ok ⟨sampleToken 'c', "laptop", sampleKey⟩)) true]

theorem distinctDevices_allocated :
    ∃ p : Process, p.server.identities =
        [cloudIdentity sampleConfig, ⟨"aaaaaaaaaaaa", "10.77.0.2", sampleKey⟩] ∧
      DistinctDevices sampleConfig p.server.identities := by
  obtain ⟨s, p, hReach, hUp, hIdentities⟩ := exists_runsWhen sampleConfig "" NoRespelledJoin
    (enrollment "") (fun p => p.server.identities)
    [cloudIdentity sampleConfig, ⟨"aaaaaaaaaaaa", "10.77.0.2", sampleKey⟩] (by decide +kernel)
  exact ⟨p, hIdentities, distinctDevices_reachable (by decide) hReach hUp⟩

/-- The server's own address, spelled as an IPv4-mapped one, passes the check of
`createCode` and the comparisons of `join`. -/
theorem server_address_given_out :
    ¬∀ (cfg : ServerConfig) (token : String) (s : Machine Process State Op Answer) (p : Process),
      validConfig cfg = true → Reachable (runs cfg token) s → s.mem = some p →
      DistinctDevices cfg p.server.identities := by
  intro hAll
  obtain ⟨s, p, hReach, hUp, hIdentities⟩ := exists_runs sampleConfig ""
    (enrollment "::ffff:10.77.0.1") (fun p => p.server.identities)
    [cloudIdentity sampleConfig, ⟨"aaaaaaaaaaaa", "::ffff:10.77.0.1", sampleKey⟩]
    (by decide +kernel)
  have hDistinct := hAll sampleConfig "" s p (by decide) hReach hUp
  rw [hIdentities] at hDistinct
  exact hDistinct.notServer ⟨"aaaaaaaaaaaa", "::ffff:10.77.0.1", sampleKey⟩ (by simp) (by decide)
    (by decide +kernel)

end NetConductor
