import NetConductor.Server.Site

/-! Whose secret the connections and the dials of a site hold: an invariant of
all its runs, and what each handler of the hub may touch. -/
namespace NetConductor
open Durable Transition

variable {S : Type} {C : SDPCodec S}

/-! ### The invariant of a site -/

/-- Credentials held by connections and dials are those of the devices they act
for, except at the entry for local programs; a registration replaces a connection
of the same device. -/
structure Site.Sound (w : Site) : Prop where
  secrets : w.server.state.config.SecretsDistinct
  conns : ∀ (n : Nat) (c : AgentConn), w.remote.conns[n]? = some c →
    (c.device, c.credentials.bearer) ∈ w.server.keys
  dials : ∀ e ∈ w.dials, ∀ t, e.1 = some t →
    (e.2.source, t) ∈ w.server.keys ∨ e.2.source = "cloud"
  addressed : w.hub.Addressed
  replacing : ∀ (n : Nat) (c : AgentConn) (old : Nat), w.remote.conns[n]? = some c →
    c.phase = .replacing (some old) → w.hub.Speaks old c.device

theorem equal_eq {a b : String} (h : equal a b = true) : a = b := by
  simp only [equal, Bool.and_eq_true, decide_eq_true_eq] at h
  exact h.2

/-! ### Steps of the hub -/

namespace Hub

variable {h t : Hub} {l : HubLabel} {n : Nat} {c : AgentConn}

/-- The socket of a connection of the device, or of a request opened for it. -/
def SocketOf (h : Hub) (id : String) : WebSocket → Prop
  | .agent n => h.Speaks n id
  | .browser b => ∃ w, h.handlers[b]? = some w ∧ w.id = id

/-- What `remoteAgent` changes on behalf of connection `n`: that connection, the
registration of its device, and sessions opened for the device. -/
structure ByAgent (h : Hub) (n : Nat) (c : AgentConn) (t : Hub) : Prop where
  server : t.server = h.server
  handlers : t.handlers = h.handlers
  browsers : t.browsers = h.browsers
  conns : ∃ c', t.conns = h.conns.set n c' ∧ c'.credentials = c.credentials ∧
    ∀ old, c'.phase = .replacing old → old = h.agents.lookup c.device
  agents : ∀ id, id ≠ c.device → t.agents.lookup id = h.agents.lookup id
  closed : ∃ sockets, t.closed = h.closed ++ sockets ∧ ∀ s ∈ sockets, h.SocketOf c.device s
  received : ∃ messages, t.received = h.received ++ messages ∧
    ∀ r ∈ messages, ∃ w, h.handlers[r.browser]? = some w ∧ w.id = c.device

/-- A step that only turns the connection to another phase. -/
theorem ByAgent.turn (h : Hub) (n : Nat) (c : AgentConn) {p : AgentPhase}
    (hPhase : ∀ old, p = .replacing old → old = h.agents.lookup c.device) :
    ByAgent h n c (h.setConn n { c with phase := p }) where
  server := rfl
  handlers := rfl
  browsers := rfl
  conns := ⟨_, rfl, rfl, hPhase⟩
  agents := fun _ _ => rfl
  closed := ⟨[], (List.append_nil _).symm, by simp⟩
  received := ⟨[], (List.append_nil _).symm, by simp⟩

/-- The sockets closed with it belong to the device. -/
theorem ByAgent.shut (hBy : ByAgent h n c t) {sockets : List WebSocket}
    (hOwn : ∀ s ∈ sockets, h.SocketOf c.device s) : ByAgent h n c (t.shut sockets) where
  server := hBy.server
  handlers := hBy.handlers
  browsers := hBy.browsers
  conns := hBy.conns
  agents := hBy.agents
  closed := by
    obtain ⟨before, hClosed, hBefore⟩ := hBy.closed
    refine ⟨before ++ sockets, by simp [Hub.shut, hClosed], fun s hs => ?_⟩
    exact (List.mem_append.mp hs).elim (hBefore s) (hOwn s)
  received := hBy.received

theorem socketOf_browsersOf (hInv : Addressed h) {id : String} {s : WebSocket}
    (hs : s ∈ h.browsersOf id) : h.SocketOf id s := by
  obtain ⟨e, he, rfl⟩ := List.mem_map.mp hs
  obtain ⟨hEntry, hDevice⟩ := List.mem_filter.mp he
  obtain ⟨w, hw, hId, -⟩ := hInv.browsers e.1 e.2 (AList.mem_lookup_iff.mpr hEntry)
  exact ⟨w, hw, hId.trans (by simpa using hDevice)⟩

/-- Every step of `remoteAgent` stays with its device. -/
theorem agentStep_byAgent (hInv : Addressed h) {a : AgentAct} (hConn : h.conns[n]? = some c)
    (hReplacing : ∀ old, c.phase = .replacing (some old) → h.Speaks old c.device)
    (hStep : h.agentStep n c a = some t) : ByAgent h n c t := by
  have hTurn : ∀ p : AgentPhase, (∀ old, p ≠ .replacing old) →
      ByAgent h n c (h.setConn n { c with phase := p }) := fun p hp =>
    ByAgent.turn h n c fun old hOld => absurd hOld (hp old)
  unfold agentStep at hStep
  split at hStep
  · -- registered over whatever was registered
    cases hStep
    have hBy := ByAgent.turn h n c (p := .replacing (h.agents.lookup c.device)) fun old hOld => by
      cases hOld
      rfl
    exact { hBy with agents := fun id hId => AList.lookup_insert_ne hId }
  · next old hPhase =>
      cases hStep
      refine (hTurn .reading (by simp)).shut fun s hs => ?_
      obtain ⟨k, hk, rfl⟩ := List.mem_map.mp hs
      obtain rfl : old = some k := by simpa using hk
      exact hReplacing k hPhase
  · next m hPhase =>
      split_ifs at hStep <;> cases hStep
      · exact hTurn _ (by simp)
      · exact hTurn _ (by simp)
      · have hSame := hTurn .reading (by simp)
        rwa [← hPhase, setConn, Slots.set_self hConn] at hSame
      · exact hTurn _ (by simp)
  · cases hStep
    exact hTurn _ (by simp)
  · split_ifs at hStep <;> cases hStep
    · refine { hTurn .reading (by simp) with conns := ⟨_, Slots.set_modify .., rfl, ?_⟩ }
      simp
    · exact hTurn _ (by simp)
  · split at hStep
    · split_ifs at hStep <;> cases hStep <;> exact hTurn _ (by simp)
    · cases hStep
      exact hTurn _ (by simp)
  · next m e ok hPhase =>
      obtain ⟨w, hw, hId, -⟩ := hInv.delivering n c hConn m e hPhase
      split_ifs at hStep <;> cases hStep
      · refine { hTurn .reading (by simp) with received := ⟨_, rfl, fun r hr => ?_⟩ }
        rw [List.mem_singleton.mp hr]
        exact ⟨w, hw, hId⟩
      · refine (hTurn .reading (by simp)).shut fun s hs => ?_
        rw [List.mem_singleton.mp hs]
        exact ⟨w, hw, hId⟩
  · cases hStep
    refine (hTurn .cleaning (by simp)).shut fun s hs => ?_
    rw [List.mem_singleton.mp hs]
    exact ⟨c, hConn, rfl⟩
  · split_ifs at hStep <;> cases hStep
    · have hBy : ByAgent h n c { h.setConn n { c with phase := .done } with
          agents := h.agents.erase c.device } :=
        { hTurn .done (by simp) with agents := fun id hId => AList.lookup_erase_ne hId }
      exact hBy.shut fun s hs => socketOf_browsersOf hInv hs
    · exact hTurn _ (by simp)
  · cases hStep

/-- The handlers of the hub leave the configuration alone. -/
theorem step_config (hLabel : ∀ s, l ≠ .server s) (hStep : h.step C l = some t) :
    t.server.state.config = h.server.state.config := by
  rcases step_server hLabel hStep with hSame | ⟨now, action, detail, hAudit⟩
  · rw [hSame]
  · rw [hAudit]
    exact Server.config_audit ..

/-- The far end changes neither the credentials of its connection nor what the hub does
for it. -/
theorem farStep_keeps {c c' : AgentConn} {a : FarAct} (hFar : c.farStep C a = some c') :
    c'.credentials = c.credentials ∧ c'.phase = c.phase := by
  cases a with
  | receive failure =>
      simp only [AgentConn.farStep] at hFar
      split_ifs at hFar
      obtain ⟨e, -, rfl⟩ := Option.map_eq_some_iff.mp hFar
      simp
  | leave =>
      simp only [AgentConn.farStep] at hFar
      split_ifs at hFar
      cases hFar
      exact ⟨rfl, rfl⟩
  | handle i r =>
      obtain ⟨s, -, rfl⟩ := Option.map_eq_some_iff.mp hFar
      exact ⟨rfl, rfl⟩

/-- A connection after a step was there before, for the same device, or has just
authenticated. -/
theorem step_conns (hInv : Addressed h)
    (hReplacing : ∀ (n : Nat) (c : AgentConn) (old : Nat), h.conns[n]? = some c →
      c.phase = .replacing (some old) → h.Speaks old c.device)
    (hStep : h.step C l = some t) {k : Nat} {c' : AgentConn} (hc : t.conns[k]? = some c') :
    (∃ c, h.conns[k]? = some c ∧ c'.credentials = c.credentials ∧
      ∀ old, c'.phase = .replacing (some old) →
        c.phase = .replacing (some old) ∨ h.agents.lookup c.device = some old) ∨
    ∃ id bearer, h.credentials id bearer = some c'.credentials ∧ c'.phase = .connected := by
  have hSame : ∀ {c}, h.conns[k]? = some c → c'.credentials = c.credentials → c'.phase = c.phase →
      (∃ c, h.conns[k]? = some c ∧ c'.credentials = c.credentials ∧
        ∀ old, c'.phase = .replacing (some old) →
          c.phase = .replacing (some old) ∨ h.agents.lookup c.device = some old) :=
    fun hOld hCredentials hPhase => ⟨_, hOld, hCredentials, fun old h => .inl (hPhase ▸ h)⟩
  cases l with
  | server s =>
      cases hStep
      exact .inl (hSame hc rfl rfl)
  | connect id bearer user key fingerprint =>
      obtain ⟨credentials, hCredentials, rfl⟩ := Option.map_eq_some_iff.mp hStep
      by_cases hk : k < h.conns.length
      · rw [List.getElem?_append_left hk] at hc
        exact .inl (hSame hc rfl rfl)
      · rw [List.getElem?_append_right (Nat.not_lt.mp hk)] at hc
        obtain rfl := List.mem_singleton.mp (List.mem_of_getElem? hc)
        exact .inr ⟨id, bearer, hCredentials, rfl⟩
  | agent n a =>
      obtain ⟨c, hConn, hStep⟩ := Option.bind_eq_some_iff.mp hStep
      obtain ⟨c'', hConns, hCredentials, hPhase⟩ :=
        (agentStep_byAgent hInv hConn (fun old => hReplacing n c old hConn) hStep).conns
      rw [hConns, List.getElem?_set] at hc
      split at hc
      · next hEq =>
          subst hEq
          split at hc
          · cases hc
            exact .inl ⟨c, hConn, hCredentials, fun old hOld => .inr (hPhase _ hOld).symm⟩
          · cases hc
      · exact .inl (hSame hc rfl rfl)
  | far n a =>
      obtain ⟨c, hConn, hStep⟩ := Option.bind_eq_some_iff.mp hStep
      obtain ⟨c'', hFar, rfl⟩ := Option.map_eq_some_iff.mp hStep
      obtain ⟨hCredentials, hPhase⟩ := farStep_keeps hFar
      rw [setConn, List.getElem?_set] at hc
      split at hc
      · next hEq =>
          subst hEq
          split at hc
          · cases hc
            exact .inl (hSame hConn hCredentials hPhase)
          · cases hc
      · exact .inl (hSame hc rfl rfl)
  | open_ id mode =>
      cases hStep
      exact .inl (hSame hc rfl rfl)
  | browser b a =>
      obtain ⟨w, hBrowser, hStep⟩ := Option.bind_eq_some_iff.mp hStep
      rcases (browserStep_beside hStep).2 with hConns | ⟨n, s, hConns⟩
      · rw [hConns] at hc
        exact .inl (hSame hc rfl rfl)
      · rw [hConns, List.getElem?_modify] at hc
        obtain ⟨c, hOld, rfl⟩ := Option.map_eq_some_iff.mp hc
        refine .inl (hSame hOld ?_ ?_) <;> split <;> rfl

/-- A connection authenticates with the secret of the device it names. -/
theorem credentials_known {id token : String} {credentials : Credentials}
    (h' : h.credentials id token = some credentials) :
    credentials.device.id = id ∧ (credentials.device.id, credentials.bearer) ∈ h.server.keys ∧
      credentials.bearer = token := by
  unfold Hub.credentials at h'
  split at h'
  · next d hd =>
      split_ifs at h' with hValid
      obtain rfl := Option.some.inj h'
      obtain ⟨hMem, hId⟩ := Server.device_mem hd
      refine ⟨hId, ?_, rfl⟩
      have hKey := mem_keys hMem
      rwa [← equal_eq hValid.1] at hKey
  · cases h'

end Hub

/-! ### The invariant holds -/

namespace Site

variable {w v : Site}

/-- A process whose secrets differ starts soundly. -/
theorem Sound.ofProcess {p : Process} (h : p.server.state.config.SecretsDistinct) :
    (ofProcess p).Sound where
  secrets := h
  conns := by simp [Site.ofProcess, Hub.start]
  dials := by simp [Site.ofProcess]
  addressed := Hub.addressed_start p.server
  replacing := by simp [Site.ofProcess, Hub.start]

/-- A change of memory that keeps the secrets and forgets none. -/
theorem Sound.withProcess (h : w.Sound) {p : Process}
    (hSecrets : p.server.state.config.SecretsDistinct)
    (hKeys : ∀ k ∈ w.server.keys, k ∈ p.server.keys) {dials : List (Option String × Dial)}
    (hDials : ∀ e ∈ dials, ∀ t, e.1 = some t →
      (e.2.source, t) ∈ p.server.keys ∨ e.2.source = "cloud")
    (carried : List (Option String)) :
    Sound { w with process := p, dials := dials, carried := carried } where
  secrets := hSecrets
  conns n c hc := hKeys _ (h.conns n c hc)
  dials := hDials
  addressed := h.addressed.step (.server (C := textCodec) (l := .server p.server) p.server)
  replacing := h.replacing

/-- Signaling changes no credentials. -/
theorem Sound.hub (h : w.Sound) {l : HubLabel} (hLabel : ∀ s, l ≠ .server s) {t : Hub}
    (hStep : w.hub.step C l = some t) : (w.withHub t).Sound := by
  have hConfig := Hub.step_config hLabel hStep
  have hKeys : (w.withHub t).server.keys = w.server.keys := congrArg Config.keys hConfig
  have hSound := Hub.step_sound hStep
  have hExtends := hSound.extends h.addressed.placed
  refine ⟨?_, fun n c hc => ?_, fun e he s hs => ?_, h.addressed.step hSound, fun n c old hc hOld => ?_⟩
  · rw [Config.SecretsDistinct, ← Server.keys, hKeys]
    exact h.secrets
  · rw [hKeys]
    rcases Hub.step_conns h.addressed h.replacing hStep hc with ⟨c', hc', hSame, -⟩ |
      ⟨id, bearer, hCredentials, -⟩
    · rw [AgentConn.device, hSame]
      exact h.conns n c' hc'
    · exact (Hub.credentials_known hCredentials).2.1
  · rw [hKeys]
    exact h.dials e he s hs
  · rcases Hub.step_conns h.addressed h.replacing hStep hc with ⟨c', hc', hSame, hPhase⟩ |
      ⟨id, bearer, -, hPhase⟩
    · rw [AgentConn.device, hSame]
      refine hExtends.speaks old _ ?_
      exact (hPhase old hOld).elim (h.replacing n c' old hc') fun hLookup =>
        h.addressed.agents _ _ hLookup
    · rw [hPhase] at hOld
      cases hOld

/-- What a policy dial does to the memory, and how it goes on. -/
theorem moveDial_cases {i : Nat} {m : DialMove} (h : w.moveDial i m = some v) :
    ∃ e, w.dials[i]? = some e ∧
      (v.process = w.process ∨ ∃ active, v.process =
        { w.process with server := w.server.setActive e.2.source active }) ∧
      v.remote = w.remote ∧
      (v.dials = w.dials.eraseIdx i ∨
        ∃ d, d.source = e.2.source ∧ v.dials = w.dials.set i (e.1, d)) := by
  obtain ⟨⟨credential, source, policy, since, phase⟩, he, h⟩ := Option.bind_eq_some_iff.mp h
  obtain ⟨u, hStep, rfl⟩ := Option.map_eq_some_iff.mp h
  refine ⟨_, he, ?_⟩
  cases m with
  | attempt ok =>
      cases phase with
      | connected active => cases hStep
      | trying rest =>
          cases rest with
          | nil => cases hStep
          | cons x rest =>
              obtain rfl := Option.some.inj hStep
              exact ⟨.inl rfl, rfl, .inr
                ⟨⟨source, policy, since, if ok then .connected x.id else .trying rest⟩, rfl, rfl⟩⟩
  | direct ok =>
      cases phase with
      | connected active => cases hStep
      | trying rest =>
          cases rest with
          | cons x rest => cases hStep
          | nil =>
              simp only [DialMove.label, Dialing.step, List.getElem?_cons_zero,
                Option.bind_some] at hStep
              split_ifs at hStep <;> obtain rfl := Option.some.inj hStep
              · exact ⟨.inl rfl, rfl, .inr ⟨⟨source, policy, since, .connected "DIRECT"⟩, rfl, rfl⟩⟩
              · exact ⟨.inl rfl, rfl, .inl rfl⟩
  | block =>
      cases phase with
      | connected active => cases hStep
      | trying rest =>
          cases rest with
          | cons x rest => cases hStep
          | nil =>
              simp only [DialMove.label, Dialing.step, List.getElem?_cons_zero,
                Option.bind_some] at hStep
              split_ifs at hStep
              obtain rfl := Option.some.inj hStep
              exact ⟨.inr ⟨"", rfl⟩, rfl, .inl rfl⟩
  | report =>
      cases phase with
      | trying rest => cases hStep
      | connected active =>
          obtain rfl := Option.some.inj hStep
          exact ⟨.inr ⟨active, rfl⟩, rfl, .inl rfl⟩

/-- A dial changes no credentials. -/
theorem Sound.moveDial (h : w.Sound) {i : Nat} {m : DialMove} (hMove : w.moveDial i m = some v) :
    v.Sound := by
  obtain ⟨e, he, hProcess, hRemote, hDials⟩ := moveDial_cases hMove
  have hConfig : v.process.server.state.config = w.server.state.config := by
    rcases hProcess with hSame | ⟨active, hSet⟩
    · rw [hSame]
      rfl
    · rw [hSet]
      exact Server.config_setActive ..
  have hKeys : v.process.server.keys = w.server.keys := congrArg Config.keys hConfig
  have hNext : Sound { w with process := v.process, dials := v.dials, carried := v.carried } := by
    refine h.withProcess (hConfig ▸ h.secrets) (fun k hk => hKeys ▸ hk) (fun d hd t ht => ?_) v.carried
    rw [hKeys]
    rcases hDials with hErased | ⟨d', hSource, hSet⟩
    · exact h.dials d (List.mem_of_mem_eraseIdx (hErased ▸ hd)) t ht
    · rw [hSet] at hd
      rcases List.mem_or_eq_of_mem_set hd with hOld | rfl
      · exact h.dials d hOld t ht
      · rw [hSource]
        exact h.dials e (List.mem_of_getElem? he) t ht
  obtain ⟨process, dials, carried, remote⟩ := v
  obtain rfl : remote = w.remote := hRemote
  exact hNext

/-- The source of a proxied connection is the device whose secret it carries. -/
theorem proxySource_known {s : Server} {r : ProxyRequest} {id : String}
    (h : s.proxySource r = some id) :
    ∃ t, proxyCredentials r = some (id, t) ∧ (id, t) ∈ s.keys := by
  unfold Server.proxySource at h
  split at h
  · cases h
  · next claimed t hCredentials =>
      split_ifs at h with hAny
      obtain rfl := Option.some.inj h
      cases hd : s.device claimed with
      | none => simp [hd] at hAny
      | some d =>
          obtain ⟨hMem, hId⟩ := Server.device_mem hd
          have hEqual : equal d.token t = true := by simpa [hd] using hAny
          refine ⟨t, hCredentials, ?_⟩
          rw [← hId, ← equal_eq hEqual]
          exact mem_keys hMem

/-- A dial starts under the device of its credential. -/
theorem Sound.startDial (h : w.Sound) {credential : Option String} {id : String}
    (hKnown : ∀ t, credential = some t → (id, t) ∈ w.server.keys ∨ id = "cloud") :
    (w.startDial credential id).Sound := by
  refine h.withProcess (p := w.process) h.secrets (fun _ hk => hk) (fun e he t ht => ?_) w.carried
  rcases List.mem_append.mp he with hOld | hNew
  · exact h.dials e hOld t ht
  · obtain ⟨d, hd, rfl⟩ := List.mem_map.mp hNew
    obtain rfl := List.mem_singleton.mp hd
    exact hKnown t ht

/-- A step of the hub other than a request of the server. -/
theorem step_hub {l : HubLabel} (hStep : w.step C (.hub l) = some v) :
    (∀ s, l ≠ .server s) ∧ ∃ t, w.hub.step C l = some t ∧ v = w.withHub t := by
  have hMap : ∀ {l : HubLabel}, (w.hub.step C l).map w.withHub = some v →
      ∃ t, w.hub.step C l = some t ∧ v = w.withHub t := fun h => by
    obtain ⟨t, hHub, rfl⟩ := Option.map_eq_some_iff.mp h
    exact ⟨t, hHub, rfl⟩
  cases l with
  | server s => cases hStep
  | connect => exact ⟨by simp, hMap hStep⟩
  | agent => exact ⟨by simp, hMap hStep⟩
  | far => exact ⟨by simp, hMap hStep⟩
  | open_ id mode => exact ⟨by simp, hMap (l := .open_ id mode) hStep⟩
  | browser => exact ⟨by simp, hMap hStep⟩

theorem agentSSHKey_same (file : Option (List UInt8)) (publicKey : List UInt8 → Option String)
    (id authorization : String) (s : Server) :
    (s.agentSSHKey file publicKey id authorization).1 = s := by
  unfold Server.agentSSHKey
  split_ifs
  · split
    · rfl
    · split <;> rfl
  · rfl

/-- Every step keeps it that what acts for a device has shown its token. -/
theorem Sound.step (h : w.Sound) {l : SiteLabel}
    (hFresh : ∀ op saved, l = .request op saved → FreshSecrets w.process op)
    (hStep : w.step C l = some v) : v.Sound := by
  cases l with
  | request op saved =>
      have hExec : ∃ sec, w.process.exec op = some sec ∧
          v = { w with process := (sec.result saved).1 } := by
        unfold Site.step at hStep
        cases op with
        | setActive => cases hStep
        | _ =>
            obtain ⟨sec, hSec, rfl⟩ := Option.map_eq_some_iff.mp hStep
            exact ⟨sec, hSec, rfl⟩
      obtain ⟨sec, hSec, rfl⟩ := hExec
      have hSecrets := (secrets_exec (hFresh op saved rfl) h.secrets hSec).result saved
      exact h.withProcess hSecrets (fun k hk => keys_exec hSec hk) (fun e he t ht =>
        (h.dials e he t ht).imp_left (keys_exec hSec)) w.carried
  | proxy r =>
      simp only [Site.step] at hStep
      split at hStep
      · cases hStep
        exact h
      · next id hSource =>
          cases hStep
          obtain ⟨t, hCredentials, hKnown⟩ := proxySource_known hSource
          refine h.startDial fun t' ht' => ?_
          rw [hCredentials] at ht'
          cases ht'
          exact .inl hKnown
  | localProxy through =>
      obtain ⟨-, hStep⟩ := Option.ite_none_left_eq_some.mp hStep
      obtain ⟨credential, -, rfl⟩ := Option.map_eq_some_iff.mp hStep
      exact h.startDial fun _ _ => .inr rfl
  | dial i m => exact h.moveDial hStep
  | sshKey file publicKey id authorization =>
      cases hStep
      rw [agentSSHKey_same]
      exact h
  | hub l =>
      obtain ⟨hLabel, t, hHub, rfl⟩ := step_hub hStep
      exact h.hub hLabel hHub

/-- The invariant in every reachable state. -/
theorem sound_reachable {cfg : ServerConfig} {token : String}
    (h : Reachable (system C cfg token) w) : w.Sound := by
  refine h.invariant ?_ ?_
  · rintro s ⟨m, p, hReach, hUp, rfl⟩
    exact Sound.ofProcess (secrets_reachable hReach hUp)
  · exact fun s l t hs hStep => hs.step (fun op saved hl => (hStep.1 op saved hl).2) hStep.2

end Site

end NetConductor
