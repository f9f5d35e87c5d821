import NetConductor.Server.Credentials

/-! What the credential of one device can change: its own record, the exit shown
for it, its agent registration and the sessions opened for it. -/
namespace NetConductor
open Durable Transition

variable {S : Type} {C : SDPCodec S}

/-! ### What a device leaves alone -/

/-- A record as the other devices see it: of the device's own only the
configuration. -/
def Device.beyond (id : String) (d : Device) : DeviceConfig ⊕ Device :=
  if d.id = id then .inl d.config else .inr d

/-- A policy as the other devices see it. That of the server's own programs is
dialed for whoever gets to their entry, so only its configuration counts here. -/
def Policy.beyond (id : String) (p : Policy) : PolicyConfig ⊕ Policy :=
  if p.source = id ∨ p.source = "cloud" then .inl p.config else .inr p

/-- What a request opened for another device is. -/
def Browser.beyond (id : String) (w : Browser) : Option Browser := if w.id = id then none else some w

def AgentConn.beyond (id : String) (c : AgentConn) : Option AgentConn :=
  if c.device = id then none else some c

/-- The event log with a line more. -/
def Server.note (events : List LogEvent) (e : LogEvent) : List LogEvent := recent (events ++ [e])

/-- The memory after a device was at work: its record has another status, its
policy and perhaps the one of the server's programs another exit in use, and the
log lines on the sessions that ended. -/
structure Server.Within (id : String) (s t : Server) : Prop where
  cfg : t.cfg = s.cfg
  sessions : t.sessions = s.sessions
  codes : t.codes = s.codes
  loginAttempts : t.loginAttempts = s.loginAttempts
  forwards : t.forwards = s.forwards
  devices : t.state.devices.map (Device.beyond id) = s.state.devices.map (Device.beyond id)
  policies : t.state.policies.map (Policy.beyond id) = s.state.policies.map (Policy.beyond id)
  mappings : t.state.mappings = s.state.mappings
  events : ∃ lines : List LogEvent, (∀ e ∈ lines, e.action = "remote.close") ∧
    t.state.events = lines.foldl Server.note s.state.events

/-- The hub after a device was at work: connections of its own, its own
registration and sessions opened for it may differ. -/
structure Hub.Within (id : String) (h t : Hub) : Prop where
  memory : h.server.Within id t.server
  agents : ∀ other, other ≠ id → t.agents.lookup other = h.agents.lookup other
  browsers : ∀ sid e, e.device ≠ id → (t.browsers.lookup sid = some e ↔ h.browsers.lookup sid = some e)
  conns : ∃ opened, t.conns.map (AgentConn.beyond id) =
    h.conns.map (AgentConn.beyond id) ++ List.replicate opened none
  handlers : t.handlers.map (Browser.beyond id) = h.handlers.map (Browser.beyond id)
  closed : ∀ s ∈ t.closed, s ∈ h.closed ∨ t.SocketOf id s
  received : ∃ messages, t.received = h.received ++ messages ∧
    ∀ r ∈ messages, ∃ w, t.handlers[r.browser]? = some w ∧ w.id = id

/-- All that the device `id` may have changed between two states of the site. -/
structure Compartment (id : String) (w v : Site) : Prop where
  process : v.process = { w.process with server := v.server }
  hub : w.hub.Within id v.hub

namespace Server

variable {id : String} {s t u : Server}

theorem Within.refl (id : String) (s : Server) : s.Within id s :=
  ⟨rfl, rfl, rfl, rfl, rfl, rfl, rfl, rfl, [], by simp, rfl⟩

theorem Within.trans (h : s.Within id t) (h' : t.Within id u) : s.Within id u where
  cfg := h'.cfg.trans h.cfg
  sessions := h'.sessions.trans h.sessions
  codes := h'.codes.trans h.codes
  loginAttempts := h'.loginAttempts.trans h.loginAttempts
  forwards := h'.forwards.trans h.forwards
  devices := h'.devices.trans h.devices
  policies := h'.policies.trans h.policies
  mappings := h'.mappings.trans h.mappings
  events := by
    obtain ⟨lines, hLines, hEvents⟩ := h.events
    obtain ⟨more, hMore, hEvents'⟩ := h'.events
    refine ⟨lines ++ more, fun e he => ?_, by rw [hEvents', hEvents, List.foldl_append]⟩
    exact (List.mem_append.mp he).elim (hLines e) (hMore e)

/-- A change of the device's own record that keeps its configuration. -/
theorem Within.setDevice (s : Server) {f : Device → Device} (hf : ∀ d, (f d).config = d.config) :
    s.Within id (s.setDevice id f) := by
  refine { Within.refl id s with devices := FirstMatch.map_update_matching (fun d hd => ?_) _ }
  have hId : d.id = id := by simpa using hd
  have hSame : (f d).id = d.id := congrArg DeviceConfig.id (hf d)
  simp only [Device.beyond, hSame, hId, if_pos, hf d]

/-- Another exit in use for the device, or at the entry for local programs. -/
theorem Within.setActive {source : String} (hSource : source = id ∨ source = "cloud") (active : String)
    (s : Server) : s.Within id (s.setActive source active) := by
  refine { Within.refl id s with policies := ?_ }
  simp only [Server.setActive, List.map_map]
  apply List.map_congr_left
  intro p _
  by_cases hp : p.source = source
  · have hOwn : p.source = id ∨ p.source = "cloud" := hp ▸ hSource
    simp [Policy.beyond, Policy.config, hp, hSource]
  · simp [hp]

/-- The line for the end of a session is the one that may be written for others. -/
theorem Within.auditClose (id : String) (s : Server) (now : Time) (detail : String) :
    s.Within id (s.audit now "remote.close" detail) where
  cfg := by simp
  sessions := by simp only [audit]
  codes := by simp
  loginAttempts := by simp only [audit]
  forwards := by simp
  devices := by simp
  policies := by simp
  mappings := by simp
  events := ⟨[⟨now, "remote.close", detail⟩], by simp, by simp only [audit, List.foldl, note]⟩

end Server

namespace Hub

variable {id : String} {h t u : Hub} {n b : Nat}

theorem Within.refl (id : String) (h : Hub) : h.Within id h where
  memory := Server.Within.refl id h.server
  agents := fun _ _ => rfl
  browsers := fun _ _ _ => Iff.rfl
  conns := ⟨0, by simp⟩
  handlers := rfl
  closed := fun _ hs => .inl hs
  received := ⟨[], by simp, by simp⟩

/-- A request opened for the device is one afterwards. -/
theorem Within.handler (h' : h.Within id t) {w : Browser} (hw : h.handlers[b]? = some w)
    (hId : w.id = id) : ∃ w', t.handlers[b]? = some w' ∧ w'.id = id := by
  have hSame := congrArg (fun l => l[b]?) h'.handlers
  simp only [List.getElem?_map, hw, Option.map_some] at hSame
  obtain ⟨w', hw', hBeyond⟩ := Option.map_eq_some_iff.mp hSame
  refine ⟨w', hw', ?_⟩
  simpa [Browser.beyond, hId] using hBeyond

/-- A connection of the device stays one of the device. -/
theorem Within.conn (h' : h.Within id t) {c : AgentConn} (hc : h.conns[n]? = some c)
    (hId : c.device = id) : ∃ c', t.conns[n]? = some c' ∧ c'.device = id := by
  obtain ⟨opened, hConns⟩ := h'.conns
  obtain ⟨hn, -⟩ := List.getElem?_eq_some_iff.mp hc
  have hSame := congrArg (fun l => l[n]?) hConns
  simp only [List.getElem?_map] at hSame
  rw [List.getElem?_append_left (by simpa using hn), List.getElem?_map, hc] at hSame
  obtain ⟨c', hc', hBeyond⟩ := Option.map_eq_some_iff.mp hSame
  refine ⟨c', hc', ?_⟩
  simpa [AgentConn.beyond, hId] using hBeyond

theorem Within.socketOf (h' : h.Within id t) {s : WebSocket} (hs : h.SocketOf id s) :
    t.SocketOf id s := by
  cases s with
  | agent n =>
      obtain ⟨c, hc, hId⟩ := hs
      exact h'.conn hc hId
  | browser b =>
      obtain ⟨w, hw, hId⟩ := hs
      exact h'.handler hw hId

theorem Within.trans (h' : h.Within id t) (h'' : t.Within id u) : h.Within id u where
  memory := h'.memory.trans h''.memory
  agents := fun other hOther => (h''.agents other hOther).trans (h'.agents other hOther)
  browsers := fun sid e he => (h''.browsers sid e he).trans (h'.browsers sid e he)
  conns := by
    obtain ⟨opened, hConns⟩ := h'.conns
    obtain ⟨more, hMore⟩ := h''.conns
    exact ⟨opened + more, by rw [hMore, hConns, List.append_assoc, List.replicate_append_replicate]⟩
  handlers := h''.handlers.trans h'.handlers
  closed := fun s hs => by
    rcases h''.closed s hs with hEarlier | hOwn
    · exact (h'.closed s hEarlier).imp_right h''.socketOf
    · exact .inr hOwn
  received := by
    obtain ⟨messages, hReceived, hOwn⟩ := h'.received
    obtain ⟨more, hMore, hOwn'⟩ := h''.received
    refine ⟨messages ++ more, by rw [hMore, hReceived, List.append_assoc], fun r hr => ?_⟩
    rcases List.mem_append.mp hr with hEarlier | hLate
    · obtain ⟨w, hw, hId⟩ := hOwn r hEarlier
      exact h''.handler hw hId
    · exact hOwn' r hLate

theorem beyond_conn {c c' : AgentConn} (hc : h.conns[n]? = some c) (hSame : c'.device = c.device) 
    (hId : c.device = id) : (h.conns.set n c').map (AgentConn.beyond id) =
      h.conns.map (AgentConn.beyond id) :=
  Slots.map_set hc (by simp [AgentConn.beyond, hSame, hId])

/-- What `remoteAgent` does for a connection of the device. -/
theorem ByAgent.within {c : AgentConn} (hBy : ByAgent h n c t) (hc : h.conns[n]? = some c) :
    h.Within c.device t := by
  obtain ⟨c', hConns, hCredentials, -⟩ := hBy.conns
  have hSame : c'.device = c.device := congrArg (fun x => x.device.id) hCredentials
  have hMap : t.conns.map (AgentConn.beyond c.device) = h.conns.map (AgentConn.beyond c.device) := by
    rw [hConns]
    exact beyond_conn hc hSame rfl
  have hSpeaks : ∀ k, h.Speaks k c.device → t.Speaks k c.device := by
    rintro k ⟨d, hd, hDevice⟩
    rw [Speaks, hConns]
    by_cases hk : n = k
    · subst hk
      obtain ⟨hn, -⟩ := List.getElem?_eq_some_iff.mp hc
      exact ⟨c', List.getElem?_set_self hn, hSame⟩
    · exact ⟨d, by rw [List.getElem?_set_ne hk, hd], hDevice⟩
  exact {
    memory := by
      rw [hBy.server]
      exact Server.Within.refl _ _
    agents := fun other hOther => hBy.agents other hOther
    browsers := fun _ _ _ => by rw [hBy.browsers]
    conns := ⟨0, by simp [hMap]⟩
    handlers := by rw [hBy.handlers]
    closed := by
      obtain ⟨sockets, hClosed, hOwn⟩ := hBy.closed
      intro s hs
      rw [hClosed] at hs
      refine (List.mem_append.mp hs).imp_right fun hNew => ?_
      have hSocket := hOwn s hNew
      cases s with
      | agent k => exact hSpeaks k hSocket
      | browser b => simpa [SocketOf, hBy.handlers] using hSocket
    received := by
      obtain ⟨messages, hReceived, hOwn⟩ := hBy.received
      exact ⟨messages, hReceived, by simpa [hBy.handlers] using hOwn⟩ }

/-- A further connection of the device. -/
theorem Within.connect (h : Hub) {c : AgentConn} (hId : c.device = id) :
    h.Within id { h with conns := h.conns ++ [c] } := by
  refine { Within.refl id h with conns := ⟨1, by simp [AgentConn.beyond, hId]⟩, closed := ?_ }
  exact fun s hs => .inl hs

/-- The device's end of its connection. -/
theorem Within.far {c c' : AgentConn} (hc : h.conns[n]? = some c) (hSame : c'.device = c.device)
    (hId : c.device = id) : h.Within id (h.setConn n c') := by
  refine { Within.refl id h with conns := ⟨0, ?_⟩, closed := fun s hs => .inl hs }
  rw [List.replicate_zero, List.append_nil]
  exact beyond_conn hc hSame hId

/-- A handler of this device moves inside its compartment. -/
theorem Within.turn {w w' : Browser} (hw : h.handlers[b]? = some w) (hSame : w'.id = w.id)
    (hId : w.id = id) : h.Within id (h.setBrowser b w') := by
  refine { Within.refl id h with handlers := ?_, closed := fun s hs => .inl hs, received := ?_ }
  · exact Slots.map_set hw (by simp [Browser.beyond, hSame, hId])
  · exact ⟨[], by simp [setBrowser], by simp⟩

/-- A message that this connection may speak stays inside too. -/
theorem Within.send (h : Hub) {sender : Option Nat} {m : Message} (hSpeaks : h.Speaks n id) :
    h.Within id (h.send n sender m) := by
  refine { Within.refl id h with conns := ⟨0, ?_⟩, closed := fun _ hs => .inl hs }
  rw [List.replicate_zero, List.append_nil]
  obtain ⟨c, hc, hId⟩ := hSpeaks
  refine Slots.map_modify fun x hx => ?_
  obtain rfl := Option.some.inj (hc.symm.trans hx)
  exact (if_pos hId).trans (if_pos hId).symm

end Hub

/-! ### The requests of one device -/

/-- Nobody else's token changes. -/
theorem Server.Within.keys {id : String} {s t : Server} (h : s.Within id t) : t.keys = s.keys := by
  let key : DeviceConfig ⊕ Device → String × String :=
    Sum.elim (fun d => (d.id, d.token)) fun d => (d.id, d.token)
  have hKey : ∀ u : Server, u.keys = (u.state.devices.map (Device.beyond id)).map key := by
    intro u
    rw [Server.keys, Config.keys, State.config, List.map_map, List.map_map]
    refine List.map_congr_left fun d _ => ?_
    simp only [Function.comp_apply, Device.beyond]
    split <;> rfl
  rw [hKey t, h.devices, ← hKey s]

namespace Site

variable {w v u : Site} {x : Device}

end Site

theorem Compartment.refl (id : String) (w : Site) : Compartment id w w :=
  ⟨rfl, Hub.Within.refl id w.hub⟩

theorem Compartment.trans {id : String} {w v u : Site} (h : Compartment id w v)
    (h' : Compartment id v u) : Compartment id w u where
  process := by rw [h'.process, h.process]
  hub := h.hub.trans h'.hub

namespace Site

variable {w v : Site} {x : Device}

/-- One secret, one device. -/
theorem Sound.own (hSound : w.Sound) (hKey : (x.id, x.token) ∈ w.server.keys) {id : String}
    (hk : (id, x.token) ∈ w.server.keys) : id = x.id :=
  id_of_secret hSound.secrets hk hKey

/-- The site of a first start. -/
def first (cfg : ServerConfig) : Site := .ofProcess (firstProcess cfg "secret")

/-- A device joins; its connections are made directly, and so are those of the
server's programs. A session is opened for it. -/
def openSession : List SiteLabel :=
  [.request (.createCode (sampleEnv 'c' 'c') (.ok "")) true,
   .request (.join (sampleEnv 'a' 'b') (.ok ⟨sampleToken 'c', "laptop", sampleKey⟩)) true,
   .request (.putPolicy (sampleEnv 'a' 'b') "aaaaaaaaaaaa" (.ok ⟨"", [], "direct", ""⟩)) true,
   .request (.putPolicy (sampleEnv 'a' 'b') "cloud" (.ok ⟨"", [], "direct", ""⟩)) true,
   .hub (.connect "aaaaaaaaaaaa" (sampleToken 'b') "user" "key" "fingerprint"),
   .hub (.agent 0 .register), .hub (.agent 0 .closeOld),
   .hub (.open_ "aaaaaaaaaaaa" "files"), .hub (.browser 0 .count),
   .hub (.browser 0 (.upgrade (some "s"))), .hub (.browser 0 .insert), .hub (.browser 0 (.auditOpen 0))]

end Site
end NetConductor
