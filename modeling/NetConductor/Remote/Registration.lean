import NetConductor.Remote.Isolation
import NetConductor.Semantics.Tables

/-! What the two maps of the hub say of the handlers: which agent connection a
registered session is bound to, and how many sessions are registered. A handler
reads the maps in one critical section and registers in another. -/
namespace NetConductor
open Transition

variable {S : Type} {C : SDPCodec S}

/-- The maps are read, and the session is not registered yet. -/
def Browser.registering (w : Browser) : Bool :=
  match w.phase with
  | .admitted | .upgraded => true
  | _ => false

/-- `remoteAgent` is not between a change of its registration and the end of its
cleanup. -/
def AgentConn.settled (h : Hub) (n : Nat) (c : AgentConn) : Bool :=
  match c.phase with
  | .connected | .done => true
  | .reading | .ponging | .forwarding _ | .delivering _ _ => h.agents.lookup c.device = some n
  | _ => false

namespace Hub

def Settled (h : Hub) : Prop := ∀ n < h.conns.length, ∀ c ∈ h.conns[n]?, c.settled h n = true

/-- Every registered session of a device is bound to the connection that is
registered for the device, or its websocket is closed. -/
def BoundOrClosed (h : Hub) : Prop :=
  ∀ sid e, h.browsers.lookup sid = some e → e.device ≠ "cloud" →
    .browser e.conn ∈ h.closed ∨
      ∃ w n, h.handlers[e.conn]? = some w ∧ w.agent = some n ∧ h.agents.lookup e.device = some n

/-- No open registered session, and none about to register, holds the
connection. -/
def Released (h : Hub) (n : Nat) : Prop :=
  (∀ e ∈ h.browsers.entries, ∀ w ∈ h.handlers[e.2.conn]?, w.agent = some n →
    .browser e.2.conn ∈ h.closed) ∧
  ∀ w ∈ h.handlers, w.registering = true → w.agent ≠ some n

/-- A registration replaces only a connection that is released, and a connection
is unregistered only when no session is about to register with it. -/
def releases (h : Hub) : HubLabel → Prop
  | .agent n .register => ∀ c ∈ h.conns[n]?, ∀ old ∈ h.agents.lookup c.device, h.Released old
  | .agent n .cleanUp => ∀ c ∈ h.conns[n]?, h.agents.lookup c.device = some n →
      ∀ w ∈ h.handlers, w.registering = true → w.agent ≠ some n
  | _ => True

instance (h : Hub) (n : Nat) : Decidable (h.Released n) := inferInstanceAs (Decidable (_ ∧ _))

instance (h : Hub) (l : HubLabel) : Decidable (h.releases l) := by
  unfold releases
  split <;> infer_instance

instance (h : Hub) : Decidable h.Settled := by
  unfold Settled
  infer_instance

/-! ### Sessions and the connection they hold -/

variable {h t : Hub} {l : HubLabel} {b n : Nat} {w w' : Browser}

/-- Registered or about to be, a session holds the connection that is
registered, or is closed. -/
structure Holding (h : Hub) : Prop where
  registered : h.BoundOrClosed
  registering : ∀ (b : Nat) (w : Browser), h.handlers[b]? = some w → w.registering = true →
    w.id ≠ "cloud" → ∃ n, w.agent = some n ∧ h.agents.lookup w.id = some n

/-- Only a browser that was registering still registers. -/
theorem registering_moves (hMoves : w.Moves C w') (hAbout : w'.registering = true) :
    w'.agent = w.agent ∧ w.registering = true := by
  cases hMoves with
  | makes hPhase => simp [Browser.registering, hPhase] at hAbout
  | handles => exact ⟨rfl, hAbout⟩
  | stays => exact ⟨rfl, hAbout⟩
  | _ => cases hAbout

/-- A request comes to register with the agent that it has looked up. -/
theorem registering_changes (hChange : BrowserChanges C h b w w') (hAbout : w'.registering = true) :
    w'.agent = w.agent ∧ w.registering = true ∨
      w.phase = .looked ∧ w'.agent = h.agents.lookup w.id ∧
        (w.id ≠ "cloud" → h.agents.lookup w.id ≠ none) := by
  cases hChange with
  | same => exact .inl ⟨rfl, hAbout⟩
  | moves hMoves => exact .inl (registering_moves hMoves hAbout)
  | counted hPhase =>
      rcases h.count_cases w with ⟨r, hCount⟩ | ⟨-, hAgent, hCount⟩ <;> rw [hCount] at hAbout ⊢
      · cases hAbout
      · exact .inr ⟨hPhase, rfl, hAgent⟩
  | upgraded hPhase => exact .inl ⟨rfl, by simp [Browser.registering, hPhase]⟩
  | _ => cases hAbout

/-- A step that leaves the agents alone. -/
theorem Holding.step_same (hInv : Holding h) (hPlaced : h.AllPlaced) (hStep : Step C h l t)
    (hAgents : t.agents = h.agents) : Holding t where
  registered := by
    intro sid e hEntry hDevice
    -- an agent that was captured stays captured
    have hKept : (∃ w n, h.handlers[e.conn]? = some w ∧ w.agent = some n ∧
          h.agents.lookup e.device = some n) →
        ∃ w n, t.handlers[e.conn]? = some w ∧ w.agent = some n ∧ t.agents.lookup e.device = some n := by
      rintro ⟨w, n, hw, hAgent, hLookup⟩
      obtain ⟨w', hw', hChange⟩ := hStep.handlers.later hw
      exact ⟨w', n, hw', (fixed_changes (hPlaced _ w hw) hChange).agent n hAgent, hAgents ▸ hLookup⟩
    have hOld : h.browsers.lookup sid = some e → .browser e.conn ∈ t.closed ∨
        ∃ w n, t.handlers[e.conn]? = some w ∧ w.agent = some n ∧ t.agents.lookup e.device = some n :=
      fun hEntry => (hInv.registered sid e hEntry hDevice).imp (fun hClosed => hStep.closed hClosed) hKept
    rcases hStep.browsers with hSame | ⟨-, b, w, hw, ⟨hPhase, -, hInsert⟩ | ⟨-, -, hErase⟩⟩
    · exact hOld (hSame ▸ hEntry)
    · rw [hInsert] at hEntry
      rcases lookup_of_insert hEntry with ⟨-, rfl⟩ | ⟨-, hEntry⟩
      · obtain ⟨n, hAgent, hLookup⟩ :=
          hInv.registering b w hw (by simp [Browser.registering, hPhase]) hDevice
        exact .inr (hKept ⟨w, n, hw, hAgent, hLookup⟩)
      · exact hOld hEntry
    · rw [hErase] at hEntry
      exact hOld (lookup_of_erase hEntry).2
  registering := by
    rw [hAgents]
    refine hStep.handlers.forall hInv.registering (fun b w w' hw hOld hChange hAbout hDevice => ?_)
      fun b w hNew hAbout => ?_
    · have hId := (fixed_changes (hPlaced b w hw) hChange).id
      rw [hId] at hDevice ⊢
      rcases registering_changes hChange hAbout with ⟨hAgent, hWas⟩ | ⟨-, hAgent, hSome⟩
      · rw [hAgent]
        exact hOld hWas hDevice
      · obtain ⟨n, hn⟩ := Option.ne_none_iff_exists'.mp (hSome hDevice)
        exact ⟨n, hAgent.trans hn, hn⟩
    · rcases (openRequest_new hNew).2.2.2.2.2.2 with ⟨r, hPhase⟩ | hPhase <;>
        simp [Browser.registering, hPhase] at hAbout

/-- A registration, over a released connection if over any. -/
theorem Holding.register (hInv : Holding h) {c : AgentConn} (hClosed : h.closed ⊆ t.closed)
    (hHandlers : t.handlers = h.handlers) (hBrowsers : t.browsers = h.browsers)
    (hAgents : t.agents = h.agents.insert c.device n)
    (hReleased : ∀ old, h.agents.lookup c.device = some old → h.Released old) : Holding t where
  registered := by
    intro sid e hEntry hDevice
    rw [hBrowsers] at hEntry
    rcases hInv.registered sid e hEntry hDevice with hWas | ⟨w, k, hw, hAgent, hLookup⟩
    · exact .inl (hClosed hWas)
    by_cases hSame : e.device = c.device
    · rw [hSame] at hLookup
      exact .inl (hClosed ((hReleased k hLookup).1 _ (AList.mem_lookup_iff.mp hEntry) w hw hAgent))
    · exact .inr ⟨w, k, hHandlers ▸ hw, hAgent, by rw [hAgents, AList.lookup_insert_ne hSame, hLookup]⟩
  registering := by
    intro b w hw hAbout hDevice
    rw [hHandlers] at hw
    obtain ⟨k, hAgent, hLookup⟩ := hInv.registering b w hw hAbout hDevice
    by_cases hSame : w.id = c.device
    · rw [hSame] at hLookup
      exact absurd hAgent ((hReleased k hLookup).2 w (List.mem_of_getElem? hw) hAbout)
    · exact ⟨k, hAgent, by rw [hAgents, AList.lookup_insert_ne hSame, hLookup]⟩

/-- A cleanup of the own registration, with no session about to register. -/
theorem Holding.cleanUp (hInv : Holding h) {c : AgentConn} (hClosed : h.closed ⊆ t.closed)
    (hHandlers : t.handlers = h.handlers) (hBrowsers : t.browsers = h.browsers)
    (hOwn : h.agents.lookup c.device = some n) (hAgents : t.agents = h.agents.erase c.device)
    (hShut : h.browsersOf c.device ⊆ t.closed)
    (hNone : ∀ w ∈ h.handlers, w.registering = true → w.agent ≠ some n) : Holding t where
  registered := by
    intro sid e hEntry hDevice
    rw [hBrowsers] at hEntry
    by_cases hSame : e.device = c.device
    · refine .inl (hShut (List.mem_map.mpr ⟨⟨sid, e⟩, List.mem_filter.mpr ⟨?_, by simpa using hSame⟩, rfl⟩))
      exact AList.mem_lookup_iff.mp hEntry
    rcases hInv.registered sid e hEntry hDevice with hWas | ⟨w, k, hw, hAgent, hLookup⟩
    · exact .inl (hClosed hWas)
    · exact .inr ⟨w, k, hHandlers ▸ hw, hAgent, by rw [hAgents, AList.lookup_erase_ne hSame, hLookup]⟩
  registering := by
    intro b w hw hAbout hDevice
    rw [hHandlers] at hw
    obtain ⟨k, hAgent, hLookup⟩ := hInv.registering b w hw hAbout hDevice
    by_cases hSame : w.id = c.device
    · rw [hSame, hOwn] at hLookup
      cases hLookup
      exact absurd hAgent (hNone w (List.mem_of_getElem? hw) hAbout)
    · exact ⟨k, hAgent, by rw [hAgents, AList.lookup_erase_ne hSame, hLookup]⟩

/-- Every step keeps count of the places held. -/
theorem Holding.step (hInv : Holding h) (hPlaced : h.AllPlaced) (hAllowed : h.releases l)
    (hStep : Step C h l t) : Holding t := by
  rcases hStep.agents with hSame | ⟨hHandlers, hBrowsers, ⟨n, c, rfl, hConn, hInsert⟩ |
    ⟨n, c, rfl, hConn, hOwn, hErase, hShut⟩⟩
  · exact hInv.step_same hPlaced hStep hSame
  · exact hInv.register hStep.closed hHandlers hBrowsers hInsert (hAllowed c hConn)
  · exact hInv.cleanUp hStep.closed hHandlers hBrowsers hOwn hErase hShut (hAllowed c hConn hOwn)

/-- The invariant in every reachable state. -/
theorem holding_reachable (hReach : Reachable (system C releases) h) : Holding h := by
  have hBoth : Addressed h ∧ Holding h := by
    refine hReach.invariant (I := fun h => Addressed h ∧ Holding h) ?_ ?_
    · rintro s ⟨server, rfl⟩
      refine ⟨addressed_start server, ?_⟩
      constructor <;> simp [start, BoundOrClosed]
    · rintro s l t ⟨hAddr, hInv⟩ ⟨hAllowed, hStep⟩
      exact ⟨hAddr.step (step_sound hStep), hInv.step hAddr.placed hAllowed (step_sound hStep)⟩
  exact hBoth.2

/-! ### The number of sessions -/

/-- The sessions registered and about to be. -/
def load (h : Hub) : Nat := h.browsers.entries.length + h.handlers.countP Browser.registering

/-- A request that passes the check does so with fewer than 32 sessions
registered or about to be. -/
def admits (h : Hub) : HubLabel → Prop
  | .browser b .count => ∀ w ∈ h.handlers[b]?, (h.count w).registering = true → h.load < 32
  | _ => True

instance (h : Hub) (l : HubLabel) : Decidable (h.admits l) := by
  unfold admits
  split <;> infer_instance

/-- Changing one request adds none that registers. -/
theorem registering_set {w' : Browser} (hBrowser : h.handlers[b]? = some w)
    (hLess : w'.registering = true → w.registering = true) :
    (h.handlers.set b w').countP Browser.registering ≤ h.handlers.countP Browser.registering := by
  have hCount := Slots.countP_set Browser.registering w' hBrowser
  cases hNew : w'.registering with
  | false =>
      rw [hNew] at hCount
      simp only [Bool.toNat_false] at hCount
      omega
  | true =>
      rw [hNew, hLess hNew] at hCount
      omega

/-- Only the check adds to the load: to register only turns one kind into the
other. -/
theorem Step.load (hStep : Step C h l t) : t.load ≤ h.load ∨
    ∃ b w, l = .browser b .count ∧ h.handlers[b]? = some w ∧ (h.count w).registering = true ∧
      t.load ≤ h.load + 1 := by
  cases hStep with
  | asked id mode =>
      refine .inl ?_
      have hNot : (h.openRequest id mode).registering = false := by
        rcases (openRequest_new (h := h) ⟨id, mode, rfl⟩).2.2.2.2.2.2 with ⟨r, hPhase⟩ | hPhase <;>
          simp [Browser.registering, hPhase]
      simp [Hub.load, List.countP_append, hNot]
  | browser hBrowser hMoves =>
      exact .inl (Nat.add_le_add_left
        (registering_set hBrowser fun hAbout => (registering_moves hMoves hAbout).2) _)
  | @counted b w hBrowser hPhase =>
      have hCount := Slots.countP_set Browser.registering (h.count w) hBrowser
      have hNot : w.registering = false := by simp [Browser.registering, hPhase]
      rw [hNot, Bool.toNat_false] at hCount
      cases hNew : (h.count w).registering with
      | false =>
          rw [hNew] at hCount
          exact .inl (Nat.add_le_add_left (Nat.le_of_eq hCount) _)
      | true =>
          rw [hNew] at hCount
          refine .inr ⟨b, w, rfl, hBrowser, hNew, ?_⟩
          simp only [Hub.load, setBrowser, Nat.add_zero, Bool.toNat_true] at hCount ⊢
          omega
  | upgraded hBrowser hPhase =>
      exact .inl (Nat.add_le_add_left
        (registering_set hBrowser fun _ => by simp [Browser.registering, hPhase]) _)
  | @inserted _ b w hBrowser hPhase =>
      have hCount := Slots.countP_set Browser.registering { w with phase := .opened } hBrowser
      have hWas : w.registering = true := by simp [Browser.registering, hPhase]
      have hNot : ({ w with phase := .opened } : Browser).registering = false := rfl
      have hInsert := Tables.length_insert h.browsers (w.sid.getD "") ⟨b, w.id⟩
      rw [hWas, hNot] at hCount
      refine .inl ?_
      simp only [Hub.load, setBrowser, Nat.add_zero, Bool.toNat_true, Bool.toNat_false] at hCount ⊢
      omega
  | forwarded hBrowser => exact .inl (Nat.add_le_add_left (registering_set hBrowser (by simp [Browser.registering])) _)
  | closeSent hBrowser => exact .inl (Nat.add_le_add_left (registering_set hBrowser (by simp [Browser.registering])) _)
  | closeFailed hBrowser => exact .inl (Nat.add_le_add_left (registering_set hBrowser (by simp [Browser.registering])) _)
  | @removed _ b w hBrowser =>
      refine .inl (Nat.add_le_add ?_ (registering_set hBrowser (by simp [Browser.registering])))
      exact (List.kerase_sublist (w.sid.getD "") h.browsers.entries).length_le
  | _ => exact .inl (Nat.le_refl _)

/-- At most thirty-two places are held. -/
theorem load_reachable (hReach : Reachable (system C admits) h) : h.load ≤ 32 := by
  refine hReach.invariant (I := fun h => h.load ≤ 32) ?_ ?_
  · rintro s ⟨server, rfl⟩
    exact Nat.zero_le _
  · rintro s l t hInv ⟨hAllowed, hStep⟩
    rcases (step_sound hStep).load with hLess | ⟨b, w, rfl, hBrowser, hPasses, hMore⟩
    · exact Nat.le_trans hLess hInv
    · have hRoom : s.load < 32 := hAllowed w hBrowser hPasses
      omega

end Hub

/-- In a run in which a connection is replaced or unregistered only when no open
session that holds it stays behind, every registered session is bound to the
connection registered for its device, or its websocket is closed. -/
theorem sessions_bound (C : SDPCodec S) {h : Hub}
    (hReach : Reachable (Hub.system C Hub.releases) h) : h.BoundOrClosed :=
  (Hub.holding_reachable hReach).registered

/-- The device disconnects. -/
def disconnects (n : Nat) : List HubLabel := [.agent n .fails, .agent n .close, .agent n .cleanUp]

/-- A session, and the device that disconnects and comes back. -/
theorem session_bound_again :
    ∃ h, Reachable (Hub.system textCodec Hub.releases) h ∧
      (h.browsers.lookup "s").map RemoteBrowser.conn = some 0 ∧
      (h.browsers.lookup "s'").map RemoteBrowser.conn = some 1 ∧ h.agents.lookup "pc" = some 1 ∧
      h.BoundOrClosed := by
  obtain ⟨h, hReach, hView⟩ := Hub.exists_reachable textCodec Hub.releases hubServer
    (connects 0 ++ opens 0 "ssh" "s" ++ disconnects 0 ++ connects 1 ++ opens 1 "ssh" "s'")
    (fun h => ((h.browsers.lookup "s").map RemoteBrowser.conn,
      (h.browsers.lookup "s'").map RemoteBrowser.conn, h.agents.lookup "pc"))
    (some 0, some 1, some 1) (by decide +kernel)
  simp only [Prod.mk.injEq] at hView
  exact ⟨h, hReach, hView.1, hView.2.1, hView.2.2, sessions_bound textCodec hReach⟩

/-- The device disconnects while a request is being upgraded: the session
registers, open, with a connection that is gone. -/
theorem session_left_behind :
    ¬∀ h, Reachable (Hub.system textCodec anyStep) h → h.Settled → h.BoundOrClosed := by
  intro hAll
  obtain ⟨h, hReach, hView⟩ := Hub.exists_reachable textCodec anyStep hubServer
    (connects 0 ++ [.open_ "pc" "ssh", .browser 0 .count, .browser 0 (.upgrade (some "s"))] ++
      disconnects 0 ++ [.browser 0 .insert])
    (fun h => (decide h.Settled, (h.browsers.lookup "s").map fun e => (e.conn, e.device),
      h.closed, h.agents.lookup "pc"))
    (true, some (0, "pc"), [.agent 0], none) (by decide +kernel)
  simp only [Prod.mk.injEq, decide_eq_true_eq] at hView
  obtain ⟨hSettled, hEntry, hClosed, hNone⟩ := hView
  obtain ⟨⟨conn, device⟩, hLookup, hNames⟩ := Option.map_eq_some_iff.mp hEntry
  cases hNames
  rcases hAll h hReach hSettled "s" _ hLookup (by decide) with hShut | ⟨w, n, -, -, hBound⟩
  · rw [hClosed] at hShut
    exact absurd hShut (by decide)
  · rw [hNone] at hBound
    cases hBound

/-- In a run in which every request passes the check with fewer than 32 sessions
registered or about to be, at most 32 sessions are registered. -/
theorem session_cap (C : SDPCodec S) {h : Hub} (hReach : Reachable (Hub.system C Hub.admits) h) :
    h.browsers.entries.length ≤ 32 :=
  Nat.le_trans (Nat.le_add_right _ _) (Hub.load_reachable hReach)

/-- A session and a request beside it. -/
theorem two_sessions_capped :
    ∃ h, Reachable (Hub.system textCodec Hub.admits) h ∧ h.load = 2 ∧
      h.browsers.entries.length ≤ 32 := by
  obtain ⟨h, hReach, hView⟩ := Hub.exists_reachable textCodec Hub.admits hubServer
    (connects 0 ++ opens 0 "ssh" "s" ++ [.open_ "pc" "files", .browser 1 .count])
    Hub.load 2 (by decide +kernel)
  exact ⟨h, hReach, hView, session_cap textCodec hReach⟩

/-- 33 requests pass the check before the first of them registers. -/
theorem many_registered :
    ¬∀ h, Reachable (Hub.system textCodec anyStep) h → h.browsers.entries.length ≤ 32 := by
  intro hAll
  obtain ⟨h, hReach, hView⟩ := Hub.exists_reachable textCodec anyStep hubServer
    (connects 0 ++
      ((List.range 33).flatMap fun b => [.open_ "pc" "ssh", .browser b .count,
        .browser b (.upgrade (some (String.ofList (List.replicate (b + 1) 's'))))]) ++
      (List.range 33).map fun b => .browser b .insert)
    (fun h => h.browsers.entries.length) 33 (by decide +kernel)
  have hCap := hAll h hReach
  rw [hView] at hCap
  exact absurd hCap (by decide)

end NetConductor
