import NetConductor.Remote.HubSteps
import NetConductor.Semantics.Transition

/-! Whose messages go where: an agent connection and a browser request that
exchange messages belong to one device and one session id. -/
namespace NetConductor
open Transition

variable {S : Type} {C : SDPCodec S}

/-! ### What a process never changes -/

/-- An id and an agent, once there, stay. -/
structure Browser.Fixed (w w' : Browser) : Prop where
  id : w'.id = w.id
  mode : w'.mode = w.mode
  dev : w'.dev = w.dev
  sid : ∀ s, w.sid = some s → w'.sid = some s
  agent : ∀ n, w.agent = some n → w'.agent = some n

/-- What a request has according to where it stands. -/
def Browser.Placed (w : Browser) : Prop :=
  match w.phase with
  | .done => True
  | .answered _ | .admitted => w.sid = none
  | .looked => w.agent = none ∧ w.sid = none
  | .forwarding m => w.sid = some m.sid
  | _ => w.sid.isSome = true

/-- A device ignores a message, makes the session of an offer, or ends the session of a
close. -/
theorem AgentConn.receive_cases (C : SDPCodec S) (m : Message) (failure : Option String)
    (c : AgentConn) :
    (m.type ≠ "close" ∧ c.receive C m failure = c) ∨
    (m.type = "offer" ∧ ∃ o session, Offer.unmarshal C m.data = some o ∧
      remoteNew c.cfg o.mode failure = .ok session ∧ c.sessions.lookup m.sid = none ∧
      c.sessions.entries.length < 8 ∧ c.receive C m failure = { c with
        sessions := c.sessions.insert m.sid c.created.length
        created := c.created ++ [(m.sid, session)] }) ∨
    (m.type = "close" ∧ c.receive C m failure = { c with sessions := c.sessions.erase m.sid }) := by
  unfold AgentConn.receive
  split
  · next hType =>
      have hNot : m.type ≠ "close" := by rw [hType]; decide
      unfold AgentConn.receiveOffer
      split_ifs with hRefused
      · exact .inl ⟨hNot, rfl⟩
      simp only [not_or, Bool.not_eq_true, Option.isSome_eq_false_iff, Option.isNone_iff_eq_none,
        Nat.not_le] at hRefused
      split
      · exact .inl ⟨hNot, rfl⟩
      · next o hOffer =>
          split
          · exact .inl ⟨hNot, rfl⟩
          · next session hNew =>
              exact .inr (.inl ⟨hType, o, session, hOffer, hNew, hRefused.1, hRefused.2, rfl⟩)
  · next hType => exact .inr (.inr ⟨hType, rfl⟩)
  · next hClose => exact .inl ⟨hClose, rfl⟩

@[simp] theorem AgentConn.receive_credentials (m : Message) (failure : Option String) (c : AgentConn) :
    (c.receive C m failure).credentials = c.credentials := by
  rcases c.receive_cases C m failure with ⟨-, h⟩ | ⟨-, o, session, -, -, -, -, h⟩ | ⟨-, h⟩ <;> rw [h]

@[simp] theorem AgentConn.receive_phase (m : Message) (failure : Option String) (c : AgentConn) :
    (c.receive C m failure).phase = c.phase := by
  rcases c.receive_cases C m failure with ⟨-, h⟩ | ⟨-, o, session, -, -, -, -, h⟩ | ⟨-, h⟩ <;> rw [h]

namespace Hub

variable {h t : Hub} {l : HubLabel} {b n : Nat}

/-- A connection stays the one of its device. -/
theorem ConnChanges.device {c c' : AgentConn} (hChange : ConnChanges C h n c c') :
    c'.device = c.device := by
  cases hChange with
  | moves hMoves =>
      cases hMoves with
      | reads failure hOpen hNext => simp [AgentConn.device]
      | _ => rfl
  | _ => rfl

theorem count_cases (h : Hub) (w : Browser) :
    (∃ r, h.count w = { w with phase := .answered r }) ∨
    (h.browsers.entries.length < 32 ∧ (w.id ≠ "cloud" → h.agents.lookup w.id ≠ none) ∧
      h.count w = { w with agent := h.agents.lookup w.id, phase := .admitted }) := by
  unfold count
  split_ifs with hMany hNone
  · exact .inl ⟨_, rfl⟩
  · exact .inl ⟨_, rfl⟩
  · exact .inr ⟨Nat.not_le.mp hMany, fun hId hAgent => hNone ⟨hId, hAgent⟩, rfl⟩

/-- What is decided about a request stays as it is. -/
theorem fixed_changes {w w' : Browser} (hPlaced : w.Placed) (hChange : BrowserChanges C h b w w') :
    w.Fixed w' := by
  cases hChange with
  | moves hMoves => cases hMoves <;> exact ⟨rfl, rfl, rfl, fun _ hs => hs, fun _ hn => hn⟩
  | counted hPhase =>
      simp only [Browser.Placed, hPhase] at hPlaced
      rcases h.count_cases w with ⟨r, hCount⟩ | ⟨-, -, hCount⟩
      · rw [hCount]
        exact ⟨rfl, rfl, rfl, fun _ hs => hs, fun _ hn => hn⟩
      · rw [hCount]
        exact ⟨rfl, rfl, rfl, fun _ hs => hs, fun n hn => by rw [hPlaced.1] at hn; cases hn⟩
  | upgraded hPhase =>
      simp only [Browser.Placed, hPhase] at hPlaced
      exact ⟨rfl, rfl, rfl, fun s hs => (by rw [hPlaced] at hs; cases hs), fun _ hn => hn⟩
  | _ => exact ⟨rfl, rfl, rfl, fun _ hs => hs, fun _ hn => hn⟩

/-- A request has its session id only once it is in the table. -/
theorem placed_changes {w w' : Browser} (hPlaced : w.Placed) (hChange : BrowserChanges C h b w w') :
    w'.Placed := by
  have hSome : ∀ {m : Message}, m.sid = w.sid.getD "" → w.sid.isSome = true → w.sid = some m.sid := by
    intro m hSID hIsSome
    obtain ⟨s, hs⟩ := Option.isSome_iff_exists.mp hIsSome
    rw [hSID, hs]
    rfl
  cases hChange with
  | same => exact hPlaced
  | moves hMoves =>
      cases hMoves with
      | handles => exact hPlaced
      | stays => exact hPlaced
      | refused hPhase => trivial
      | closing hPhase => trivial
      | offers hPhase _ _ hSID =>
          simp only [Browser.Placed, hPhase] at hPlaced
          exact hSome hSID hPlaced
      | relays hPhase _ _ hSID =>
          simp only [Browser.Placed, hPhase] at hPlaced
          exact hSome hSID hPlaced
      | makes hPhase =>
          simp only [Browser.Placed, hPhase] at hPlaced ⊢
          exact hPlaced
      | gaveUp hPhase =>
          simp only [Browser.Placed, hPhase] at hPlaced
          simp [Browser.Placed, hPlaced]
      | panics hPhase =>
          simp only [Browser.Placed, hPhase] at hPlaced
          simp [Browser.Placed, hPlaced]
      | _ hPhase =>
          simp only [Browser.Placed, hPhase] at hPlaced
          exact hPlaced
  | counted hPhase =>
      simp only [Browser.Placed, hPhase] at hPlaced
      rcases h.count_cases w with ⟨r, hCount⟩ | ⟨-, -, hCount⟩ <;> rw [hCount] <;> exact hPlaced.2
  | upgraded hPhase => rfl
  | forwarded hPhase =>
      simp only [Browser.Placed, hPhase] at hPlaced
      simp [Browser.Placed, hPlaced]
  | inserted hPhase =>
      simp only [Browser.Placed, hPhase] at hPlaced
      exact hPlaced
  | closed hPhase =>
      simp only [Browser.Placed, hPhase] at hPlaced
      exact hPlaced
  | removed hPhase =>
      simp only [Browser.Placed, hPhase] at hPlaced
      exact hPlaced

/-- What the first checks leave: a mode that exists, and a desktop only for
Windows, or an answer. -/
theorem openRequest_cases (h : Hub) (id mode : String) :
    (∃ dev r, h.openRequest id mode = ⟨id, mode, dev, none, none, .answered r, false, [], false⟩) ∨
    ∃ dev, h.server.device id = some dev ∧ (mode = "ssh" ∨ mode = "files" ∨ mode = "desktop") ∧
      (mode = "desktop" → dev.os = "windows") ∧
      h.openRequest id mode = ⟨id, mode, dev, none, none, .looked, false, [], false⟩ := by
  unfold openRequest
  dsimp only
  split_ifs with hMode
  · exact .inl ⟨_, _, rfl⟩
  split
  · exact .inl ⟨_, _, rfl⟩
  · next dev hDevice =>
      split_ifs with hDesktop
      · exact .inl ⟨_, _, rfl⟩
      · refine .inr ⟨dev, hDevice, ?_, fun h => ?_, rfl⟩
        · by_contra hNone
          exact hMode (by simpa only [not_or] using hNone)
        · by_contra hOther
          exact hDesktop ⟨h, hOther⟩

/-- A new browser has neither an agent nor a session. -/
theorem openRequest_new {w : Browser} (hNew : NewBrowser h w) :
    w.Placed ∧ w.agent = none ∧ w.sid = none ∧ w.offered = false ∧ w.made = [] ∧
      w.panicked = false ∧ ((∃ r, w.phase = .answered r) ∨ w.phase = .looked) := by
  obtain ⟨id, mode, rfl⟩ := hNew
  rcases h.openRequest_cases id mode with ⟨dev, r, hOpen⟩ | ⟨dev, -, -, -, hOpen⟩
  · rw [hOpen]
    exact ⟨rfl, rfl, rfl, rfl, rfl, rfl, .inl ⟨r, rfl⟩⟩
  · rw [hOpen]
    exact ⟨⟨rfl, rfl⟩, rfl, rfl, rfl, rfl, rfl, .inr rfl⟩

/-! ### Names that stay -/

/-- Connection `n` authenticated as the device. -/
def Speaks (h : Hub) (n : Nat) (id : String) : Prop := ∃ c, h.conns[n]? = some c ∧ c.device = id

/-- Request `b` was opened for the device and got the session id. -/
def Opened (h : Hub) (b : Nat) (id sid : String) : Prop :=
  ∃ w, h.handlers[b]? = some w ∧ w.id = id ∧ w.sid = some sid

/-- Request `b` has captured connection `n`. -/
def Bound (h : Hub) (b n : Nat) : Prop := ∃ w, h.handlers[b]? = some w ∧ w.agent = some n

/-- What is known of a process stays known. -/
structure Extends (h t : Hub) : Prop where
  speaks : ∀ n id, h.Speaks n id → t.Speaks n id
  opened : ∀ b id sid, h.Opened b id sid → t.Opened b id sid
  bound : ∀ b n, h.Bound b n → t.Bound b n

def AllPlaced (h : Hub) : Prop := ∀ (b : Nat) (w : Browser), h.handlers[b]? = some w → w.Placed

/-- Every step adds to what was known of connections and requests. -/
theorem Step.extends (hStep : Step C h l t) (hPlaced : h.AllPlaced) : Extends h t where
  speaks := by
    rintro n id ⟨c, hc, rfl⟩
    obtain ⟨c', hc', hChange⟩ := hStep.conns.later hc
    exact ⟨c', hc', hChange.device⟩
  opened := by
    rintro b id sid ⟨w, hw, rfl, hSID⟩
    obtain ⟨w', hw', hChange⟩ := hStep.handlers.later hw
    have hFixed := fixed_changes (hPlaced b w hw) hChange
    exact ⟨w', hw', hFixed.id, hFixed.sid sid hSID⟩
  bound := by
    rintro b n ⟨w, hw, hAgent⟩
    obtain ⟨w', hw', hChange⟩ := hStep.handlers.later hw
    exact ⟨w', hw', (fixed_changes (hPlaced b w hw) hChange).agent n hAgent⟩

/-! ### The invariant -/

/-- What connection `n` of the device may have been written: the server's own
pongs, and what a request of the device writes under its own id to the
connection it captured. -/
def MayHear (h : Hub) (n : Nat) (id : String) : Option Nat × Message → Prop
  | (none, m) => m = pong
  | (some b, m) => h.Opened b id m.sid ∧ h.Bound b n

/-- Everything that names a connection or a request names one of the same
device, and of the session id beside it. -/
structure Addressed (h : Hub) : Prop where
  placed : h.AllPlaced
  unique : ∀ (b b' : Nat) (w w' : Browser) (sid : String), h.handlers[b]? = some w →
    h.handlers[b']? = some w' → w.sid = some sid → w'.sid = some sid → b = b'
  agents : ∀ id n, h.agents.lookup id = some n → h.Speaks n id
  bound : ∀ (b : Nat) (w : Browser), h.handlers[b]? = some w → ∀ n, w.agent = some n → h.Speaks n w.id
  browsers : ∀ sid e, h.browsers.lookup sid = some e → h.Opened e.conn e.device sid
  delivering : ∀ (n : Nat) (c : AgentConn), h.conns[n]? = some c → ∀ m e, c.phase = .delivering m e →
    h.Opened e.conn c.device m.sid
  sent : ∀ (n : Nat) (c : AgentConn), h.conns[n]? = some c → ∀ s ∈ c.sent, h.MayHear n c.device s
  received : ∀ r ∈ h.received, ∀ n, r.source = some n →
    ∃ id, h.Speaks n id ∧ h.Opened r.browser id r.message.sid

theorem addressed_start (server : Server) : Addressed (start server) := by
  constructor <;> simp [start, AllPlaced]

/-- What a connection may hear it may hear later too. -/
theorem Extends.mayHear (hExtends : Extends h t) {id : String} {s : Option Nat × Message}
    (hs : h.MayHear n id s) : t.MayHear n id s := by
  rcases s with ⟨_ | b, m⟩
  · exact hs
  · exact ⟨hExtends.opened _ _ _ hs.1, hExtends.bound _ _ hs.2⟩

/-- The id of a message that a request writes is its own. -/
theorem sid_of_writes {w : Browser} {m : Message} (hPlaced : w.Placed)
    (hPhase : w.phase = .forwarding m ∨ w.phase = .leaving ∧ m = w.closeMessage) :
    w.sid = some m.sid := by
  rcases hPhase with hPhase | ⟨hPhase, rfl⟩
  · simpa only [Browser.Placed, hPhase] using hPlaced
  · simp only [Browser.Placed, hPhase] at hPlaced
    obtain ⟨s, hs⟩ := Option.isSome_iff_exists.mp hPlaced
    simp [Browser.closeMessage, hs]

theorem Addressed.step_placed (hInv : Addressed h) (hStep : Step C h l t) : t.AllPlaced :=
  hStep.handlers.forall hInv.placed (fun _ _ _ _ hPlaced hChange => placed_changes hPlaced hChange)
    fun _ _ hNew => (openRequest_new hNew).1

/-- An id is drawn once, and is then new. -/
theorem sid_changes {w w' : Browser} {sid : String} (hChange : BrowserChanges C h b w w')
    (hSID : w'.sid = some sid) : w.sid = some sid ∨ ∀ v ∈ h.handlers, v.sid ≠ some sid := by
  cases hChange with
  | moves hMoves => cases hMoves <;> exact .inl hSID
  | counted =>
      rcases h.count_cases w with ⟨r, hCount⟩ | ⟨-, -, hCount⟩ <;> rw [hCount] at hSID <;> exact .inl hSID
  | upgraded hPhase hFresh =>
      cases hSID
      exact .inr hFresh
  | _ => exact .inl hSID

/-- No two requests get one session id. -/
theorem Addressed.step_unique (hInv : Addressed h) (hStep : Step C h l t) (b b' : Nat)
    (w w' : Browser) (sid : String) (hw : t.handlers[b]? = some w) (hw' : t.handlers[b']? = some w')
    (hSID : w.sid = some sid) (hSID' : w'.sid = some sid) : b = b' := by
  obtain ⟨i, hElse⟩ := hStep.handlers.elsewhere
  -- the request that is not at the changed place had the id already
  have hOne : ∀ {j k : Nat} {v v' : Browser}, j ≠ k → j ≠ i → t.handlers[j]? = some v →
      t.handlers[k]? = some v' → v.sid = some sid → v'.sid = some sid → False := by
    intro j k v v' hne hj hv hv' hs hs'
    rw [hElse j hj] at hv
    rcases hStep.handlers.before k v' hv' with ⟨u, hu, hChange⟩ | ⟨-, hNew⟩
    · rcases sid_changes hChange hs' with hOld | hFresh
      · exact hne (hInv.unique j k v u sid hv hu hs hOld)
      · exact hFresh v (List.mem_of_getElem? hv) hs
    · rw [(openRequest_new hNew).2.2.1] at hs'
      cases hs'
  by_contra hne
  by_cases hb : b = i
  · exact hOne (Ne.symm hne) (fun h => hne (hb.trans h.symm)) hw' hw hSID' hSID
  · exact hOne hne hb hw hw' hSID hSID'

/-- The table of agents has each device under the id it has logged in with. -/
theorem Addressed.step_agents (hInv : Addressed h) (hStep : Step C h l t) (id : String) (n : Nat)
    (hAgent : t.agents.lookup id = some n) : t.Speaks n id := by
  have hExtends := hStep.extends hInv.placed
  rcases hStep.agents with hSame | ⟨-, -, ⟨k, c, -, hConn, hInsert⟩ | ⟨k, c, -, -, -, hErase, -⟩⟩
  · exact hExtends.speaks n id (hInv.agents id n (hSame ▸ hAgent))
  · rw [hInsert] at hAgent
    rcases lookup_of_insert hAgent with ⟨rfl, rfl⟩ | ⟨-, hOld⟩
    · exact hExtends.speaks n _ ⟨c, hConn, rfl⟩
    · exact hExtends.speaks n id (hInv.agents id n hOld)
  · rw [hErase] at hAgent
    exact hExtends.speaks n id (hInv.agents id n (lookup_of_erase hAgent).2)

/-- A request captures the connection that is registered for its device. -/
theorem agent_changes {w w' : Browser} {n : Nat} (hChange : BrowserChanges C h b w w')
    (hAgent : w'.agent = some n) :
    w.agent = some n ∨ w.phase = .looked ∧ h.agents.lookup w.id = some n := by
  cases hChange with
  | moves hMoves => cases hMoves <;> exact .inl hAgent
  | counted hPhase =>
      rcases h.count_cases w with ⟨r, hCount⟩ | ⟨-, -, hCount⟩ <;> rw [hCount] at hAgent
      · exact .inl hAgent
      · exact .inr ⟨hPhase, hAgent⟩
  | _ => exact .inl hAgent

/-- A request keeps the connection that it has looked up, which is one of its device. -/
theorem Addressed.step_bound (hInv : Addressed h) (hStep : Step C h l t) :
    ∀ (b : Nat) (w : Browser), t.handlers[b]? = some w → ∀ n, w.agent = some n → t.Speaks n w.id := by
  have hExtends := hStep.extends hInv.placed
  refine hStep.handlers.forall hInv.bound (fun b w w' hw hBound hChange n hAgent => ?_)
    fun b w hNew n hAgent => ?_
  · rw [(fixed_changes (hInv.placed b w hw) hChange).id]
    rcases agent_changes hChange hAgent with hOld | ⟨-, hLookup⟩
    · exact hExtends.speaks n w.id (hBound n hOld)
    · exact hExtends.speaks n w.id (hInv.agents w.id n hLookup)
  · rw [(openRequest_new hNew).2.1] at hAgent
    cases hAgent

/-- The table of browsers has each request under its own session id. -/
theorem Addressed.step_browsers (hInv : Addressed h) (hStep : Step C h l t) (sid : String)
    (e : RemoteBrowser) (hEntry : t.browsers.lookup sid = some e) : t.Opened e.conn e.device sid := by
  have hExtends := hStep.extends hInv.placed
  rcases hStep.browsers with hSame | ⟨-, b, w, hw, ⟨hPhase, -, hInsert⟩ | ⟨-, -, hErase⟩⟩
  · exact hExtends.opened _ _ _ (hInv.browsers sid e (hSame ▸ hEntry))
  · rw [hInsert] at hEntry
    rcases lookup_of_insert hEntry with ⟨rfl, rfl⟩ | ⟨-, hOld⟩
    · have hPlaced := hInv.placed b w hw
      simp only [Browser.Placed, hPhase] at hPlaced
      obtain ⟨s, hs⟩ := Option.isSome_iff_exists.mp hPlaced
      exact hExtends.opened _ _ _ ⟨w, hw, rfl, by rw [hs]; rfl⟩
    · exact hExtends.opened _ _ _ (hInv.browsers sid e hOld)
  · rw [hErase] at hEntry
    exact hExtends.opened _ _ _ (hInv.browsers sid e (lookup_of_erase hEntry).2)

/-- A message on its way to a browser comes from the device of that browser's request.
-/
theorem Addressed.step_delivering (hInv : Addressed h) (hStep : Step C h l t) :
    ∀ (n : Nat) (c : AgentConn), t.conns[n]? = some c → ∀ m e, c.phase = .delivering m e →
      t.Opened e.conn c.device m.sid := by
  have hExtends := hStep.extends hInv.placed
  refine hStep.conns.forall hInv.delivering (fun n c c' hc hOld hChange m e hPhase => ?_)
    fun n c hNew m e hPhase => ?_
  · rw [hChange.device]
    cases hChange with
    | same => exact hExtends.opened _ _ _ (hOld m e hPhase)
    | moves hMoves =>
        cases hMoves with
        | turns p hTurn => exact absurd hPhase (hTurn m e)
        | reads failure hOpen hNext =>
            rw [AgentConn.receive_phase] at hPhase
            exact hExtends.opened _ _ _ (hOld m e hPhase)
        | ends => exact hExtends.opened _ _ _ (hOld m e hPhase)
        | handles => exact hExtends.opened _ _ _ (hOld m e hPhase)
    | found hFound hDevice =>
        cases hPhase
        exact hExtends.opened _ _ _ (hDevice ▸ hInv.browsers m.sid e hFound)
    | ponged => cases hPhase
    | hears => exact hExtends.opened _ _ _ (hOld m e hPhase)
  · obtain ⟨credentials, cfg, rfl⟩ := hNew
    cases hPhase

/-- A device hears only from requests for it. -/
theorem Addressed.step_sent (hInv : Addressed h) (hStep : Step C h l t) :
    ∀ (n : Nat) (c : AgentConn), t.conns[n]? = some c → ∀ s ∈ c.sent, t.MayHear n c.device s := by
  have hExtends := hStep.extends hInv.placed
  refine hStep.conns.forall hInv.sent (fun n c c' hc hOld hChange s hs => ?_) fun n c hNew s hs => ?_
  · rw [hChange.device]
    have hKept : s ∈ c.sent → t.MayHear n c.device s := fun h => hExtends.mayHear (hOld s h)
    cases hChange with
    | same => exact hKept hs
    | moves hMoves =>
        cases hMoves with
        | reads failure hOpen hNext =>
            rw [receive_sent] at hs
            exact hKept hs
        | _ => exact hKept hs
    | found => exact hKept hs
    | ponged =>
        rcases List.mem_append.mp hs with hOld | hNew
        · exact hKept hOld
        · rw [List.mem_singleton.mp hNew]
          exact rfl
    | hears hBrowser hAgent hPhase =>
        rcases List.mem_append.mp hs with hOld | hNew
        · exact hKept hOld
        · rw [List.mem_singleton.mp hNew]
          obtain ⟨c₂, hc₂, hDevice⟩ := hInv.bound _ _ hBrowser n hAgent
          cases hc.symm.trans hc₂
          have hSID := sid_of_writes (hInv.placed _ _ hBrowser) hPhase
          exact ⟨hExtends.opened _ _ _ ⟨_, hBrowser, hDevice.symm, hSID⟩,
            hExtends.bound _ _ ⟨_, hBrowser, hAgent⟩⟩
  · obtain ⟨credentials, cfg, rfl⟩ := hNew
    cases hs

/-- A browser hears only from the device that it asked for. -/
theorem Addressed.step_received (hInv : Addressed h) (hStep : Step C h l t) :
    ∀ r ∈ t.received, ∀ n, r.source = some n →
      ∃ id, t.Speaks n id ∧ t.Opened r.browser id r.message.sid := by
  intro r hr n hSource
  have hExtends := hStep.extends hInv.placed
  rcases hStep.received hr with hOld | hNone | ⟨k, c, e, hc, hPhase, hBrowser, hFrom⟩
  · obtain ⟨id, hSpeaks, hOpened⟩ := hInv.received r hOld n hSource
    exact ⟨id, hExtends.speaks _ _ hSpeaks, hExtends.opened _ _ _ hOpened⟩
  · rw [hNone] at hSource
    cases hSource
  · rw [hFrom] at hSource
    cases hSource
    refine ⟨c.device, hExtends.speaks _ _ ⟨c, hc, rfl⟩, ?_⟩
    rw [hBrowser]
    exact hExtends.opened _ _ _ (hInv.delivering _ c hc _ e hPhase)

/-- Every step keeps the messages addressed. -/
theorem Addressed.step (hInv : Addressed h) (hStep : Step C h l t) : Addressed t where
  placed := hInv.step_placed hStep
  unique := hInv.step_unique hStep
  agents := hInv.step_agents hStep
  bound := hInv.step_bound hStep
  browsers := hInv.step_browsers hStep
  delivering := hInv.step_delivering hStep
  sent := hInv.step_sent hStep
  received := hInv.step_received hStep

/-- The invariant in every reachable state. -/
theorem addressed_reachable {allowed : Hub → HubLabel → Prop}
    (hReach : Reachable (system C allowed) h) : Addressed h := by
  refine hReach.invariant ?_ ?_
  · rintro s ⟨server, rfl⟩
    exact addressed_start server
  · exact fun s l t hInv hStep => hInv.step (step_sound hStep.2)

end Hub

/-- All steps are allowed. -/
def anyStep (_ : Hub) (_ : HubLabel) : Prop := True

namespace Hub

/-- The step, taken only when the guard allows it. -/
def allowedStep (C : SDPCodec S) (allowed : Hub → HubLabel → Prop) [∀ h l, Decidable (allowed h l)]
    (h : Hub) (l : HubLabel) : Option Hub :=
  if allowed h l then h.step C l else none

/-- A list of steps that can be followed leads to a reachable state; `view` is
what is to be known of it. -/
theorem exists_reachable {α : Type} (C : SDPCodec S) (allowed : Hub → HubLabel → Prop)
    [∀ h l, Decidable (allowed h l)] (server : Server) (labels : List HubLabel) (view : Hub → α)
    (v : α) (h : (follow (allowedStep C allowed) (start server) labels).map view = some v) :
    ∃ t, Reachable (system C allowed) t ∧ view t = v := by
  obtain ⟨t, hFollow, hView⟩ := Option.map_eq_some_iff.mp h
  refine ⟨t, ⟨_, labels, ⟨server, rfl⟩, runs_of_follow (fun s l u hStep => ?_) hFollow⟩, hView⟩
  unfold allowedStep at hStep
  split at hStep
  · next hAllowed => exact ⟨hAllowed, hStep⟩
  · cases hStep

end Hub

instance (h : Hub) (l : HubLabel) : Decidable (anyStep h l) := inferInstanceAs (Decidable True)

/-- Whatever the agents and browsers send, and however connections come and go:
what an agent connection says reaches only a request opened for its device and
named by the message's id, and what a request has written to an agent goes to a
connection of its device under its own id. -/
theorem signaling_isolated (C : SDPCodec S) {h : Hub}
    (hReach : Reachable (Hub.system C anyStep) h) :
    (∀ r ∈ h.received, ∀ n, r.source = some n →
      ∃ c w, h.conns[n]? = some c ∧ h.handlers[r.browser]? = some w ∧ w.id = c.device ∧
        w.sid = some r.message.sid) ∧
    ∀ (n : Nat) (c : AgentConn), h.conns[n]? = some c → ∀ s ∈ c.sent, ∀ b, s.1 = some b →
      ∃ w, h.handlers[b]? = some w ∧ w.id = c.device ∧ w.sid = some s.2.sid := by
  have hInv := Hub.addressed_reachable hReach
  constructor
  · intro r hr n hSource
    obtain ⟨id, ⟨c, hc, rfl⟩, w, hw, hDevice, hSID⟩ := hInv.received r hr n hSource
    exact ⟨c, w, hc, hw, hDevice, hSID⟩
  · rintro n c hc ⟨_, m⟩ hs b rfl
    exact (hInv.sent n c hc _ hs).1

/-- Session descriptions as texts, written as `{"type":"offer","sdp":text}`. -/
def textCodec : SDPCodec String where
  zero := ""
  unmarshal old
    | .obj fields =>
        match (fields.find? fun f => f.1 = "sdp").map Prod.snd with
        | some (.str s) => some s
        | none => some old
        | _ => none
    | .null => some old
    | _ => none
  marshal s := .obj [("type", .str "offer"), ("sdp", .str s)]

def sampleOffer (mode : String) : Json := .obj [("sdp", textCodec.marshal "v=0"), ("mode", .str mode)]

/-- A server with one device, a Windows one. -/
def hubServer : Server :=
  newServer (initServerConfig "198.51.100.7" "administrator-password-0" "/d")
    ⟨[{ Device.zero with id := "pc", name := "pc", token := "t", os := "windows" }], [], [], []⟩

/-- The device connects. -/
def connects (n : Nat) : List HubLabel :=
  [.connect "pc" "t" "u" "k" "f", .agent n .register, .agent n .closeOld]

/-- A browser opens a session. -/
def opens (b : Nat) (mode sid : String) : List HubLabel :=
  [.open_ "pc" mode, .browser b .count, .browser b (.upgrade (some sid)), .browser b .insert,
    .browser b (.auditOpen 0)]

/-- A browser that is served sends an offer. -/
def offersDesktop (b : Nat) : List HubLabel :=
  [.browser b (.read ⟨"", "offer", some (sampleOffer "desktop")⟩ true none), .browser b (.forward true)]

/-- An offer, and the answer to it. -/
theorem answer_isolated :
    ∃ h, Reachable (Hub.system textCodec anyStep) h ∧
      (h.received.map fun r => (r.browser, r.source, r.message.sid)) = [(0, some 0, "s")] ∧
      ∀ r ∈ h.received, ∀ n, r.source = some n →
        ∃ c w, h.conns[n]? = some c ∧ h.handlers[r.browser]? = some w ∧ w.id = c.device ∧
          w.sid = some r.message.sid := by
  obtain ⟨h, hReach, hView⟩ := Hub.exists_reachable textCodec anyStep hubServer
    (connects 0 ++ opens 0 "desktop" "s" ++ offersDesktop 0 ++
      [.far 0 (.receive none), .agent 0 (.read ⟨"s", "answer", none⟩), .agent 0 .lookUp,
        .agent 0 (.deliver true)])
    (fun h => h.received.map fun r => (r.browser, r.source, r.message.sid)) [(0, some 0, "s")]
    (by decide +kernel)
  exact ⟨h, hReach, hView, (signaling_isolated textCodec hReach).1⟩

end NetConductor
