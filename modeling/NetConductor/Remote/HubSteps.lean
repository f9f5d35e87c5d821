import NetConductor.Remote.Hub
import NetConductor.Semantics.Slots

/-! What a step of the hub can do, said once: the moves that a handler or a
device makes alone, and the steps that others see. -/
namespace NetConductor
open Transition

variable {S : Type}

/-- An offer that, if it can be read at all, asks for the given mode. -/
def Message.AsksFor (C : SDPCodec S) (m : Message) (mode : String) : Prop :=
  ∀ o, Offer.unmarshal C m.data = some o → o.mode = mode

/-- What `remoteAgent` and the device do to their connection alone. -/
inductive AgentConn.Moves (C : SDPCodec S) : AgentConn → AgentConn → Prop where
  | turns {c : AgentConn} (p : AgentPhase) (hPhase : ∀ m e, p ≠ .delivering m e) :
      Moves C c { c with phase := p }
  | reads {c : AgentConn} {b : Option Nat} {m : Message} (failure : Option String)
      (hOpen : c.ended = false) (hNext : c.sent[c.read]? = some (b, m)) :
      Moves C c ({ c with read := c.read + 1 }.receive C m failure)
  | ends {c : AgentConn} : Moves C c { c with ended := true, sessions := ∅ }
  | handles {c : AgentConn} {i : Nat} {s : String × Access} (t : Outside × RemoteRequest)
      (hSession : c.created[i]? = some s) :
      Moves C c { c with created := c.created.set i (s.1, s.2.after t) }

/-- What `remoteBrowser` does to its request alone. -/
inductive Browser.Moves (C : SDPCodec S) : Browser → Browser → Prop where
  | refused {w : Browser} (hPhase : w.phase = .admitted) : Moves C w { w with phase := .done }
  | audited {w : Browser} (hPhase : w.phase = .opened) : Moves C w { w with phase := .serving }
  | left {w : Browser} (hPhase : w.phase = .serving) (offered : Bool)
      (hOffered : w.offered = true → offered = true) :
      Moves C w { w with offered := offered, phase := .leaving }
  | makes {w : Browser} {cfg : RemoteConfig} {failure : Option String} {s : Access}
      (hPhase : w.phase = .serving) (hOffered : w.offered = false) (hCloud : w.id = "cloud")
      (hSession : remoteNew cfg w.mode failure = .ok s) :
      Moves C w { w with offered := true, made := w.made ++ [s] }
  | offers {w : Browser} {m : Message} (hPhase : w.phase = .serving) (hOffered : w.offered = false)
      (hDevice : w.id ≠ "cloud") (hSID : m.sid = w.sid.getD "") (hType : m.type = "offer")
      (hMode : m.AsksFor C w.mode) :
      Moves C w { w with offered := true, phase := .forwarding m }
  | relays {w : Browser} {m : Message} (hPhase : w.phase = .serving) (hOffered : w.offered = true)
      (hNone : w.made = []) (hSID : m.sid = w.sid.getD "") (hType : m.type = "relay") :
      Moves C w { w with phase := .forwarding m }
  | gaveUp {w : Browser} {m : Message} (hPhase : w.phase = .forwarding m)
      (hAgent : w.agent ≠ none) : Moves C w { w with phase := .leaving }
  | panics {w : Browser} {m : Message} (hPhase : w.phase = .forwarding m) (hAgent : w.agent = none) :
      Moves C w { w with phase := .leaving, panicked := true }
  | skipped {w : Browser} (hPhase : w.phase = .leaving) (hAgent : w.agent = none) :
      Moves C w { w with phase := .unregistering }
  | ending {w : Browser} (hPhase : w.phase = .ending) : Moves C w { w with phase := .closing }
  | closing {w : Browser} (hPhase : w.phase = .closing) : Moves C w { w with phase := .done }
  | handles {w : Browser} {i : Nat} {s : Access} (t : Outside × RemoteRequest)
      (hSession : w.made[i]? = some s) : Moves C w { w with made := w.made.set i (s.after t) }
  | stays {w : Browser} : Moves C w w

namespace Hub

/-- The memory of the server, the sockets closed and the messages a browser got
from the server itself matter to no other handler. -/
structure Beside (h t : Hub) : Prop where
  closed : h.closed ⊆ t.closed
  received : ∀ r ∈ t.received, r ∈ h.received ∨ r.source = none

/-- What a step can do. -/
inductive Step (C : SDPCodec S) : Hub → HubLabel → Hub → Prop where
  | server {h : Hub} {l : HubLabel} (s : Server) : Step C h l { h with server := s }
  | connected {h : Hub} {l : HubLabel} (credentials : Credentials) (cfg : RemoteConfig) :
      Step C h l { h with
        conns := h.conns ++ [⟨credentials, cfg, .connected, [], 0, ∅, [], false⟩] }
  | conn {h t : Hub} {l : HubLabel} {n : Nat} {c c' : AgentConn} (hConn : h.conns[n]? = some c)
      (hMoves : c.Moves C c') (hBeside : Beside h t) :
      Step C h l { h.setConn n c' with closed := t.closed, received := t.received }
  | registered {h : Hub} {n : Nat} {c : AgentConn} (hConn : h.conns[n]? = some c) :
      Step C h (.agent n .register)
        { h.setConn n { c with phase := .replacing (h.agents.lookup c.device) } with
          agents := h.agents.insert c.device n }
  | ponged {h : Hub} {l : HubLabel} {n : Nat} {c : AgentConn} (hConn : h.conns[n]? = some c) :
      Step C h l ((h.setConn n { c with phase := .reading }).send n none pong)
  | found {h : Hub} {l : HubLabel} {n : Nat} {c : AgentConn} {m : Message} {e : RemoteBrowser}
      (hConn : h.conns[n]? = some c) (hFound : h.browsers.lookup m.sid = some e)
      (hDevice : e.device = c.device) :
      Step C h l (h.setConn n { c with phase := .delivering m e })
  | delivered {h : Hub} {l : HubLabel} {n : Nat} {c : AgentConn} {m : Message} {e : RemoteBrowser}
      (hConn : h.conns[n]? = some c) (hPhase : c.phase = .delivering m e) :
      Step C h l { h.setConn n { c with phase := .reading } with
        received := h.received ++ [⟨e.conn, some n, m⟩] }
  | cleaned {h : Hub} {n : Nat} {c : AgentConn} (hConn : h.conns[n]? = some c)
      (hOwn : h.agents.lookup c.device = some n) :
      Step C h (.agent n .cleanUp) ({ h.setConn n { c with phase := .done } with
        agents := h.agents.erase c.device }.shut (h.browsersOf c.device))
  | asked {h : Hub} {l : HubLabel} (id mode : String) :
      Step C h l { h with handlers := h.handlers ++ [h.openRequest id mode] }
  | browser {h t : Hub} {l : HubLabel} {b : Nat} {w w' : Browser}
      (hBrowser : h.handlers[b]? = some w) (hMoves : w.Moves C w') (hBeside : Beside h t) :
      Step C h l { h.setBrowser b w' with
        server := t.server, closed := t.closed, received := t.received }
  | counted {h : Hub} {b : Nat} {w : Browser} (hBrowser : h.handlers[b]? = some w)
      (hPhase : w.phase = .looked) : Step C h (.browser b .count) (h.setBrowser b (h.count w))
  | upgraded {h : Hub} {l : HubLabel} {b : Nat} {w : Browser} {token : String}
      (hBrowser : h.handlers[b]? = some w) (hPhase : w.phase = .admitted)
      (hFresh : ∀ v ∈ h.handlers, v.sid ≠ some token) :
      Step C h l (h.setBrowser b { w with sid := some token, phase := .upgraded })
  | inserted {h : Hub} {l : HubLabel} {b : Nat} {w : Browser} (hBrowser : h.handlers[b]? = some w)
      (hPhase : w.phase = .upgraded) :
      Step C h l { h.setBrowser b { w with phase := .opened } with
        browsers := h.browsers.insert (w.sid.getD "") ⟨b, w.id⟩ }
  | forwarded {h : Hub} {l : HubLabel} {b n : Nat} {w : Browser} {m : Message}
      (hBrowser : h.handlers[b]? = some w) (hPhase : w.phase = .forwarding m)
      (hAgent : w.agent = some n) :
      Step C h l ((h.setBrowser b { w with phase := .serving }).send n (some b) m)
  | closeSent {h : Hub} {l : HubLabel} {b n : Nat} {w : Browser} (hBrowser : h.handlers[b]? = some w)
      (hPhase : w.phase = .leaving) (hAgent : w.agent = some n) :
      Step C h l ((h.setBrowser b { w with phase := .unregistering }).send n (some b) w.closeMessage)
  | closeFailed {h : Hub} {b n : Nat} {w : Browser} (hBrowser : h.handlers[b]? = some w)
      (hPhase : w.phase = .leaving) (hAgent : w.agent = some n) :
      Step C h (.browser b (.sendClose false)) (h.setBrowser b { w with phase := .unregistering })
  | removed {h : Hub} {l : HubLabel} {b : Nat} {w : Browser} (hBrowser : h.handlers[b]? = some w)
      (hPhase : w.phase = .unregistering) :
      Step C h l { h.setBrowser b { w with phase := .ending } with
        browsers := h.browsers.erase (w.sid.getD "") }

variable {C : SDPCodec S} {h t : Hub}

theorem Beside.refl (h : Hub) : Beside h h := ⟨fun _ hw => hw, fun _ hr => .inl hr⟩

theorem beside_shut (h : Hub) (ws : List WebSocket) : Beside h (h.shut ws) :=
  ⟨fun _ hw => List.mem_append_left _ hw, fun _ hr => .inl hr⟩

theorem beside_server (h : Hub) (s : Server) : Beside h { h with server := s } :=
  ⟨fun _ hw => hw, fun _ hr => .inl hr⟩

theorem beside_tell (h : Hub) (b : Nat) (ms : List Message) : Beside h (h.tell b ms) := by
  refine ⟨fun _ hw => hw, fun r hr => ?_⟩
  rcases List.mem_append.mp hr with hOld | hNew
  · exact .inl hOld
  · obtain ⟨m, -, rfl⟩ := List.mem_map.mp hNew
    exact .inr rfl

theorem setBrowser_self {b : Nat} {w : Browser} (hBrowser : h.handlers[b]? = some w) :
    h.setBrowser b w = h := by
  obtain ⟨hLength, rfl⟩ := List.getElem?_eq_some_iff.mp hBrowser
  simp only [setBrowser, List.set_getElem_self]

theorem shut_self {b : Nat} {w : Browser} {l : HubLabel} {ws : List WebSocket}
    (hBrowser : h.handlers[b]? = some w) : Step C h l (h.shut ws) := by
  have hStep : Step C h l _ := .browser hBrowser .stays (beside_shut h ws)
  rwa [setBrowser_self hBrowser] at hStep

theorem tell_self {b : Nat} {w : Browser} {l : HubLabel} {ms : List Message}
    (hBrowser : h.handlers[b]? = some w) : Step C h l (h.tell b ms) := by
  have hStep : Step C h l _ := .browser hBrowser .stays (beside_tell h b ms)
  rwa [setBrowser_self hBrowser] at hStep

theorem browser_server {b : Nat} {w w' : Browser} {l : HubLabel} (hBrowser : h.handlers[b]? = some w)
    (hMoves : w.Moves C w') (s : Server) : Step C h l { h.setBrowser b w' with server := s } :=
  .browser (t := { h with server := s }) hBrowser hMoves (beside_server h s)

/-- The handler of a device's connection makes one of the steps. -/
theorem agentStep_sound {n : Nat} {c : AgentConn} {a : AgentAct} (hConn : h.conns[n]? = some c)
    (hStep : h.agentStep n c a = some t) : Step C h (.agent n a) t := by
  have hAlone : ∀ p : AgentPhase, (∀ m e, p ≠ .delivering m e) →
      Step C h (.agent n a) (h.setConn n { c with phase := p }) := fun p hp =>
    Step.conn hConn (.turns p hp) (Beside.refl h)
  unfold agentStep at hStep
  split at hStep
  · cases hStep
    exact .registered hConn
  · cases hStep
    exact .conn hConn (.turns .reading (by simp)) (beside_shut h _)
  · split_ifs at hStep <;> cases hStep
    · exact hAlone _ (by simp)
    · exact hAlone _ (by simp)
    · exact .server h.server
    · exact hAlone _ (by simp)
  · cases hStep
    exact hAlone _ (by simp)
  · split_ifs at hStep <;> cases hStep
    · exact .ponged hConn
    · exact hAlone _ (by simp)
  · split at hStep
    · next e hFound =>
        split_ifs at hStep with hDevice <;> cases hStep
        · exact .found hConn hFound hDevice
        · exact hAlone _ (by simp)
    · cases hStep
      exact hAlone _ (by simp)
  · next m e hPhase =>
      split_ifs at hStep <;> cases hStep
      · exact .delivered hConn hPhase
      · exact .conn hConn (.turns .reading (by simp)) (beside_shut h _)
  · cases hStep
    exact .conn hConn (.turns .cleaning (by simp)) (beside_shut h _)
  · split_ifs at hStep with hOwn <;> cases hStep
    · exact .cleaned hConn hOwn
    · exact hAlone _ (by simp)
  · cases hStep

/-- The device's end makes one of the steps of a connection. -/
theorem farStep_moves {c c' : AgentConn} {a : FarAct} (hStep : c.farStep C a = some c') :
    c.Moves C c' := by
  cases a with
  | receive failure =>
      simp only [AgentConn.farStep] at hStep
      split_ifs at hStep with hEnded
      obtain ⟨⟨b, m⟩, hNext, rfl⟩ := Option.map_eq_some_iff.mp hStep
      exact .reads failure (by simpa using hEnded) hNext
  | leave =>
      simp only [AgentConn.farStep] at hStep
      split_ifs at hStep with hEnded
      cases hStep
      exact .ends
  | handle i r =>
      obtain ⟨s, hSession, rfl⟩ := Option.map_eq_some_iff.mp hStep
      exact .handles r hSession

/-- A message of the browser's is refused, ends the loop, makes the server's own
session, or is forwarded. -/
theorem read_moves {w : Browser} (cfg : ServerConfig) (m : Message) (admin : Bool)
    (failure : Option String) (hPhase : w.phase = .serving) :
    w.Moves C (w.read C cfg m admin failure).1 := by
  have hLeave : w.Moves C w.leave := .left hPhase w.offered id
  unfold Browser.read
  split
  · exact hLeave
  split
  · next hType =>
      split_ifs with hOffered
      · exact hLeave
      unfold Browser.readOffer
      split
      · exact .left hPhase true fun _ => rfl
      · next offer hOffer =>
          split_ifs with hCloud
          · split
            · exact .left hPhase true fun _ => rfl
            · next session hSession =>
                exact .makes hPhase (by simpa using hOffered) hCloud hSession
          · refine .offers hPhase (by simpa using hOffered) hCloud rfl hType fun o ho => ?_
            exact Offer.mode_unmarshal_marshal ho
  · next hType =>
      split_ifs with hOffered hMade
      · exact hLeave
      · exact .stays
      · exact .relays hPhase (by simpa using hOffered) (by simpa using hMade) rfl hType
  · exact .stays
  · exact hLeave

/-- The handler of a browser's request makes one of the steps. -/
theorem browserStep_sound {b : Nat} {w : Browser} {a : BrowserAct}
    (hBrowser : h.handlers[b]? = some w) (hStep : h.browserStep C b w a = some t) :
    Step C h (.browser b a) t := by
  have hAlone : ∀ w', w.Moves C w' → Step C h (.browser b a) (h.setBrowser b w') := fun w' hw =>
    Step.browser hBrowser hw (Beside.refl h)
  unfold browserStep at hStep
  split at hStep
  · next hPhase =>
      cases hStep
      exact .counted hBrowser hPhase
  · next hPhase =>
      cases hStep
      exact hAlone _ (.refused hPhase)
  · next hPhase =>
      split_ifs at hStep with hFresh
      cases hStep
      exact .upgraded hBrowser hPhase hFresh
  · next hPhase =>
      cases hStep
      exact .inserted hBrowser hPhase
  · next hPhase =>
      cases hStep
      exact browser_server hBrowser (.audited hPhase) _
  · next hPhase =>
      cases hStep
      exact .browser hBrowser (read_moves _ _ _ _ hPhase) (beside_tell h _ _)
  · next hPhase =>
      cases hStep
      exact hAlone _ (.left hPhase w.offered id)
  · next m ok hPhase =>
      split at hStep
      · next hAgent =>
          cases hStep
          exact hAlone _ (.panics hPhase hAgent)
      · next n hAgent =>
          split_ifs at hStep <;> cases hStep
          · exact .forwarded hBrowser hPhase hAgent
          · exact hAlone _ (.gaveUp hPhase (by simp [hAgent]))
  · next ok hPhase =>
      split at hStep
      · next hAgent =>
          cases hStep
          exact hAlone _ (.skipped hPhase hAgent)
      · next n hAgent =>
          split_ifs at hStep with hWrite hOk <;> cases hStep
          · exact .closeSent hBrowser hPhase hAgent
          · obtain rfl : ok = false := by simpa using hOk
            exact .closeFailed hBrowser hPhase hAgent
  · next hPhase =>
      cases hStep
      exact .removed hBrowser hPhase
  · next hPhase =>
      cases hStep
      exact browser_server hBrowser (.ending hPhase) _
  · next hPhase =>
      cases hStep
      exact .browser hBrowser (.closing hPhase) (beside_shut h _)
  · cases hStep
    exact shut_self hBrowser
  · cases hStep
    exact shut_self hBrowser
  · obtain ⟨s, hSession, rfl⟩ := Option.map_eq_some_iff.mp hStep
    exact hAlone _ (.handles _ hSession)
  · split_ifs at hStep
    cases hStep
    exact tell_self hBrowser
  · cases hStep

/-- `remoteAgent` does not touch the server's memory. -/
theorem agentStep_server {n : Nat} {c : AgentConn} {a : AgentAct}
    (hStep : h.agentStep n c a = some t) : t.server = h.server := by
  unfold agentStep at hStep
  split at hStep
  case h_6 =>
    split at hStep
    · split_ifs at hStep <;> cases hStep <;> rfl
    · cases hStep
      rfl
  case h_3 | h_5 | h_7 | h_9 =>
    split_ifs at hStep <;> cases hStep <;> rfl
  all_goals
    cases hStep <;> rfl

/-- `remoteBrowser` writes nothing to the memory but audit lines, and to a
connection nothing but messages. -/
theorem browserStep_beside {b : Nat} {w : Browser} {a : BrowserAct}
    (hStep : h.browserStep C b w a = some t) :
    (t.server = h.server ∨ ∃ now action, t.server = h.server.audit now action (auditText w)) ∧
      (t.conns = h.conns ∨ ∃ n s, t.conns = h.conns.modify n fun c => { c with sent := c.sent ++ [s] }) := by
  unfold browserStep at hStep
  split at hStep
  case h_3 =>
    split_ifs at hStep
    cases hStep
    exact ⟨.inl rfl, .inl rfl⟩
  case h_5 | h_11 =>
    cases hStep
    exact ⟨.inr ⟨_, _, rfl⟩, .inl rfl⟩
  case h_8 | h_9 =>
    split at hStep
    · cases hStep
      exact ⟨.inl rfl, .inl rfl⟩
    · split_ifs at hStep <;> cases hStep
      · exact ⟨.inl rfl, .inr ⟨_, _, rfl⟩⟩
      · exact ⟨.inl rfl, .inl rfl⟩
  case h_15 =>
    obtain ⟨s, -, rfl⟩ := Option.map_eq_some_iff.mp hStep
    exact ⟨.inl rfl, .inl rfl⟩
  case h_16 =>
    split_ifs at hStep
    cases hStep
    exact ⟨.inl rfl, .inl rfl⟩
  all_goals
    cases hStep <;> exact ⟨.inl rfl, .inl rfl⟩

/-- The handlers of the hub write nothing to the server's memory but lines about
sessions. -/
theorem step_server {l : HubLabel} (hLabel : ∀ s, l ≠ .server s) (hStep : h.step C l = some t) :
    t.server = h.server ∨ ∃ now action detail, t.server = h.server.audit now action detail := by
  cases l with
  | server s => exact absurd rfl (hLabel s)
  | connect id bearer user key fingerprint =>
      obtain ⟨credentials, -, rfl⟩ := Option.map_eq_some_iff.mp hStep
      exact .inl rfl
  | agent n a =>
      obtain ⟨c, -, hAgent⟩ := Option.bind_eq_some_iff.mp hStep
      exact .inl (agentStep_server hAgent)
  | far n a =>
      obtain ⟨c, -, hConn⟩ := Option.bind_eq_some_iff.mp hStep
      obtain ⟨c', -, rfl⟩ := Option.map_eq_some_iff.mp hConn
      exact .inl rfl
  | open_ id mode =>
      cases hStep
      exact .inl rfl
  | browser b a =>
      obtain ⟨w, -, hBrowser⟩ := Option.bind_eq_some_iff.mp hStep
      rcases (browserStep_beside hBrowser).1 with hSame | ⟨now, action, hAudit⟩
      · exact .inl hSame
      · exact .inr ⟨now, action, _, hAudit⟩

/-- What a step of the hub can do. -/
theorem step_sound {l : HubLabel} (hStep : h.step C l = some t) : Step C h l t := by
  cases l with
  | server s =>
      cases hStep
      exact .server s
  | connect id bearer user key fingerprint =>
      obtain ⟨credentials, -, rfl⟩ := Option.map_eq_some_iff.mp hStep
      exact .connected credentials _
  | agent n a =>
      obtain ⟨c, hConn, hStep⟩ := Option.bind_eq_some_iff.mp hStep
      exact agentStep_sound hConn hStep
  | far n a =>
      obtain ⟨c, hConn, hStep⟩ := Option.bind_eq_some_iff.mp hStep
      obtain ⟨c', hFar, rfl⟩ := Option.map_eq_some_iff.mp hStep
      exact .conn hConn (farStep_moves hFar) (Beside.refl h)
  | open_ id mode =>
      cases hStep
      exact .asked id mode
  | browser b a =>
      obtain ⟨w, hBrowser, hStep⟩ := Option.bind_eq_some_iff.mp hStep
      exact browserStep_sound hBrowser hStep

/-! ### One process at a time -/

/-- How the connection `n` changes in a step that starts in `h`. -/
inductive ConnChanges (C : SDPCodec S) (h : Hub) (n : Nat) (c : AgentConn) : AgentConn → Prop where
  | same : ConnChanges C h n c c
  | moves {c' : AgentConn} (hMoves : c.Moves C c') : ConnChanges C h n c c'
  | found {m : Message} {e : RemoteBrowser} (hFound : h.browsers.lookup m.sid = some e)
      (hDevice : e.device = c.device) :
      ConnChanges C h n c { c with phase := .delivering m e }
  | ponged : ConnChanges C h n c { c with phase := .reading, sent := c.sent ++ [(none, pong)] }
  | hears {b : Nat} {w : Browser} {m : Message} (hBrowser : h.handlers[b]? = some w)
      (hAgent : w.agent = some n)
      (hPhase : w.phase = .forwarding m ∨ w.phase = .leaving ∧ m = w.closeMessage) :
      ConnChanges C h n c { c with sent := c.sent ++ [(some b, m)] }

/-- How the request `b` changes in a step that starts in `h`. -/
inductive BrowserChanges (C : SDPCodec S) (h : Hub) (b : Nat) (w : Browser) : Browser → Prop where
  | same : BrowserChanges C h b w w
  | moves {w' : Browser} (hMoves : w.Moves C w') : BrowserChanges C h b w w'
  | counted (hPhase : w.phase = .looked) : BrowserChanges C h b w (h.count w)
  | upgraded {token : String} (hPhase : w.phase = .admitted)
      (hFresh : ∀ v ∈ h.handlers, v.sid ≠ some token) :
      BrowserChanges C h b w { w with sid := some token, phase := .upgraded }
  | inserted (hPhase : w.phase = .upgraded) : BrowserChanges C h b w { w with phase := .opened }
  | forwarded {n : Nat} {m : Message} (hPhase : w.phase = .forwarding m) (hAgent : w.agent = some n) :
      BrowserChanges C h b w { w with phase := .serving }
  | closed {n : Nat} (hPhase : w.phase = .leaving) (hAgent : w.agent = some n) :
      BrowserChanges C h b w { w with phase := .unregistering }
  | removed (hPhase : w.phase = .unregistering) : BrowserChanges C h b w { w with phase := .ending }

/-- A connection that has just been upgraded. -/
def NewConn (c : AgentConn) : Prop :=
  ∃ credentials cfg, c = ⟨credentials, cfg, .connected, [], 0, ∅, [], false⟩

def NewBrowser (h : Hub) (w : Browser) : Prop := ∃ id mode, w = h.openRequest id mode

variable {l : HubLabel}

/-- What a step can do to the connections of the devices. -/
theorem Step.conns (hStep : Step C h l t) :
    Slots.Evolves (ConnChanges C h) NewConn h.conns t.conns := by
  have hSame : ∀ n c, ConnChanges C h n c c := fun _ _ => .same
  have hHears : ∀ {b n w m}, h.handlers[b]? = some w → w.agent = some n →
      w.phase = .forwarding m ∨ w.phase = .leaving ∧ m = w.closeMessage →
      Slots.Evolves (ConnChanges C h) NewConn h.conns
        (h.conns.modify n fun c => { c with sent := c.sent ++ [(some b, m)] }) :=
    fun hBrowser hAgent hPhase => .modify hSame fun _ _ => .hears hBrowser hAgent hPhase
  cases hStep with
  | connected credentials cfg => exact .append hSame ⟨credentials, cfg, rfl⟩
  | conn hConn hMoves => exact .set hSame hConn (.moves hMoves)
  | registered hConn => exact .set hSame hConn (.moves (.turns _ (by simp)))
  | ponged hConn =>
      change Slots.Evolves _ _ _ (List.modify (List.set _ _ _) _ _)
      rw [Slots.set_modify]
      exact .set hSame hConn .ponged
  | found hConn hFound hDevice => exact .set hSame hConn (.found hFound hDevice)
  | delivered hConn => exact .set hSame hConn (.moves (.turns _ (by simp)))
  | cleaned hConn => exact .set hSame hConn (.moves (.turns _ (by simp)))
  | forwarded hBrowser hPhase hAgent => exact hHears hBrowser hAgent (.inl hPhase)
  | closeSent hBrowser hPhase hAgent => exact hHears hBrowser hAgent (.inr ⟨hPhase, rfl⟩)
  | _ => exact .refl hSame _

/-- What a step can do to the requests of the browsers. -/
theorem Step.handlers (hStep : Step C h l t) :
    Slots.Evolves (BrowserChanges C h) (NewBrowser h) h.handlers t.handlers := by
  have hSame : ∀ b w, BrowserChanges C h b w w := fun _ _ => .same
  cases hStep with
  | asked id mode => exact .append hSame ⟨id, mode, rfl⟩
  | browser hBrowser hMoves => exact .set hSame hBrowser (.moves hMoves)
  | counted hBrowser hPhase => exact .set hSame hBrowser (.counted hPhase)
  | upgraded hBrowser hPhase hFresh => exact .set hSame hBrowser (.upgraded hPhase hFresh)
  | inserted hBrowser hPhase => exact .set hSame hBrowser (.inserted hPhase)
  | forwarded hBrowser hPhase hAgent => exact .set hSame hBrowser (.forwarded hPhase hAgent)
  | closeSent hBrowser hPhase hAgent => exact .set hSame hBrowser (.closed hPhase hAgent)
  | closeFailed hBrowser hPhase hAgent => exact .set hSame hBrowser (.closed hPhase hAgent)
  | removed hBrowser hPhase => exact .set hSame hBrowser (.removed hPhase)
  | _ => exact .refl hSame _

/-- Only a registration and the cleanup of an own one change the agents. -/
theorem Step.agents (hStep : Step C h l t) :
    t.agents = h.agents ∨
    (t.handlers = h.handlers ∧ t.browsers = h.browsers ∧
      ((∃ n c, l = .agent n .register ∧ h.conns[n]? = some c ∧
        t.agents = h.agents.insert c.device n) ∨
      ∃ n c, l = .agent n .cleanUp ∧ h.conns[n]? = some c ∧ h.agents.lookup c.device = some n ∧
        t.agents = h.agents.erase c.device ∧ h.browsersOf c.device ⊆ t.closed)) := by
  cases hStep with
  | registered hConn => exact .inr ⟨rfl, rfl, .inl ⟨_, _, rfl, hConn, rfl⟩⟩
  | cleaned hConn hOwn =>
      exact .inr ⟨rfl, rfl, .inr ⟨_, _, rfl, hConn, hOwn, rfl, fun _ hw => List.mem_append_right _ hw⟩⟩
  | _ => exact .inl rfl

/-- A request registers once, with its own id, and removes that entry. -/
theorem Step.browsers (hStep : Step C h l t) :
    t.browsers = h.browsers ∨
    (t.agents = h.agents ∧ ∃ b w, h.handlers[b]? = some w ∧
      ((w.phase = .upgraded ∧ t.handlers = h.handlers.set b { w with phase := .opened } ∧
        t.browsers = h.browsers.insert (w.sid.getD "") ⟨b, w.id⟩) ∨
      (w.phase = .unregistering ∧ t.handlers = h.handlers.set b { w with phase := .ending } ∧
        t.browsers = h.browsers.erase (w.sid.getD "")))) := by
  cases hStep with
  | inserted hBrowser hPhase => exact .inr ⟨rfl, _, _, hBrowser, .inl ⟨hPhase, rfl, rfl⟩⟩
  | removed hBrowser hPhase => exact .inr ⟨rfl, _, _, hBrowser, .inr ⟨hPhase, rfl, rfl⟩⟩
  | _ => exact .inl rfl

/-- A closed socket stays closed. -/
theorem Step.closed (hStep : Step C h l t) : h.closed ⊆ t.closed := by
  cases hStep with
  | conn _ _ hBeside => exact hBeside.closed
  | browser _ _ hBeside => exact hBeside.closed
  | cleaned => exact fun _ hw => List.mem_append_left _ hw
  | _ => exact fun _ hw => hw

/-- What a browser receives from an agent was being delivered. -/
theorem Step.received (hStep : Step C h l t) {r : Received} (hr : r ∈ t.received) :
    r ∈ h.received ∨ r.source = none ∨
      ∃ n c e, h.conns[n]? = some c ∧ c.phase = .delivering r.message e ∧
        r.browser = e.conn ∧ r.source = some n := by
  cases hStep with
  | conn _ _ hBeside => exact (hBeside.received r hr).imp_right .inl
  | browser _ _ hBeside => exact (hBeside.received r hr).imp_right .inl
  | delivered hConn hPhase =>
      rcases List.mem_append.mp hr with hOld | hNew
      · exact .inl hOld
      · obtain rfl := List.mem_singleton.mp hNew
        exact .inr (.inr ⟨_, _, _, hConn, hPhase, rfl, rfl⟩)
  | _ => exact .inl hr

/-- Nothing but a pong is written. -/
def OnlyPongs (c c' : AgentConn) : Prop := c'.sent = c.sent ∨ c'.sent = c.sent ++ [(none, pong)]

/-- No request's message is written: no forwarding request goes back to its
loop, and one that leaves with an agent only gets on when its write fails. -/
structure Quiet (C : SDPCodec S) (h : Hub) (l : HubLabel) (t : Hub) : Prop where
  conns : Slots.Evolves (fun n c c' => ConnChanges C h n c c' ∧ OnlyPongs c c') NewConn
    h.conns t.conns
  handlers : Slots.Evolves
    (fun b w w' => BrowserChanges C h b w w' ∧
      (∀ m, w.phase = .forwarding m → w'.phase ≠ .serving) ∧
      (w.phase = .leaving → w.agent ≠ none → w'.phase = .leaving ∨ l = .browser b (.sendClose false)))
    (NewBrowser h) h.handlers t.handlers

/-- A message of request `b` is written to connection `n`, and nothing else
happens. -/
structure Writes (h t : Hub) (b : Nat) (w : Browser) (n : Nat) (m : Message) (p : BrowserPhase) :
    Prop where
  browser : h.handlers[b]? = some w
  agent : w.agent = some n
  phase : w.phase = .forwarding m ∧ p = .serving ∨
    w.phase = .leaving ∧ m = w.closeMessage ∧ p = .unregistering
  handlers : t.handlers = h.handlers.set b { w with phase := p }
  conns : t.conns = h.conns.modify n fun c => { c with sent := c.sent ++ [(some b, m)] }
  agents : t.agents = h.agents
  closed : t.closed = h.closed

/-- A write changes the phase of the request that writes, and no other one. -/
theorem Writes.handler {b₀ b n : Nat} {w₀ w : Browser} {m : Message} {p : BrowserPhase}
    (hWrites : Writes h t b₀ w₀ n m p) (hw : t.handlers[b]? = some w) :
    (b = b₀ ∧ w = { w₀ with phase := p }) ∨ (b ≠ b₀ ∧ h.handlers[b]? = some w) := by
  rw [hWrites.handlers, List.getElem?_set] at hw
  split at hw
  · next hSame =>
      split at hw
      · exact .inl ⟨hSame.symm, (Option.some.inj hw).symm⟩
      · cases hw
  · next hOther => exact .inr ⟨Ne.symm hOther, hw⟩

/-- A write touches one connection and only appends to it. -/
theorem Writes.conn {b n₀ n : Nat} {w : Browser} {m : Message} {p : BrowserPhase} {c : AgentConn}
    (hWrites : Writes h t b w n₀ m p) (hc : t.conns[n]? = some c) :
    (n = n₀ ∧ ∃ c₀, h.conns[n]? = some c₀ ∧ c = { c₀ with sent := c₀.sent ++ [(some b, m)] }) ∨
      (n ≠ n₀ ∧ h.conns[n]? = some c) := by
  rw [hWrites.conns, List.getElem?_modify] at hc
  obtain ⟨c₀, hc₀, rfl⟩ := Option.map_eq_some_iff.mp hc
  split
  · next hSame => exact .inl ⟨hSame.symm, c₀, hc₀, rfl⟩
  · next hOther => exact .inr ⟨Ne.symm hOther, hc₀⟩

/-- The connection written to, after the write. -/
theorem Writes.written {b n : Nat} {w : Browser} {m : Message} {p : BrowserPhase} {c : AgentConn}
    (hWrites : Writes h t b w n m p) (hc : h.conns[n]? = some c) :
    t.conns[n]? = some { c with sent := c.sent ++ [(some b, m)] } := by
  rw [hWrites.conns, List.getElem?_modify, hc]
  simp

/-- From forwarding a browser does not start to serve. -/
theorem moves_from_forwarding {w w' : Browser} {m : Message} (hMoves : w.Moves C w')
    (hPhase : w.phase = .forwarding m) : w'.phase ≠ .serving := by
  cases hMoves with
  | gaveUp => simp
  | panics => simp
  | handles => simp [hPhase]
  | stays => simp [hPhase]
  | _ hOther => simp [hPhase] at hOther

/-- Reading changes nothing of what was written. -/
theorem receive_sent (m : Message) (failure : Option String) (c : AgentConn) :
    (c.receive C m failure).sent = c.sent := by
  unfold AgentConn.receive
  split
  · unfold AgentConn.receiveOffer
    split_ifs
    · rfl
    split
    · rfl
    · split <;> rfl
  · rfl
  · rfl

theorem moves_sent {c c' : AgentConn} (hMoves : c.Moves C c') : c'.sent = c.sent := by
  cases hMoves with
  | reads => exact receive_sent _ _ _
  | _ => rfl

/-- A browser that leaves an agent goes on leaving. -/
theorem moves_from_leaving {w w' : Browser} (hMoves : w.Moves C w') (hPhase : w.phase = .leaving)
    (hAgent : w.agent ≠ none) : w'.phase = .leaving := by
  cases hMoves with
  | skipped _ hNone => exact absurd hNone hAgent
  | handles => exact hPhase
  | stays => exact hPhase
  | _ hOther => simp [hPhase] at hOther

/-- A step writes one message of a browser's, or none. -/
theorem Step.writes (hStep : Step C h l t) :
    Quiet C h l t ∨ ∃ b w n m p, Writes h t b w n m p := by
  have hSameC : ∀ (n : Nat) (c : AgentConn), ConnChanges C h n c c ∧ OnlyPongs c c :=
    fun _ _ => ⟨.same, .inl rfl⟩
  have hSameB : ∀ (b : Nat) (w : Browser), BrowserChanges C h b w w ∧
      (∀ m, w.phase = .forwarding m → w.phase ≠ .serving) ∧
      (w.phase = .leaving → w.agent ≠ none → w.phase = .leaving ∨ l = .browser b (.sendClose false)) :=
    fun _ _ => ⟨.same, fun m hPhase => by simp [hPhase], fun hPhase _ => .inl hPhase⟩
  -- a step of one connection, whose messages stay
  have hTurns : ∀ {n : Nat} {c : AgentConn}, h.conns[n]? = some c → ∀ p : AgentPhase,
      (∀ m e, p ≠ .delivering m e) → Slots.Evolves
        (fun n c c' => ConnChanges C h n c c' ∧ OnlyPongs c c') NewConn h.conns
        (h.conns.set n { c with phase := p }) :=
    fun hConn p hp => .set hSameC hConn ⟨.moves (.turns p hp), .inl rfl⟩
  cases hStep with
  | connected credentials cfg => exact .inl ⟨.append hSameC ⟨credentials, cfg, rfl⟩, .refl hSameB _⟩
  | conn hConn hMoves =>
      exact .inl ⟨.set hSameC hConn ⟨.moves hMoves, .inl (moves_sent hMoves)⟩, .refl hSameB _⟩
  | registered hConn => exact .inl ⟨hTurns hConn _ (by simp), .refl hSameB _⟩
  | ponged hConn =>
      refine .inl ⟨?_, .refl hSameB _⟩
      change Slots.Evolves _ _ _ (List.modify (List.set _ _ _) _ _)
      rw [Slots.set_modify]
      exact .set hSameC hConn ⟨.ponged, .inr rfl⟩
  | found hConn hFound hDevice =>
      exact .inl ⟨.set hSameC hConn ⟨.found hFound hDevice, .inl rfl⟩, .refl hSameB _⟩
  | delivered hConn => exact .inl ⟨hTurns hConn _ (by simp), .refl hSameB _⟩
  | cleaned hConn => exact .inl ⟨hTurns hConn _ (by simp), .refl hSameB _⟩
  | asked id mode => exact .inl ⟨.refl hSameC _, .append hSameB ⟨id, mode, rfl⟩⟩
  | browser hBrowser hMoves =>
      exact .inl ⟨.refl hSameC _, .set hSameB hBrowser
        ⟨.moves hMoves, fun m hPhase => moves_from_forwarding hMoves hPhase,
          fun hPhase hAgent => .inl (moves_from_leaving hMoves hPhase hAgent)⟩⟩
  | counted hBrowser hPhase =>
      exact .inl ⟨.refl hSameC _, .set hSameB hBrowser ⟨.counted hPhase, by simp [hPhase], by simp [hPhase]⟩⟩
  | upgraded hBrowser hPhase hFresh =>
      exact .inl ⟨.refl hSameC _, .set hSameB hBrowser
        ⟨.upgraded hPhase hFresh, by simp, by simp [hPhase]⟩⟩
  | inserted hBrowser hPhase =>
      exact .inl ⟨.refl hSameC _, .set hSameB hBrowser ⟨.inserted hPhase, by simp, by simp [hPhase]⟩⟩
  | forwarded hBrowser hPhase hAgent =>
      exact .inr ⟨_, _, _, _, _, hBrowser, hAgent, .inl ⟨hPhase, rfl⟩, rfl, rfl, rfl, rfl⟩
  | closeSent hBrowser hPhase hAgent =>
      exact .inr ⟨_, _, _, _, _, hBrowser, hAgent, .inr ⟨hPhase, rfl, rfl⟩, rfl, rfl, rfl, rfl⟩
  | closeFailed hBrowser hPhase hAgent =>
      exact .inl ⟨.refl hSameC _, .set hSameB hBrowser
        ⟨.closed hPhase hAgent, by simp, fun _ _ => .inr rfl⟩⟩
  | removed hBrowser hPhase =>
      exact .inl ⟨.refl hSameC _, .set hSameB hBrowser ⟨.removed hPhase, by simp, by simp [hPhase]⟩⟩
  | server => exact .inl ⟨.refl hSameC _, .refl hSameB _⟩

end Hub
end NetConductor
