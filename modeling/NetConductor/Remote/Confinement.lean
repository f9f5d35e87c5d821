import NetConductor.Remote.Isolation

/-! The mode of a session: it is chosen by the request's URL, checked by the
server against the device, written into the offer, and read again where the
session is made. -/
namespace NetConductor
open Transition

variable {S : Type} {C : SDPCodec S}

/-- A write by request `b` of the given type. -/
def wrote (b : Nat) (type : String) (s : Option Nat × Message) : Bool :=
  s.1 = some b && s.2.type = type

/-- A session is made for one of the three modes, and for the desktop only where that is
shared. -/
theorem confined_remoteNew {cfg : RemoteConfig} {mode : String} {failure : Option String} {s : Access}
    (h : remoteNew cfg mode failure = .ok s) : Confined mode s := by
  unfold remoteNew at h
  split_ifs at h with hMode hDesktop
  cases failure with
  | some e => cases h
  | none =>
      cases h
      refine Access.confined_new ?_ fun hMode' => ?_
      · by_contra hNone
        exact hMode (by simpa only [not_or] using hNone)
      · by_contra hOff
        exact hDesktop ⟨hMode', by simpa using hOff⟩

/-! ### The server's side -/

namespace Browser

/-- An offer that is read and not yet written. -/
def pending (w : Browser) : Bool :=
  match w.phase with
  | .forwarding m => m.type = "offer"
  | _ => false

end Browser

namespace BrowserPhase

/-- All checks are passed. -/
def past : BrowserPhase → Bool
  | .answered _ | .looked => false
  | _ => true

/-- The loop has not begun. -/
def early : BrowserPhase → Bool
  | .answered _ | .looked | .admitted | .upgraded | .opened => true
  | _ => false

/-- The loop has ended. -/
def ended : BrowserPhase → Bool
  | .leaving | .unregistering | .ending | .closing | .done => true
  | _ => false

end BrowserPhase

/-- What the checks and the loop leave of a request. -/
structure Browser.Checked (C : SDPCodec S) (w : Browser) : Prop where
  panicked : w.panicked = false
  mode : (∀ r, w.phase ≠ .answered r) → w.mode = "desktop" → w.dev.os = "windows"
  agent : w.phase.past = true → w.id ≠ "cloud" → w.agent ≠ none
  early : w.phase.early = true → w.offered = false
  made : w.made ≠ [] → w.offered = true ∧ w.id = "cloud"
  one : w.made.length ≤ 1
  confined : ∀ s ∈ w.made, Confined w.mode s
  forwarding : ∀ m, w.phase = .forwarding m → w.id ≠ "cloud" ∧ w.offered = true ∧
    ((m.type = "offer" ∧ m.AsksFor C w.mode) ∨ m.type = "relay")
  serving : w.phase = .serving → w.offered = true → w.id = "cloud" → w.made ≠ []

namespace Hub

variable {h t : Hub} {l : HubLabel} {b n : Nat} {w w' : Browser}

theorem not_answered {p : BrowserPhase} (h : p.past = true) (r : Reply) : p ≠ .answered r := by
  rintro rfl
  cases h

/-- After the loop nothing is left to check. -/
theorem Checked.ends (hw : w.Checked C) (hPast : w.phase.past = true) {p : BrowserPhase}
    (hp : p.ended = true) (offered : Bool) (hOffered : w.offered = true → offered = true) :
    ({ w with offered := offered, phase := p } : Browser).Checked C where
  panicked := hw.panicked
  mode := fun _ => hw.mode (not_answered hPast)
  agent := fun _ => hw.agent hPast
  early := fun hEarly => by cases p <;> simp_all [BrowserPhase.ended, BrowserPhase.early]
  made := fun hMade => (hw.made hMade).imp_left hOffered
  one := hw.one
  confined := hw.confined
  forwarding := fun m hPhase => by
    obtain rfl : p = .forwarding m := hPhase
    cases hp
  serving := fun hPhase => by
    obtain rfl : p = .serving := hPhase
    cases hp

/-- What the checks have left of a request, its own steps leave. -/
theorem checked_moves (hw : w.Checked C) (hMoves : w.Moves C w') : w'.Checked C := by
  cases hMoves with
  | stays => exact hw
  | refused hPhase => exact Checked.ends hw (by rw [hPhase]; rfl) rfl w.offered id
  | left hPhase offered hOffered => exact Checked.ends hw (by rw [hPhase]; rfl) rfl offered hOffered
  | gaveUp hPhase => exact Checked.ends hw (by rw [hPhase]; rfl) rfl w.offered id
  | skipped hPhase => exact Checked.ends hw (by rw [hPhase]; rfl) rfl w.offered id
  | ending hPhase => exact Checked.ends hw (by rw [hPhase]; rfl) rfl w.offered id
  | closing hPhase => exact Checked.ends hw (by rw [hPhase]; rfl) rfl w.offered id
  | panics hPhase hAgent =>
      -- only a request for a device forwards, and it has an agent
      exact absurd hAgent (hw.agent (by rw [hPhase]; rfl) (hw.forwarding _ hPhase).1)
  | audited hPhase =>
      have hOffered := hw.early (by rw [hPhase]; rfl)
      exact { hw with
        mode := fun _ => hw.mode (by simp [hPhase])
        agent := fun _ => hw.agent (by rw [hPhase]; rfl)
        early := fun _ => hOffered
        forwarding := by simp
        serving := fun _ hOffered' => absurd hOffered' (by simp [hOffered]) }
  | makes hPhase hOffered hCloud hSession =>
      have hNone : w.made = [] := by
        by_contra hMade
        simp [(hw.made hMade).1] at hOffered
      exact { hw with
        early := fun hEarly => by simp [hPhase, BrowserPhase.early] at hEarly
        made := fun _ => ⟨rfl, hCloud⟩
        one := by simp [hNone]
        confined := fun s hs => by
          rw [hNone, List.nil_append, List.mem_singleton] at hs
          rw [hs]
          exact (confined_remoteNew hSession : Confined w.mode _)
        forwarding := fun m hForward => by simp [hPhase] at hForward
        serving := by simp }
  | offers hPhase hOffered hDevice hSID hType hMode =>
      exact { hw with
        mode := fun _ => hw.mode (by simp [hPhase])
        agent := fun _ => hw.agent (by rw [hPhase]; rfl)
        early := fun hEarly => by cases hEarly
        made := fun hMade => ⟨rfl, (hw.made hMade).2⟩
        forwarding := fun m' hForward => by
          cases hForward
          exact ⟨hDevice, rfl, .inl ⟨hType, hMode⟩⟩
        serving := by simp }
  | relays hPhase hOffered hNone hSID hType =>
      exact { hw with
        mode := fun _ => hw.mode (by simp [hPhase])
        agent := fun _ => hw.agent (by rw [hPhase]; rfl)
        early := fun hEarly => by cases hEarly
        forwarding := fun m' hForward => by
          cases hForward
          exact ⟨fun hCloud => hw.serving hPhase hOffered hCloud hNone, hOffered, .inr hType⟩
        serving := by simp }
  | handles t hSession =>
      exact { hw with
        made := fun hMade => hw.made (by simpa using hMade)
        one := by simpa using hw.one
        confined := fun s hs => by
          rcases List.mem_or_eq_of_mem_set hs with hOld | rfl
          · exact hw.confined s hOld
          · exact Access.confined_after (hw.confined _ (List.mem_of_getElem? hSession)) t
        serving := fun hPhase hOffered hCloud => by simpa using hw.serving hPhase hOffered hCloud }

/-- The steps of others leave what the checks have found of a request. -/
theorem checked_changes (hw : w.Checked C) (hChange : BrowserChanges C h b w w') :
    w'.Checked C := by
  cases hChange with
  | same => exact hw
  | moves hMoves => exact checked_moves hw hMoves
  | counted hPhase =>
      have hOffered := hw.early (by rw [hPhase]; rfl)
      rcases h.count_cases w with ⟨r, hCount⟩ | ⟨-, hAgent, hCount⟩
      · rw [hCount]
        exact { hw with
          mode := fun hNot => absurd rfl (hNot r)
          agent := fun hPast => by cases hPast
          early := fun _ => hOffered
          forwarding := by simp
          serving := by simp }
      · rw [hCount]
        exact { hw with
          mode := fun _ => hw.mode (by simp [hPhase])
          agent := fun _ => hAgent
          early := fun _ => hOffered
          forwarding := by simp
          serving := by simp }
  | upgraded hPhase =>
      exact { hw with
        mode := fun _ => hw.mode (by simp [hPhase])
        agent := fun _ => hw.agent (by rw [hPhase]; rfl)
        early := fun _ => hw.early (by rw [hPhase]; rfl)
        forwarding := by simp
        serving := by simp }
  | inserted hPhase =>
      exact { hw with
        mode := fun _ => hw.mode (by simp [hPhase])
        agent := fun _ => hw.agent (by rw [hPhase]; rfl)
        early := fun _ => hw.early (by rw [hPhase]; rfl)
        forwarding := by simp
        serving := by simp }
  | forwarded hPhase hAgent =>
      have hForward := hw.forwarding _ hPhase
      exact { hw with
        mode := fun _ => hw.mode (by simp [hPhase])
        agent := fun _ => hw.agent (by rw [hPhase]; rfl)
        early := fun hEarly => by cases hEarly
        forwarding := by simp
        serving := fun _ _ hCloud => absurd hCloud hForward.1 }
  | closed hPhase => exact Checked.ends hw (by rw [hPhase]; rfl) rfl w.offered id
  | removed hPhase => exact Checked.ends hw (by rw [hPhase]; rfl) rfl w.offered id

/-- A new browser has been checked. -/
theorem checked_new (hNew : NewBrowser h w) : w.Checked C := by
  obtain ⟨id, mode, rfl⟩ := hNew
  rcases h.openRequest_cases id mode with ⟨dev, r, hOpen⟩ | ⟨dev, -, -, hDesktop, hOpen⟩
  · rw [hOpen]
    constructor <;> simp [BrowserPhase.past]
  · rw [hOpen]
    refine ⟨rfl, fun _ => hDesktop, ?_, ?_, ?_, ?_, ?_, ?_, ?_⟩ <;> simp [BrowserPhase.past]

def AllChecked (C : SDPCodec S) (h : Hub) : Prop :=
  ∀ (b : Nat) (w : Browser), h.handlers[b]? = some w → w.Checked C

theorem allChecked_step (hInv : AllChecked C h) (hStep : Step C h l t) : AllChecked C t :=
  hStep.handlers.forall hInv (fun _ _ _ _ hw hChange => checked_changes hw hChange)
    fun _ _ hNew => checked_new hNew

end Hub

/-! ### Offers and relays on a connection -/

/-- The offer may have been written. -/
def Browser.spent (w : Browser) : Bool := w.offered && !w.pending

/-- The request is where it relays to a device. -/
def Browser.Engaged (w : Browser) : Prop :=
  w.offered = true ∧ w.id ≠ "cloud" ∧
    (w.phase = .serving ∨ ∃ m, w.phase = .forwarding m ∧ m.type = "relay")

/-- Every relay of request `b` has an offer of it before. -/
def RelaysAfterOffer (b : Nat) (sent : List (Option Nat × Message)) : Prop :=
  ∀ earlier s later, sent = earlier ++ s :: later → wrote b "relay" s = true →
    ∃ s' ∈ earlier, wrote b "offer" s' = true

/-- One more message keeps the order if an offer is there for it. -/
theorem RelaysAfterOffer.append {b : Nat} {sent : List (Option Nat × Message)}
    {s : Option Nat × Message} (h : RelaysAfterOffer b sent)
    (hs : wrote b "relay" s = true → ∃ s' ∈ sent, wrote b "offer" s' = true) :
    RelaysAfterOffer b (sent ++ [s]) := by
  intro earlier x later hSplit hRelay
  rcases List.eq_nil_or_concat later with rfl | ⟨rest, y, rfl⟩
  · obtain ⟨rfl, hx⟩ := List.append_inj' hSplit rfl
    cases hx
    exact hs hRelay
  · rw [List.concat_eq_append, ← List.cons_append, ← List.append_assoc] at hSplit
    exact h earlier x rest (List.append_inj' hSplit rfl).1 hRelay

theorem not_wrote_pong (b : Nat) (type : String) : wrote b type (none, pong) = false := by
  simp [wrote]

namespace Hub

variable {h t : Hub} {l : HubLabel} {b n : Nat} {w w' : Browser}

/-- A request writes one offer at most, with its own mode, and no relay before
it. -/
structure Offering (C : SDPCodec S) (h : Hub) : Prop where
  once : ∀ (b : Nat) (w : Browser) (n : Nat) (c : AgentConn), h.handlers[b]? = some w →
    h.conns[n]? = some c → c.sent.countP (wrote b "offer") ≤ w.spent.toNat
  asks : ∀ (b : Nat) (w : Browser) (n : Nat) (c : AgentConn), h.handlers[b]? = some w →
    h.conns[n]? = some c → ∀ s ∈ c.sent, wrote b "offer" s = true → s.2.AsksFor C w.mode
  first : ∀ (b : Nat) (w : Browser), h.handlers[b]? = some w → w.Engaged →
    ∃ n c, w.agent = some n ∧ h.conns[n]? = some c ∧ ∃ s ∈ c.sent, wrote b "offer" s = true
  order : ∀ (n : Nat) (c : AgentConn), h.conns[n]? = some c → ∀ b, RelaysAfterOffer b c.sent

/-- An offer that may have been written stays so. -/
theorem spent_changes (hw : w.Checked C) (hChange : BrowserChanges C h b w w') :
    w.spent.toNat ≤ w'.spent.toNat := by
  have hEarly : w.phase.early = true → w.spent.toNat ≤ w'.spent.toNat := fun hEarly => by
    simp [Browser.spent, hw.early hEarly]
  cases hChange with
  | same => exact Nat.le_refl _
  | moves hMoves =>
      cases hMoves with
      | refused hPhase => exact hEarly (by rw [hPhase]; rfl)
      | audited hPhase => exact hEarly (by rw [hPhase]; rfl)
      | makes hPhase hOffered => simp [Browser.spent, hOffered]
      | offers hPhase hOffered => simp [Browser.spent, hOffered]
      | left hPhase offered hOffered =>
          cases hOld : w.offered with
          | false => simp [Browser.spent, hOld]
          | true => simp [Browser.spent, Browser.pending, hOffered hOld, Bool.toNat_le]
      | relays hPhase hOffered hNone hSID hType =>
          simp [Browser.spent, Browser.pending, hOffered, hType, Bool.toNat_le]
      | handles => exact Nat.le_refl _
      | stays => exact Nat.le_refl _
      | _ hPhase => cases hOld : w.offered <;> simp [Browser.spent, Browser.pending, hOld, Bool.toNat_le]
  | counted hPhase => exact hEarly (by rw [hPhase]; rfl)
  | upgraded hPhase => exact hEarly (by rw [hPhase]; rfl)
  | inserted hPhase => exact hEarly (by rw [hPhase]; rfl)
  | _ => cases hOld : w.offered <;> simp [Browser.spent, Browser.pending, hOld, Bool.toNat_le]

/-- Only a loop that is engaged stays engaged, unless it has just written. -/
theorem engaged_changes (hw : w.Checked C) (hChange : BrowserChanges C h b w w')
    (hQuiet : ∀ m, w.phase = .forwarding m → w'.phase ≠ .serving) (hEngaged : w'.Engaged) :
    w.Engaged ∧ w'.agent = w.agent := by
  obtain ⟨hOffered, hDevice, hWhere⟩ := hEngaged
  cases hChange with
  | same => exact ⟨⟨hOffered, hDevice, hWhere⟩, rfl⟩
  | moves hMoves =>
      cases hMoves with
      | audited hPhase => simp [hw.early (by rw [hPhase]; rfl)] at hOffered
      | makes hPhase hOffered' hCloud => exact absurd hCloud hDevice
      | offers hPhase hOffered' hDevice' hSID hType => simp [hType] at hWhere
      | relays hPhase hOffered' => exact ⟨⟨hOffered', hDevice, .inl hPhase⟩, rfl⟩
      | handles => exact ⟨⟨hOffered, hDevice, hWhere⟩, rfl⟩
      | stays => exact ⟨⟨hOffered, hDevice, hWhere⟩, rfl⟩
      | _ => simp at hWhere
  | counted => rcases h.count_cases w with ⟨r, hCount⟩ | ⟨-, -, hCount⟩ <;> simp [hCount] at hWhere
  | forwarded hPhase => exact absurd rfl (hQuiet _ hPhase)
  | _ => simp at hWhere

/-- A request that is not there has written nothing. -/
theorem Addressed.not_wrote (hAddr : Addressed h) (hb : h.handlers[b]? = none) {c : AgentConn}
    (hc : h.conns[n]? = some c) {type : String} {s : Option Nat × Message} (hs : s ∈ c.sent) :
    wrote b type s = false := by
  by_contra hWrote
  obtain ⟨hSender, -⟩ : s.1 = some b ∧ s.2.type = type := by simpa [wrote] using hWrote
  obtain ⟨_, m⟩ := s
  cases hSender
  obtain ⟨w, hw, -⟩ := (hAddr.sent n c hc _ hs).1
  rw [hb] at hw
  cases hw

/-- A step that writes nothing changes nothing of offers and relays. -/
theorem Offering.quiet (hInv : Offering C h) (hAddr : Addressed h) (hChecked : AllChecked C h)
    (hQuiet : Quiet C h l t) : Offering C t where
  once := by
    intro b w' n c' hw' hc'
    rcases hQuiet.conns.before n c' hc' with ⟨c, hc, -, hSent⟩ | ⟨-, _, _, rfl⟩
    · have hCount : c'.sent.countP (wrote b "offer") = c.sent.countP (wrote b "offer") := by
        rcases hSent with hSent | hSent <;> simp [hSent, not_wrote_pong]
      rw [hCount]
      rcases hQuiet.handlers.before b w' hw' with ⟨w, hw, hChange, -⟩ | ⟨hNone, -⟩
      · exact Nat.le_trans (hInv.once b w n c hw hc) (spent_changes (hChecked b w hw) hChange)
      · rw [List.countP_eq_zero.mpr fun s hs => by simp [hAddr.not_wrote hNone hc hs]]
        exact Nat.zero_le _
    · simp
  asks := by
    intro b w' n c' hw' hc' s hs hWrote
    rcases hQuiet.conns.before n c' hc' with ⟨c, hc, -, hSent⟩ | ⟨-, _, _, rfl⟩
    · have hOld : s ∈ c.sent := by
        rcases hSent with hSent | hSent
        · rwa [hSent] at hs
        · rw [hSent] at hs
          rcases List.mem_append.mp hs with hOld | hNew
          · exact hOld
          · rw [List.mem_singleton.mp hNew, not_wrote_pong] at hWrote
            cases hWrote
      rcases hQuiet.handlers.before b w' hw' with ⟨w, hw, hChange, -⟩ | ⟨hNone, -⟩
      · rw [(fixed_changes (hAddr.placed b w hw) hChange).mode]
        exact hInv.asks b w n c hw hc s hOld hWrote
      · rw [hAddr.not_wrote hNone hc hOld] at hWrote
        cases hWrote
    · simp at hs
  first := by
    intro b w' hw' hEngaged
    rcases hQuiet.handlers.before b w' hw' with ⟨w, hw, hChange, hNot, -⟩ | ⟨-, hNew⟩
    · obtain ⟨hOld, hAgent⟩ := engaged_changes (hChecked b w hw) hChange hNot hEngaged
      obtain ⟨n, c, hn, hc, s, hs, hWrote⟩ := hInv.first b w hw hOld
      obtain ⟨c', hc', -, hSent⟩ := hQuiet.conns.later hc
      refine ⟨n, c', hAgent.trans hn, hc', s, ?_, hWrote⟩
      rcases hSent with hSent | hSent <;> rw [hSent]
      · exact hs
      · exact List.mem_append_left _ hs
    · rw [Browser.Engaged, (openRequest_new hNew).2.2.2.1] at hEngaged
      cases hEngaged.1
  order := by
    intro n c' hc' b
    rcases hQuiet.conns.before n c' hc' with ⟨c, hc, -, hSent | hSent⟩ | ⟨-, _, _, rfl⟩
    · rw [hSent]
      exact hInv.order n c hc b
    · rw [hSent]
      exact (hInv.order n c hc b).append fun hWrote => by simp [not_wrote_pong] at hWrote
    · intro earlier s later hSplit
      simp at hSplit

section Writing

variable {b₀ n₀ : Nat} {w₀ : Browser} {m : Message} {p : BrowserPhase}

theorem wrote_new {b : Nat} {type : String} :
    wrote b type (some b₀, m) = true ↔ b₀ = b ∧ m.type = type := by
  simp [wrote]

/-- A request that writes an offer has not written one, and has then. -/
theorem spent_writes (hWrites : Writes h t b₀ w₀ n₀ m p) (hw : w₀.Checked C) :
    (if m.type = "offer" then w₀.spent.toNat + 1 else w₀.spent.toNat) ≤
      ({ w₀ with phase := p } : Browser).spent.toNat := by
  rcases hWrites.phase with ⟨hPhase, rfl⟩ | ⟨hPhase, rfl, rfl⟩
  · have hOffered := (hw.forwarding m hPhase).2.1
    by_cases hType : m.type = "offer" <;> simp [Browser.spent, Browser.pending, hPhase, hType, hOffered]
  · simp [Browser.closeMessage, Browser.spent, Browser.pending, hPhase]

/-- The write counts, and it was the one offer. -/
theorem Offering.once_writes (hInv : Offering C h) (hChecked : AllChecked C h)
    (hWrites : Writes h t b₀ w₀ n₀ m p) {b n : Nat} {w : Browser} {c : AgentConn}
    (hw : t.handlers[b]? = some w) (hc : t.conns[n]? = some c) :
    c.sent.countP (wrote b "offer") ≤ w.spent.toNat := by
  have hNew : ∀ c' : AgentConn, h.conns[n]? = some c' →
      c'.sent.countP (wrote b "offer") +
        (if b₀ = b ∧ m.type = "offer" then 1 else 0) ≤ w.spent.toNat := by
    intro c' hc'
    rcases hWrites.handler hw with ⟨rfl, rfl⟩ | ⟨hb, hw⟩
    · have hOld := hInv.once b w₀ n c' hWrites.browser hc'
      have hSpent := spent_writes hWrites (hChecked b w₀ hWrites.browser)
      by_cases hType : m.type = "offer" <;> simp only [hType, and_self, if_true, if_false, and_false] at * <;>
        omega
    · rw [if_neg fun hBoth => hb hBoth.1.symm]
      exact hInv.once b w n c' hw hc'
  rcases hWrites.conn hc with ⟨-, c₀, hc₀, rfl⟩ | ⟨-, hc⟩
  · have hCount := hNew c₀ hc₀
    rw [List.countP_append, List.countP_singleton]
    simp only [wrote_new]
    exact hCount
  · exact Nat.le_trans (Nat.le_add_right _ _) (hNew c hc)

/-- An offer that is written asks for the mode of its request. -/
theorem Offering.asks_writes (hInv : Offering C h) (hChecked : AllChecked C h)
    (hWrites : Writes h t b₀ w₀ n₀ m p) {b n : Nat} {w : Browser} {c : AgentConn}
    (hw : t.handlers[b]? = some w) (hc : t.conns[n]? = some c) {s : Option Nat × Message}
    (hs : s ∈ c.sent) (hWrote : wrote b "offer" s = true) : s.2.AsksFor C w.mode := by
  have hMode : ∃ w', h.handlers[b]? = some w' ∧ w'.mode = w.mode := by
    rcases hWrites.handler hw with ⟨rfl, rfl⟩ | ⟨-, hw⟩
    · exact ⟨w₀, hWrites.browser, rfl⟩
    · exact ⟨w, hw, rfl⟩
  obtain ⟨w', hw', hMode⟩ := hMode
  rw [← hMode]
  rcases hWrites.conn hc with ⟨-, c₀, hc₀, rfl⟩ | ⟨-, hc⟩
  · rcases List.mem_append.mp hs with hOld | hNew
    · exact hInv.asks b w' n c₀ hw' hc₀ s hOld hWrote
    · rw [List.mem_singleton.mp hNew] at hWrote ⊢
      obtain ⟨rfl, hType⟩ := wrote_new.mp hWrote
      cases hw'.symm.trans hWrites.browser
      rcases hWrites.phase with ⟨hPhase, -⟩ | ⟨-, rfl, -⟩
      · rcases ((hChecked _ _ hw').forwarding m hPhase).2.2 with ⟨-, hAsks⟩ | hRelay
        · exact hAsks
        · rw [hRelay] at hType
          exact absurd hType (by decide)
      · exact absurd hType (show "close" ≠ "offer" by decide)
  · exact hInv.asks b w' n c hw' hc s hs hWrote

/-- Who is engaged has written the offer, now or before. -/
theorem Offering.first_writes (hInv : Offering C h) (hAddr : Addressed h) (hChecked : AllChecked C h)
    (hWrites : Writes h t b₀ w₀ n₀ m p) {b : Nat} {w : Browser} (hw : t.handlers[b]? = some w)
    (hEngaged : w.Engaged) :
    ∃ n c, w.agent = some n ∧ t.conns[n]? = some c ∧ ∃ s ∈ c.sent, wrote b "offer" s = true := by
  -- an offer that was there stays
  have hKept : ∀ (n : Nat) (c : AgentConn), h.conns[n]? = some c → (∃ s ∈ c.sent, wrote b "offer" s = true) →
      ∃ c' : AgentConn, t.conns[n]? = some c' ∧ ∃ s ∈ c'.sent, wrote b "offer" s = true := by
    rintro n c hc ⟨s, hs, hWrote⟩
    by_cases hn : n = n₀
    · subst hn
      exact ⟨_, hWrites.written hc, s, List.mem_append_left _ hs, hWrote⟩
    · refine ⟨c, ?_, s, hs, hWrote⟩
      rw [hWrites.conns, List.getElem?_modify_ne _ _ (Ne.symm hn)]
      exact hc
  have hOld : ∀ w' : Browser, h.handlers[b]? = some w' → w'.Engaged → w'.agent = w.agent →
      ∃ (n : Nat) (c : AgentConn), w.agent = some n ∧ t.conns[n]? = some c ∧
        ∃ s ∈ c.sent, wrote b "offer" s = true := by
    intro w' hw' hEngaged' hAgent
    obtain ⟨n, c, hn, hc, hSome⟩ := hInv.first b w' hw' hEngaged'
    obtain ⟨c', hc', hSome'⟩ := hKept n c hc hSome
    exact ⟨n, c', hAgent.symm.trans hn, hc', hSome'⟩
  rcases hWrites.handler hw with ⟨rfl, rfl⟩ | ⟨-, hw⟩
  · rcases hWrites.phase with ⟨hPhase, rfl⟩ | ⟨-, -, rfl⟩
    · have hForward := (hChecked _ _ hWrites.browser).forwarding m hPhase
      rcases hForward.2.2 with ⟨hOffer, -⟩ | hRelay
      · obtain ⟨c, hc, -⟩ := hAddr.bound _ _ hWrites.browser n₀ hWrites.agent
        exact ⟨n₀, _, hWrites.agent, hWrites.written hc, _, List.mem_append_right _ List.mem_cons_self,
          wrote_new.mpr ⟨rfl, hOffer⟩⟩
      · exact hOld w₀ hWrites.browser ⟨hForward.2.1, hForward.1, .inr ⟨m, hPhase, hRelay⟩⟩ rfl
    · simp [Browser.Engaged] at hEngaged
  · exact hOld w hw hEngaged rfl

/-- A relay is written after the offer of its request. -/
theorem Offering.order_writes (hInv : Offering C h) (hChecked : AllChecked C h)
    (hWrites : Writes h t b₀ w₀ n₀ m p) {n : Nat} {c : AgentConn} (hc : t.conns[n]? = some c)
    (b : Nat) : RelaysAfterOffer b c.sent := by
  rcases hWrites.conn hc with ⟨rfl, c₀, hc₀, rfl⟩ | ⟨-, hc⟩
  · refine (hInv.order n c₀ hc₀ b).append fun hWrote => ?_
    obtain ⟨rfl, hRelay⟩ := wrote_new.mp hWrote
    rcases hWrites.phase with ⟨hPhase, -⟩ | ⟨-, rfl, -⟩
    · have hForward := (hChecked _ _ hWrites.browser).forwarding m hPhase
      obtain ⟨k, c, hk, hc, hSome⟩ := hInv.first _ _ hWrites.browser
        ⟨hForward.2.1, hForward.1, .inr ⟨m, hPhase, hRelay⟩⟩
      cases hk.symm.trans hWrites.agent
      cases hc.symm.trans hc₀
      exact hSome
    · exact absurd hRelay (show "close" ≠ "relay" by decide)
  · exact hInv.order n c hc b

/-- A write to a connection offers what the browser was admitted for. -/
theorem Offering.writes (hInv : Offering C h) (hAddr : Addressed h) (hChecked : AllChecked C h)
    (hWrites : Writes h t b₀ w₀ n₀ m p) : Offering C t where
  once _ _ _ _ hw hc := hInv.once_writes hChecked hWrites hw hc
  asks _ _ _ _ hw hc _ hs hWrote := hInv.asks_writes hChecked hWrites hw hc hs hWrote
  first _ _ hw hEngaged := hInv.first_writes hAddr hChecked hWrites hw hEngaged
  order _ _ hc b := hInv.order_writes hChecked hWrites hc b

end Writing

/-- Every step keeps the offers to what was admitted. -/
theorem Offering.step (hInv : Offering C h) (hAddr : Addressed h) (hChecked : AllChecked C h)
    (hStep : Step C h l t) : Offering C t := by
  rcases hStep.writes with hQuiet | ⟨b, w, n, m, p, hWrites⟩
  · exact hInv.quiet hAddr hChecked hQuiet
  · exact hInv.writes hAddr hChecked hWrites

end Hub
/-! ### The device's side -/

/-- A message that asks for a session. -/
def isOffer (s : Option Nat × Message) : Bool := s.2.type = "offer"

/-- Sessions come from the offers read, one from each at most and in their
order, and keep to the mode the offer asks for. -/
structure AgentConn.Serves (C : SDPCodec S) (c : AgentConn) : Prop where
  created : (c.created.map Prod.fst).Sublist
    (((c.sent.take c.read).filter isOffer).map fun s => s.2.sid)
  modes : ∀ p ∈ c.created, ∃ s ∈ c.sent, isOffer s = true ∧ s.2.sid = p.1 ∧
    ∀ mode, s.2.AsksFor C mode → Confined mode p.2

namespace Hub

variable {h t : Hub} {l : HubLabel} {b n : Nat} {w w' : Browser} {c c' : AgentConn}

/-- What was sent does not change what a connection serves. -/
theorem serves_sent (hc : c.Serves C) (tail : List (Option Nat × Message)) :
    ({ c with sent := c.sent ++ tail } : AgentConn).Serves C where
  created := by
    refine hc.created.trans (List.Sublist.map _ (List.Sublist.filter _ ?_))
    simp only [List.take_append]
    exact List.sublist_append_left _ _
  modes := fun p hp => by
    obtain ⟨s, hs, hOffer⟩ := hc.modes p hp
    exact ⟨s, List.mem_append_left _ hs, hOffer⟩

/-- Reading a message makes one session at most, and that for an offer. -/
theorem serves_reads {b : Option Nat} {m : Message} {failure : Option String} (hc : c.Serves C)
    (hNext : c.sent[c.read]? = some (b, m)) :
    ({ c with read := c.read + 1 }.receive C m failure).Serves C := by
  have hTake : c.sent.take (c.read + 1) = c.sent.take c.read ++ [(b, m)] := by
    rw [List.take_add_one, hNext]
    rfl
  have hRead : ({ c with read := c.read + 1 } : AgentConn).Serves C := by
    refine ⟨?_, hc.modes⟩
    rw [hTake, List.filter_append, List.map_append]
    exact hc.created.trans (List.sublist_append_left _ _)
  rcases AgentConn.receive_cases C m failure { c with read := c.read + 1 } with ⟨-, hSame⟩ |
    ⟨hType, o, session, hRead', hNew, -, -, hOffer⟩ | ⟨-, hClose⟩
  · rw [hSame]
    exact hRead
  · rw [hOffer]
    have hIs : isOffer (b, m) = true := by simp [isOffer, hType]
    constructor
    · change ((c.created ++ [(m.sid, session)]).map Prod.fst).Sublist
        (((c.sent.take (c.read + 1)).filter isOffer).map fun s => s.2.sid)
      rw [hTake, List.filter_append, List.map_append, List.map_append, List.filter_cons_of_pos hIs]
      exact hc.created.append (List.Sublist.refl _)
    · intro p hp
      rcases List.mem_append.mp hp with hOld | hLast
      · exact hc.modes p hOld
      · rw [List.mem_singleton.mp hLast]
        refine ⟨(b, m), List.mem_of_getElem? hNext, hIs, rfl, fun mode hAsks => ?_⟩
        rw [← hAsks o hRead']
        exact confined_remoteNew hNew
  · rw [hClose]
    exact ⟨hRead.created, hRead.modes⟩

/-- The sessions of a device go on in the modes of their offers. -/
theorem serves_changes (hc : c.Serves C) (hChange : ConnChanges C h n c c') : c'.Serves C := by
  cases hChange with
  | same => exact hc
  | moves hMoves =>
      cases hMoves with
      | turns => exact ⟨hc.created, hc.modes⟩
      | reads failure hOpen hNext => exact serves_reads hc hNext
      | ends => exact ⟨hc.created, hc.modes⟩
      | @handles i s r hSession =>
          constructor
          · have hKeys : (c.created.set i (s.1, s.2.after r)).map Prod.fst = c.created.map Prod.fst :=
              Slots.map_set hSession rfl
            simp only [hKeys]
            exact hc.created
          · intro p hp
            rcases List.mem_or_eq_of_mem_set hp with hOld | rfl
            · exact hc.modes p hOld
            · obtain ⟨x, hx, hOffer, hSID, hMode⟩ := hc.modes s (List.mem_of_getElem? hSession)
              exact ⟨x, hx, hOffer, hSID, fun mode hAsks => Access.confined_after (hMode mode hAsks) r⟩
  | found => exact ⟨hc.created, hc.modes⟩
  | ponged => exact ⟨(serves_sent hc _).created, (serves_sent hc _).modes⟩
  | hears => exact serves_sent hc _

theorem serves_new (hNew : NewConn c) : c.Serves C := by
  obtain ⟨credentials, cfg, rfl⟩ := hNew
  constructor <;> simp

/-- All that holds of modes, sessions and offers. -/
structure Moded (C : SDPCodec S) (h : Hub) : Prop where
  addressed : Addressed h
  checked : AllChecked C h
  offering : Offering C h
  serves : ∀ (n : Nat) (c : AgentConn), h.conns[n]? = some c → c.Serves C

/-- A session keeps the mode that it was opened with. -/
theorem Moded.step (hInv : Moded C h) (hStep : Step C h l t) : Moded C t where
  addressed := hInv.addressed.step hStep
  checked := allChecked_step hInv.checked hStep
  offering := hInv.offering.step hInv.addressed hInv.checked hStep
  serves := hStep.conns.forall hInv.serves (fun _ _ _ _ hc hChange => serves_changes hc hChange)
    fun _ _ hNew => serves_new hNew

theorem moded_start (server : Server) : Moded C (start server) := by
  refine ⟨addressed_start server, ?_, ?_, ?_⟩
  · intro b w hw
    simp [start] at hw
  · constructor <;> simp [start]
  · intro n c hc
    simp [start] at hc

/-- The invariant in every reachable state. -/
theorem moded_reachable {allowed : Hub → HubLabel → Prop} (hReach : Reachable (system C allowed) h) :
    Moded C h := by
  refine hReach.invariant ?_ ?_
  · rintro s ⟨server, rfl⟩
    exact moded_start server
  · exact fun s l t hInv hStep => hInv.step (step_sound hStep.2)

/-- The sessions created for a request, in the server's process or on a device. -/
def sessionsOf (h : Hub) (w : Browser) : List Access :=
  w.made ++ h.conns.flatMap fun c => (c.created.filter fun p => w.sid = some p.1).map Prod.snd

/-- The offer that a session on a device comes from was written by its request,
to the connection the request captured. -/
theorem Moded.wrote_offer (hInv : Moded C h) (hw : h.handlers[b]? = some w)
    (hc : h.conns[n]? = some c) {s : Option Nat × Message} (hs : s ∈ c.sent)
    (hOffer : isOffer s = true) (hSID : w.sid = some s.2.sid) :
    wrote b "offer" s = true ∧ w.agent = some n ∧ w.id = c.device := by
  have hMay := hInv.addressed.sent n c hc s hs
  obtain ⟨_ | b', m⟩ := s
  · obtain rfl : m = pong := hMay
    cases hOffer
  · obtain ⟨⟨w', hw', hDevice, hSID'⟩, w₂, hw₂, hAgent⟩ := hMay
    obtain rfl := hInv.addressed.unique b b' w w' m.sid hw hw' hSID hSID'
    cases hw.symm.trans hw'
    cases hw.symm.trans hw₂
    exact ⟨by simpa [wrote, isOffer] using hOffer, hAgent, hDevice⟩

/-- All sessions on one connection that carry a request's id are at most one. -/
theorem Moded.one_on_conn (hInv : Moded C h) (hw : h.handlers[b]? = some w)
    (hc : h.conns[n]? = some c) :
    ((c.created.filter fun p => w.sid = some p.1).map Prod.snd).length ≤ 1 := by
  have hSent : (c.sent.take c.read).countP (fun s => w.sid = some s.2.sid && isOffer s) ≤
      (c.sent.take c.read).countP (wrote b "offer") := by
    refine List.countP_mono_left fun s hs hBoth => ?_
    obtain ⟨hSID, hOffer⟩ : w.sid = some s.2.sid ∧ isOffer s = true := by simpa using hBoth
    exact (hInv.wrote_offer hw hc (List.take_subset _ _ hs) hOffer hSID).1
  calc ((c.created.filter fun p => w.sid = some p.1).map Prod.snd).length
      = (c.created.map Prod.fst).countP fun sid => w.sid = some sid := by
        rw [List.length_map, List.countP_map, List.countP_eq_length_filter]
        rfl
    _ ≤ (((c.sent.take c.read).filter isOffer).map fun s => s.2.sid).countP fun sid => w.sid = some sid :=
        (hInv.serves n c hc).created.countP_le
    _ = (c.sent.take c.read).countP fun s => w.sid = some s.2.sid && isOffer s := by
        rw [List.countP_map, List.countP_filter]
        rfl
    _ ≤ (c.sent.take c.read).countP (wrote b "offer") := hSent
    _ ≤ c.sent.countP (wrote b "offer") := (List.take_sublist _ _).countP_le
    _ ≤ w.spent.toNat := hInv.offering.once b w n c hw hc
    _ ≤ 1 := Bool.toNat_le _

/-- Sessions with a request's id are on the connection it captured, and not on
any when the request is for the server itself. -/
theorem Moded.session_bound (hInv : Moded C h) (hw : h.handlers[b]? = some w)
    (hc : h.conns[n]? = some c) {p : String × Access} (hp : p ∈ c.created) (hSID : w.sid = some p.1) :
    w.agent = some n ∧ w.id ≠ "cloud" ∧ w.offered = true ∧ Confined w.mode p.2 := by
  obtain ⟨s, hs, hOffer, hSame, hMode⟩ := (hInv.serves n c hc).modes p hp
  obtain ⟨hWrote, hAgent, hDevice⟩ := hInv.wrote_offer hw hc hs hOffer (hSame ▸ hSID)
  refine ⟨hAgent, hDevice ▸ c.credentials.notCloud, ?_, ?_⟩
  · have hCount := hInv.offering.once b w n c hw hc
    have hPos : 0 < c.sent.countP (wrote b "offer") := List.countP_pos_iff.mpr ⟨s, hs, hWrote⟩
    cases hOffered : w.offered with
    | true => rfl
    | false =>
        simp only [Browser.spent, hOffered, Bool.false_and, Bool.toNat_false] at hCount
        omega
  · exact hMode w.mode (hInv.offering.asks b w n c hw hc s hs hWrote)

/-- A request has one session at most, at the hub or at a device. -/
theorem Moded.one_session (hInv : Moded C h) (hw : h.handlers[b]? = some w) :
    (h.sessionsOf w).length ≤ 1 := by
  have hSome : ∀ c : AgentConn, ((c.created.filter fun p => w.sid = some p.1).map Prod.snd) ≠ [] →
      ∃ p ∈ c.created, w.sid = some p.1 := by
    intro c hNonempty
    obtain ⟨p, hp⟩ := List.exists_mem_of_ne_nil _ (mt (List.map_eq_nil_iff.mpr) hNonempty)
    exact ⟨p, (List.mem_filter.mp hp).1, by simpa using (List.mem_filter.mp hp).2⟩
  unfold sessionsOf
  rw [List.length_append]
  by_cases hMade : w.made = []
  · rw [hMade, List.length_nil, Nat.zero_add]
    refine Slots.length_flatMap_le_one (fun n c hc => hInv.one_on_conn hw hc)
      fun i j c c' hc hc' hHas hHas' => ?_
    obtain ⟨p, hp, hSID⟩ := hSome c hHas
    obtain ⟨p', hp', hSID'⟩ := hSome c' hHas'
    have hAgent := (hInv.session_bound hw hc hp hSID).1
    rw [(hInv.session_bound hw hc' hp' hSID').1] at hAgent
    exact (Option.some.inj hAgent).symm
  · have hCloud := ((hInv.checked b w hw).made hMade).2
    have hEmpty : (h.conns.flatMap fun c =>
        (c.created.filter fun p => w.sid = some p.1).map Prod.snd) = [] := by
      refine List.flatMap_eq_nil_iff.mpr fun c hMem => ?_
      obtain ⟨n, hn⟩ := List.mem_iff_getElem?.mp hMem
      by_contra hHas
      obtain ⟨p, hp, hSID⟩ := hSome c hHas
      exact (hInv.session_bound hw hn hp hSID).2.1 hCloud
    rw [hEmpty]
    exact (hInv.checked b w hw).one

/-- Its session keeps to the mode that was checked, and was offered. -/
theorem Moded.confined (hInv : Moded C h) (hw : h.handlers[b]? = some w) {s : Access}
    (hs : s ∈ h.sessionsOf w) : Confined w.mode s ∧ w.offered = true := by
  rcases List.mem_append.mp hs with hMade | hConn
  · have hChecked := hInv.checked b w hw
    exact ⟨hChecked.confined s hMade, (hChecked.made (List.ne_nil_of_mem hMade)).1⟩
  · obtain ⟨c, hMem, hFilter⟩ := List.mem_flatMap.mp hConn
    obtain ⟨n, hn⟩ := List.mem_iff_getElem?.mp hMem
    obtain ⟨p, hp, rfl⟩ := List.mem_map.mp hFilter
    obtain ⟨hCreated, hSID⟩ := List.mem_filter.mp hp
    have hBound := hInv.session_bound hw hn hCreated (by simpa using hSID)
    exact ⟨hBound.2.2.2, hBound.2.2.1⟩

end Hub

/-- Whatever is sent to the server and to the sessions: a request has one session
at most, of the mode of its URL, which for a desktop was opened for a Windows
device, and which has done and opened nothing that its mode rules out; no relay
is written before an offer, and no nil pointer followed. -/
theorem modes_confined (C : SDPCodec S) {h : Hub} (hReach : Reachable (Hub.system C anyStep) h) :
    (∀ (b : Nat) (w : Browser), h.handlers[b]? = some w →
      w.panicked = false ∧ (h.sessionsOf w).length ≤ 1 ∧
        ∀ s ∈ h.sessionsOf w, s.mode = w.mode ∧ (s.mode = "desktop" → w.dev.os = "windows") ∧
          WithinMode s) ∧
    (∀ (n : Nat) (c : AgentConn), h.conns[n]? = some c → ∀ b, RelaysAfterOffer b c.sent) ∧
    ∀ (n : Nat) (c : AgentConn), h.conns[n]? = some c → ∀ p ∈ c.created,
      ∃ (b : Nat) (w : Browser), h.handlers[b]? = some w ∧ w.sid = some p.1 ∧ p.2 ∈ h.sessionsOf w := by
  have hInv := Hub.moded_reachable hReach
  refine ⟨fun b w hw => ⟨(hInv.checked b w hw).panicked, hInv.one_session hw, fun s hs => ?_⟩,
    hInv.offering.order, fun n c hc p hp => ?_⟩
  · obtain ⟨hConfined, hOffered⟩ := hInv.confined hw hs
    refine ⟨hConfined.same, fun hDesktop => ?_, hConfined.within⟩
    refine (hInv.checked b w hw).mode (fun r hAnswered => ?_) (hConfined.same.symm.trans hDesktop)
    have hEarly := (hInv.checked b w hw).early (by rw [hAnswered]; rfl)
    rw [hEarly] at hOffered
    cases hOffered
  · obtain ⟨⟨_ | b, m⟩, hs, hOffer, hSID, -⟩ := (hInv.serves n c hc).modes p hp
    · obtain rfl : m = pong := hInv.addressed.sent n c hc _ hs
      cases hOffer
    · obtain ⟨w, hw, -, hOwn⟩ := (hInv.addressed.sent n c hc _ hs).1
      have hName : w.sid = some p.1 := hOwn.trans (congrArg some hSID)
      refine ⟨b, w, hw, hName, ?_⟩
      refine List.mem_append_right _ (List.mem_flatMap.mpr ⟨c, List.mem_of_getElem? hc, ?_⟩)
      exact List.mem_map.mpr ⟨p, List.mem_filter.mpr ⟨hp, by simp [hName]⟩, rfl⟩

/-- A frame request of the desktop, answered. -/
def frameRequest : Outside × RemoteRequest :=
  (⟨.ok (), .ok (), .ok (), .ok (), .ok (.desktop "{}"), .ok (), .ok (), .ok (), .ok (), .ok (), .ok (),
    .ok (), .ok "/", .ok [], .ok (), .ok (), ([], none), (0, none), .ok (), .error .notExist, .ok (),
    .ok (), .ok (), "", ""⟩, ⟨"frame", "", "", "", 0, 0, 0⟩)

/-- A desktop session that is asked for a frame. -/
theorem desktop_confined :
    ∃ h w, Reachable (Hub.system textCodec anyStep) h ∧ h.handlers[0]? = some w ∧
      ((h.sessionsOf w).map fun s => (s.mode, s.acts)) = [("desktop", [.desktop "frame"])] ∧
      ∀ s ∈ h.sessionsOf w, s.mode = w.mode ∧ (s.mode = "desktop" → w.dev.os = "windows") ∧
        WithinMode s := by
  obtain ⟨h, hReach, hView⟩ := Hub.exists_reachable textCodec anyStep hubServer
    (connects 0 ++ opens 0 "desktop" "s" ++ offersDesktop 0 ++
      [.far 0 (.receive none), .far 0 (.handle 0 frameRequest)])
    (fun h => h.handlers[0]?.map fun w => (h.sessionsOf w).map fun s => (s.mode, s.acts))
    (some [("desktop", [.desktop "frame"])]) (by decide +kernel)
  obtain ⟨w, hw, hSessions⟩ := Option.map_eq_some_iff.mp hView
  exact ⟨h, w, hReach, hw, hSessions, ((modes_confined textCodec hReach).1 0 w hw).2.2⟩

end NetConductor
