import NetConductor.Agent.Sharing
import NetConductor.Semantics.Transition

/-! The shared listeners under all interleavings: requests and restores hold the
agent's lock, while the accept loops end at any time and wait for the lock to
clean up after themselves. -/
namespace NetConductor
open GoText GoNet Routine Transition

/-- Who has the agent's lock, and what it has left to do: a request with its
configuration to save, or a restore with the shares still to come and the
listener it has to enter in the table. -/
inductive OpHolder where
  | free
  | sharing (opened : OpenedShare)
  | restoring (c : SharingConfig) (rest : List SharedPort) (started : Option (Int × Nat))

structure SharingRun where
  sharing : Sharing
  op : OpHolder

inductive SharingLabel where
  | share (o : ShareOutcome) (body : Decoded ShareForm)
  | save (outcome : Except String Unit)
  | restore
  | skip
  | listen (p : SharedPort) (ok : Bool)
  | register
  | finish
  | acceptFails (ln : Nat)
  | close (ln : Nat)
  | cleanup (ln : Nat)
  | stop

namespace SharedListener

def fails (l : SharedListener) : SharedListener := { l with phase := .failed }

def closes (l : SharedListener) : SharedListener := { l with isOpen := false, phase := .waiting }

def ends (l : SharedListener) : SharedListener := { l with phase := .done }

end SharedListener

namespace Sharing

/-- The goroutine of a listener goes on from one phase. -/
def advance (ln : Nat) (phase : AcceptPhase) (f : SharedListener → SharedListener) (s : Sharing) :
    Option Sharing :=
  match s.listeners[ln]? with
  | none => none
  | some l => if l.phase = phase then some { s with listeners := s.listeners.modify ln f } else none

/-- The deferred function under the lock: it deletes its own listener only. -/
def remove (ln : Nat) (s : Sharing) : Sharing :=
  match s.listeners[ln]? with
  | none => s
  | some l => if s.shares.lookup l.port = some ln then { s with shares := s.shares.erase l.port } else s

end Sharing

namespace SharingRun

def step (w : SharingRun) : SharingLabel → Option SharingRun
  | .share o body =>
      match w.op with
      | .free =>
          match (Agent.openShare o body).outcome w.sharing with
          | (.ok (some opened), t) => some ⟨t, .sharing opened⟩
          | (_, t) => some ⟨t, .free⟩
      | _ => none
  | .save outcome =>
      match w.op with
      | .sharing opened => some ⟨((Agent.commitShare outcome opened).outcome w.sharing).2, .free⟩
      | _ => none
  | .restore =>
      match w.op with
      | .free => some { w with op := .restoring w.sharing.cfg w.sharing.cfg.shares none }
      | _ => none
  | .skip =>
      match w.op with
      | .restoring c (p :: rest) none =>
          if (w.sharing.shares.lookup p.listenPort).isSome then some { w with op := .restoring c rest none }
          else none
      | _ => none
  | .listen p ok =>
      match w.op with
      | .restoring c (q :: rest) none =>
          if q ≠ p ∨ (w.sharing.shares.lookup p.listenPort).isSome then none
          else if ok = false then some { w with op := .restoring c rest none }
          else (Agent.startShare true c p w.sharing).map fun started =>
            ⟨started.2, .restoring c rest (some (p.listenPort, started.1))⟩
      | _ => none
  | .register =>
      match w.op with
      | .restoring c rest (some (port, ln)) =>
          some ⟨{ w.sharing with shares := w.sharing.shares.insert port ln }, .restoring c rest none⟩
      | _ => none
  | .finish =>
      match w.op with
      | .restoring _ [] none => some { w with op := .free }
      | _ => none
  | .acceptFails ln => (w.sharing.advance ln .accepting .fails).map ({ w with sharing := · })
  | .close ln => (w.sharing.advance ln .failed .closes).map ({ w with sharing := · })
  | .cleanup ln =>
      match w.op with
      | .free =>
          (w.sharing.advance ln .waiting .ends).map fun s => { w with sharing := s.remove ln }
      | _ => none
  | .stop =>
      match w.op with
      | .free => some { w with sharing := (w.sharing.shares.entries.map (·.2)).foldr Sharing.close w.sharing }
      | _ => none

end SharingRun

/-- Every run of an agent that starts with shares from its file. -/
def sharingSystem : System SharingRun SharingLabel where
  initial w := ∃ c rules, w = ⟨⟨c, c, ∅, [], rules⟩, .free⟩
  step w l w' := w.step l = some w'

/-- The ports of the shares in a configuration. -/
def SharingConfig.ports (c : SharingConfig) : List Int := c.shares.map (·.listenPort)

/-- The listener that is open but not yet in the table, with its port. -/
def OpHolder.pending : OpHolder → Option (Int × Nat)
  | .free => none
  | .sharing opened => some (opened.share.listenPort, opened.listener)
  | .restoring _ _ started => started

/-- The holder works with the configuration as it is, on shares of it or on a
new one. -/
def OpHolder.Current (c : SharingConfig) : OpHolder → Prop
  | .free => True
  | .sharing opened => opened.cfg = c ∧ opened.share.listenPort ∉ c.ports
  | .restoring c' rest started =>
      c' = c ∧ (∀ p ∈ rest, p.listenPort ∈ c.ports) ∧ ∀ p ln, started = some (p, ln) → p ∈ c.ports

/-- The goroutine runs, or has its cleanup before it. -/
def SharedListener.Alive (l : SharedListener) : Prop := l.phase ≠ .done

/-- What happens to a listener until its cleanup. -/
structure Ages (l l' : SharedListener) : Prop where
  port : l'.port = l.port
  isOpen : l'.isOpen = true → l.isOpen = true
  alive : l.Alive → l'.Alive
  closed : l'.phase = .waiting ∨ l'.phase = .done → l'.isOpen = true → l.phase = .waiting ∨ l.phase = .done

theorem Ages.refl (l : SharedListener) : Ages l l := ⟨rfl, id, id, fun h _ => h⟩

theorem Ages.trans {l l' l'' : SharedListener} (h : Ages l l') (h' : Ages l' l'') : Ages l l'' where
  port := h'.port.trans h.port
  isOpen hOpen := h.isOpen (h'.isOpen hOpen)
  alive hAlive := h'.alive (h.alive hAlive)
  closed hPhase hOpen := h.closed (h'.closed hPhase hOpen) (h'.isOpen hOpen)

theorem ages_shut (l : SharedListener) : Ages l l.shut :=
  ⟨rfl, fun h => absurd h (by simp [SharedListener.shut]), id,
    fun _ h => absurd h (by simp [SharedListener.shut])⟩

theorem ages_fails (l : SharedListener) : Ages l l.fails :=
  ⟨rfl, id, fun _ => by simp [SharedListener.Alive, SharedListener.fails],
    fun h => by simp [SharedListener.fails] at h⟩

theorem ages_closes (l : SharedListener) : Ages l l.closes :=
  ⟨rfl, fun h => absurd h (by simp [SharedListener.closes]),
    fun _ => by simp [SharedListener.Alive, SharedListener.closes],
    fun _ h => absurd h (by simp [SharedListener.closes])⟩

/-- The same listeners, some of them further on. -/
structure Aged (ls ls' : List SharedListener) : Prop where
  before : ∀ (ln : Nat) l', ls'[ln]? = some l' → ∃ l, ls[ln]? = some l ∧ Ages l l'
  after : ∀ (ln : Nat) l, ls[ln]? = some l → ∃ l', ls'[ln]? = some l' ∧ Ages l l'

theorem Aged.refl (ls : List SharedListener) : Aged ls ls :=
  ⟨fun _ l h => ⟨l, h, .refl l⟩, fun _ l h => ⟨l, h, .refl l⟩⟩

/-- Growing older composes. -/
theorem Aged.trans {ls ls' ls'' : List SharedListener} (h : Aged ls ls') (h' : Aged ls' ls'') :
    Aged ls ls'' where
  before ln l'' hl'' := by
    obtain ⟨l', hl', hAges'⟩ := h'.before ln l'' hl''
    obtain ⟨l, hl, hAges⟩ := h.before ln l' hl'
    exact ⟨l, hl, hAges.trans hAges'⟩
  after ln l hl := by
    obtain ⟨l', hl', hAges⟩ := h.after ln l hl
    obtain ⟨l'', hl'', hAges'⟩ := h'.after ln l' hl'
    exact ⟨l'', hl'', hAges.trans hAges'⟩

/-- Listeners are never forgotten. -/
theorem Aged.length_le {ls ls' : List SharedListener} (h : Aged ls ls') : ls.length ≤ ls'.length := by
  by_contra hLess
  rw [not_le] at hLess
  obtain ⟨l', hl', -⟩ := h.after _ _ (List.getElem?_eq_getElem hLess)
  exact absurd (List.getElem?_eq_some_iff.mp hl').1 (lt_irrefl _)

/-- Changing one listener so that it ages makes the list older. -/
theorem aged_modify {f : SharedListener → SharedListener} (hf : ∀ l, Ages l (f l))
    (ls : List SharedListener) (ln : Nat) : Aged ls (ls.modify ln f) := by
  have hStep : ∀ i l, Ages l (if ln = i then f l else l) := by
    intro i l
    split
    · exact hf l
    · exact .refl l
  constructor
  · intro i l' hl'
    rw [List.getElem?_modify, Option.map_eq_map, Option.map_eq_some_iff] at hl'
    obtain ⟨l, hl, rfl⟩ := hl'
    exact ⟨l, hl, hStep i l⟩
  · intro i l hl
    rw [List.getElem?_modify, hl]
    exact ⟨_, rfl, hStep i l⟩

namespace Sharing

/-- A listener moves on from the phase that is asked for. -/
theorem advance_eq_some {s t : Sharing} {ln : Nat} {phase : AcceptPhase}
    {f : SharedListener → SharedListener} (h : s.advance ln phase f = some t) :
    (∃ l, s.listeners[ln]? = some l ∧ l.phase = phase) ∧
      t = { s with listeners := s.listeners.modify ln f } := by
  unfold advance at h
  split at h
  · cases h
  · next l hl =>
      rw [Option.ite_none_right_eq_some] at h
      exact ⟨⟨l, hl, h.1⟩, (Option.some.inj h.2).symm⟩

theorem aged_close (ln : Nat) (s : Sharing) : Aged s.listeners (s.close ln).listeners :=
  aged_modify ages_shut _ _

/-- `Close` on several listeners. -/
theorem closeAll_spec (lns : List Nat) (s : Sharing) :
    Aged s.listeners (lns.foldr close s).listeners ∧ (lns.foldr close s).shares = s.shares ∧
      (lns.foldr close s).cfg = s.cfg := by
  induction lns with
  | nil => exact ⟨.refl _, rfl, rfl⟩
  | cons ln rest ih => exact ⟨ih.1.trans (aged_close ln _), ih.2⟩

/-- Removing a listener frees its port, provided that the port is still its own. -/
theorem lookup_remove {s : Sharing} {ln : Nat} {l : SharedListener} (hl : s.listeners[ln]? = some l)
    (p : Int) : (s.remove ln).shares.lookup p =
      if p = l.port ∧ s.shares.lookup l.port = some ln then none else s.shares.lookup p := by
  simp only [remove, hl]
  by_cases hOwn : s.shares.lookup l.port = some ln
  · rw [if_pos hOwn, Tables.lookup_erase_eq]
    simp only [hOwn, and_true]
  · rw [if_neg hOwn]
    simp only [hOwn, and_false, if_false]

theorem remove_listeners (s : Sharing) (ln : Nat) : (s.remove ln).listeners = s.listeners := by
  unfold remove
  split
  · rfl
  · split <;> rfl

theorem remove_cfg (s : Sharing) (ln : Nat) : (s.remove ln).cfg = s.cfg := by
  unfold remove
  split
  · rfl
  · split <;> rfl

end Sharing

namespace SharingRun

/-- The table and the listeners belong together. -/
structure Tracked (w : SharingRun) : Prop where
  entry : ∀ p ln, w.sharing.shares.lookup p = some ln →
    p ∈ w.sharing.cfg.ports ∧ ∃ l, w.sharing.listeners[ln]? = some l ∧ l.port = p ∧ l.Alive
  pending : ∀ p ln, w.op.pending = some (p, ln) → w.sharing.shares.lookup p = none ∧
    ∃ l, w.sharing.listeners[ln]? = some l ∧ l.port = p ∧ l.Alive
  opened : ∀ (ln : Nat) l, w.sharing.listeners[ln]? = some l → l.isOpen = true →
    w.sharing.shares.lookup l.port = some ln ∨ w.op.pending = some (l.port, ln)
  closed : ∀ (ln : Nat) l, w.sharing.listeners[ln]? = some l → l.phase = .waiting ∨ l.phase = .done →
    l.isOpen = false
  holder : w.op.Current w.sharing.cfg

variable {w w' : SharingRun}

/-- What a step can do to table and listeners: let listeners fail or close them,
open one, enter the one that was opened or close it, and clean up after one. -/
inductive Change (w : SharingRun) : SharingRun → Prop where
  | ages {s : Sharing} {op : OpHolder} (hAged : Aged w.sharing.listeners s.listeners)
      (hShares : s.shares = w.sharing.shares) (hCfg : s.cfg = w.sharing.cfg)
      (hPending : op.pending = w.op.pending) (hCurrent : op.Current w.sharing.cfg) : Change w ⟨s, op⟩
  | opens {c : SharingConfig} {p : SharedPort} {rules : List FirewallRule} {op : OpHolder}
      (hFree : w.op.pending = none) (hNone : w.sharing.shares.lookup p.listenPort = none)
      (hPending : op.pending = some (p.listenPort, w.sharing.listeners.length))
      (hCurrent : op.Current w.sharing.cfg) :
      Change w ⟨Agent.withListener c p { w.sharing with rules := rules }, op⟩
  | registers {p : Int} {ln : Nat} {s : Sharing} {op : OpHolder} (hPending : w.op.pending = some (p, ln))
      (hListeners : s.listeners = w.sharing.listeners)
      (hShares : s.shares = w.sharing.shares.insert p ln)
      (hPorts : ∀ q, q ∈ w.sharing.cfg.ports ∨ q = p → q ∈ s.cfg.ports) (hDone : op.pending = none)
      (hCurrent : op.Current s.cfg) : Change w ⟨s, op⟩
  | drops {p : Int} {ln : Nat} (hPending : w.op.pending = some (p, ln)) :
      Change w ⟨w.sharing.close ln, .free⟩
  | cleans {ln : Nat} {l : SharedListener} (hFree : w.op = .free)
      (hListener : w.sharing.listeners[ln]? = some l) (hPhase : l.phase = .waiting) :
      Change w { w with sharing := Sharing.remove ln { w.sharing with
        listeners := w.sharing.listeners.modify ln .ends } }

/-- Listeners may fail, and be closed, at any time. -/
theorem Tracked.aged (h : w.Tracked) {s : Sharing} (hAged : Aged w.sharing.listeners s.listeners)
    (hShares : s.shares = w.sharing.shares) (hCfg : s.cfg = w.sharing.cfg) :
    Tracked { w with sharing := s } where
  entry p ln hp := by
    obtain ⟨hPort, l, hl, hlp, hAlive⟩ := h.entry p ln (hShares ▸ hp)
    obtain ⟨l', hl', hAges⟩ := hAged.after ln l hl
    exact ⟨hCfg ▸ hPort, l', hl', hAges.port.trans hlp, hAges.alive hAlive⟩
  pending p ln hp := by
    obtain ⟨hNone, l, hl, hlp, hAlive⟩ := h.pending p ln hp
    obtain ⟨l', hl', hAges⟩ := hAged.after ln l hl
    exact ⟨hShares ▸ hNone, l', hl', hAges.port.trans hlp, hAges.alive hAlive⟩
  opened ln l' hl' hOpen := by
    obtain ⟨l, hl, hAges⟩ := hAged.before ln l' hl'
    have hOld := h.opened ln l hl (hAges.isOpen hOpen)
    rw [← hAges.port, ← hShares] at hOld
    exact hOld
  closed ln l' hl' hPhase := by
    obtain ⟨l, hl, hAges⟩ := hAged.before ln l' hl'
    by_contra hOpen
    rw [Bool.not_eq_false] at hOpen
    have hClosed := h.closed ln l hl (hAges.closed hPhase hOpen)
    rw [hAges.isOpen hOpen] at hClosed
    cases hClosed
  holder := by
    change w.op.Current s.cfg
    rw [hCfg]
    exact h.holder

/-- The holder goes on, with the same listener to enter. -/
theorem Tracked.goesOn (h : w.Tracked) {op : OpHolder} (hPending : op.pending = w.op.pending)
    (hCurrent : op.Current w.sharing.cfg) : Tracked ⟨w.sharing, op⟩ where
  entry := h.entry
  pending p ln hp := h.pending p ln (hPending ▸ hp)
  opened ln l hl hOpen := hPending ▸ h.opened ln l hl hOpen
  closed := h.closed
  holder := hCurrent

/-- A new listener, for a port that has none in the table. -/
theorem Tracked.opens (h : w.Tracked) (hFree : w.op.pending = none) {c : SharingConfig} {p : SharedPort}
    (hNone : w.sharing.shares.lookup p.listenPort = none) {op : OpHolder}
    (hPending : op.pending = some (p.listenPort, w.sharing.listeners.length))
    (hCurrent : op.Current w.sharing.cfg) : Tracked ⟨Agent.withListener c p w.sharing, op⟩ := by
  have hOld : ∀ ln l, w.sharing.listeners[ln]? = some l →
      (Agent.withListener c p w.sharing).listeners[ln]? = some l :=
    fun ln l hl => (List.getElem?_append_left (List.getElem?_eq_some_iff.mp hl).1).trans hl
  have hNew : (Agent.withListener c p w.sharing).listeners[w.sharing.listeners.length]? =
      some ⟨hostPort c.ip p.listenPort, p.listenPort, true, .accepting⟩ := List.getElem?_concat_length
  have hEach : ∀ ln l, (Agent.withListener c p w.sharing).listeners[ln]? = some l →
      w.sharing.listeners[ln]? = some l ∨
        ln = w.sharing.listeners.length ∧ l.port = p.listenPort ∧ l.phase = .accepting := by
    intro ln l hl
    rcases Nat.lt_trichotomy ln w.sharing.listeners.length with hLess | rfl | hMore
    · exact .inl ((List.getElem?_append_left hLess).symm.trans hl)
    · cases hNew.symm.trans hl
      exact .inr ⟨rfl, rfl, rfl⟩
    · have hLength := (List.getElem?_eq_some_iff.mp hl).1
      simp only [Agent.withListener, List.length_append, List.length_singleton] at hLength
      omega
  refine ⟨fun q ln hq => ?_, fun q ln hq => ?_, fun ln l hl hOpen => ?_, fun ln l hl hPhase => ?_, hCurrent⟩
  · obtain ⟨hPort, l, hl, hRest⟩ := h.entry q ln hq
    exact ⟨hPort, l, hOld ln l hl, hRest⟩
  · cases hPending.symm.trans hq
    exact ⟨hNone, _, hNew, rfl, by simp [SharedListener.Alive]⟩
  · rcases hEach ln l hl with hl' | ⟨rfl, hPort, -⟩
    · have hTable := h.opened ln l hl' hOpen
      rw [hFree] at hTable
      exact hTable.imp_right (by simp)
    · exact .inr (hPort ▸ hPending)
  · rcases hEach ln l hl with hl' | ⟨-, -, hAccepting⟩
    · exact h.closed ln l hl' hPhase
    · rw [hAccepting] at hPhase
      simp at hPhase

/-- The listener that was to be entered is entered. -/
theorem Tracked.registers (h : w.Tracked) {p : Int} {ln : Nat} (hPending : w.op.pending = some (p, ln))
    {s : Sharing} (hListeners : s.listeners = w.sharing.listeners)
    (hShares : s.shares = w.sharing.shares.insert p ln)
    (hPorts : ∀ q, q ∈ w.sharing.cfg.ports ∨ q = p → q ∈ s.cfg.ports) {op : OpHolder}
    (hDone : op.pending = none) (hCurrent : op.Current s.cfg) : Tracked ⟨s, op⟩ := by
  have hLookup : ∀ q, s.shares.lookup q = if q = p then some ln else w.sharing.shares.lookup q :=
    fun q => by rw [hShares, Tables.lookup_insert_eq]
  refine ⟨fun q ln' hq => ?_, fun q ln' hq => ?_, fun ln' l hl hOpen => ?_, fun ln' l hl => ?_, hCurrent⟩
  · change s.shares.lookup q = some ln' at hq
    rw [hLookup] at hq
    change q ∈ s.cfg.ports ∧ ∃ l, s.listeners[ln']? = some l ∧ _
    rw [hListeners]
    split_ifs at hq with hPort
    · cases hq
      obtain ⟨-, hAlive⟩ := h.pending p ln hPending
      exact ⟨hPorts q (.inr hPort), hPort ▸ hAlive⟩
    · obtain ⟨hOld, hAlive⟩ := h.entry q ln' hq
      exact ⟨hPorts q (.inl hOld), hAlive⟩
  · cases hDone.symm.trans hq
  · have hOld := h.opened ln' l (hListeners ▸ hl) hOpen
    change s.shares.lookup l.port = some ln' ∨ _
    rw [hLookup]
    split_ifs with hPort
    · rw [hPort, (h.pending p ln hPending).1, hPending] at hOld
      exact .inl (by simpa using hOld)
    · rw [hPending] at hOld
      refine .inl (hOld.resolve_right fun hSame => hPort ?_)
      simpa using (congrArg Prod.fst (Option.some.inj hSame)).symm
  · exact h.closed ln' l (hListeners ▸ hl)

/-- The listener that was to be entered is closed instead. -/
theorem Tracked.drops (h : w.Tracked) {p : Int} {ln : Nat} (hPending : w.op.pending = some (p, ln)) :
    Tracked ⟨w.sharing.close ln, .free⟩ := by
  have hAged : Tracked ⟨w.sharing.close ln, w.op⟩ := h.aged (Sharing.aged_close ln _) rfl rfl
  refine ⟨hAged.entry, fun q ln' hq => (by cases hq), fun ln' l hl hOpen => ?_, hAged.closed, trivial⟩
  refine (hAged.opened ln' l hl hOpen).imp_right fun hSame => ?_
  cases hPending.symm.trans hSame
  change (w.sharing.listeners.modify ln _)[ln]? = some l at hl
  rw [List.getElem?_modify_eq, Option.map_eq_map, Option.map_eq_some_iff] at hl
  obtain ⟨l', -, rfl⟩ := hl
  cases hOpen

/-- The clean-up of an accept loop closes its own listener, and takes its entry out only
if that is still the one registered. -/
theorem Tracked.cleanup (h : w.Tracked) (hFree : w.op = .free) {ln : Nat} {l : SharedListener}
    (hl : w.sharing.listeners[ln]? = some l) (hPhase : l.phase = .waiting) :
    Tracked { w with sharing := Sharing.remove ln { w.sharing with
      listeners := w.sharing.listeners.modify ln .ends } } := by
  set s : Sharing := { w.sharing with
    listeners := w.sharing.listeners.modify ln .ends } with hs
  have hDone : s.listeners[ln]? = some l.ends := by
    simp [hs, List.getElem?_modify_eq, hl]
  have hOther : ∀ ln', ln' ≠ ln → s.listeners[ln']? = w.sharing.listeners[ln']? :=
    fun ln' hNe => List.getElem?_modify_ne _ _ (Ne.symm hNe)
  have hLookup : ∀ q, (s.remove ln).shares.lookup q =
      if q = l.port ∧ w.sharing.shares.lookup l.port = some ln then none
      else w.sharing.shares.lookup q := fun q => Sharing.lookup_remove hDone q
  have hListeners := Sharing.remove_listeners s ln
  refine ⟨fun q ln' hq => ?_, fun q ln' hq => ?_, fun ln' l' hl' hOpen => ?_, fun ln' l' hl' hAt => ?_, ?_⟩
  · change (s.remove ln).shares.lookup q = some ln' at hq
    rw [hLookup, Option.ite_none_left_eq_some] at hq
    obtain ⟨hPort, l', hl', hRest⟩ := h.entry q ln' hq.2
    have hNe : ln' ≠ ln := by
      rintro rfl
      cases hl.symm.trans hl'
      exact hq.1 ⟨hRest.1.symm, hRest.1 ▸ hq.2⟩
    refine ⟨?_, l', ?_, hRest⟩
    · change q ∈ (s.remove ln).cfg.ports
      rwa [Sharing.remove_cfg]
    · change (s.remove ln).listeners[ln']? = some l'
      rw [hListeners, hOther ln' hNe, hl']
  · rw [show OpHolder.pending _ = none from congrArg OpHolder.pending hFree] at hq
    cases hq
  · change (s.remove ln).listeners[ln']? = some l' at hl'
    rw [hListeners] at hl'
    by_cases hSame : ln' = ln
    · subst hSame
      cases hDone.symm.trans hl'
      have hClosed : l.ends.isOpen = false := h.closed _ l hl (.inl hPhase)
      rw [hClosed] at hOpen
      cases hOpen
    · rw [hOther ln' hSame] at hl'
      refine (h.opened ln' l' hl' hOpen).imp_left fun hEntry => ?_
      change (s.remove ln).shares.lookup l'.port = some ln'
      rw [hLookup, if_neg, hEntry]
      rintro ⟨hPort, hOwn⟩
      rw [← hPort, hEntry] at hOwn
      exact hSame (Option.some.inj hOwn)
  · change (s.remove ln).listeners[ln']? = some l' at hl'
    rw [hListeners] at hl'
    by_cases hSame : ln' = ln
    · subst hSame
      cases hDone.symm.trans hl'
      exact h.closed _ l hl (.inl hPhase)
    · exact h.closed ln' l' (hOther ln' hSame ▸ hl') hAt
  · change w.op.Current (s.remove ln).cfg
    rw [hFree]
    trivial

theorem OpHolder.current_restoring {c c' : SharingConfig} {rest : List SharedPort} (hCfg : c' = c)
    (hRest : ∀ p ∈ rest, p.listenPort ∈ c.ports) : OpHolder.Current c (.restoring c' rest none) :=
  ⟨hCfg, hRest, fun _ _ hStarted => by cases hStarted⟩

/-! ### What each action can do -/

/-- A request to share is refused as it is, or it puts rule and listener in place and
goes on to save. -/
theorem step_share {o : ShareOutcome} {body : Decoded ShareForm} (h : w.step (.share o body) = some w') :
    w.op = .free ∧
      ((∃ p hub, p.listenPort ∉ w.sharing.cfg.ports ∧
        w' = ⟨Agent.withListener w.sharing.cfg p (Agent.withRule w.sharing.cfg hub p w.sharing),
          .sharing ⟨w.sharing.cfg, p, w.sharing.listeners.length⟩⟩) ∨
      ∃ t : Sharing, t.cfg = w.sharing.cfg ∧ t.shares = w.sharing.shares ∧
        t.listeners = w.sharing.listeners ∧ w' = ⟨t, .free⟩) := by
  simp only [SharingRun.step] at h
  split at h
  · next hFree =>
      refine ⟨hFree, ?_⟩
      rcases Agent.openShare_cases o body w.sharing with
        ⟨p, hub, hCheck, -, hOpen⟩ | ⟨r, t, hOpen, hNone, ⟨hCfg, hShares, hListeners⟩, -⟩
      · rw [hOpen] at h
        cases h
        refine .inl ⟨p, hub, fun hPort => ?_, rfl⟩
        obtain ⟨x, hx, hSame⟩ := List.mem_map.mp hPort
        exact (Agent.checkShare_some hCheck).2.1 x hx hSame
      · rw [hOpen] at h
        refine .inr ⟨t, hCfg, hShares, hListeners, ?_⟩
        rcases hNone with rfl | ⟨e, rfl⟩
        · exact (Option.some.inj h).symm
        · exact (Option.some.inj h).symm
  · cases h

/-- A share is committed as its save tells. -/
theorem step_save {outcome : Except String Unit} (h : w.step (.save outcome) = some w') :
    ∃ opened, w.op = .sharing opened ∧
      w' = ⟨((Agent.commitShare outcome opened).outcome w.sharing).2, .free⟩ := by
  simp only [SharingRun.step] at h
  split at h
  · next opened hOp =>
      cases h
      exact ⟨opened, hOp, rfl⟩
  · cases h

/-- The shares of the settings are restored under the lock. -/
theorem step_restore (h : w.step .restore = some w') :
    w.op = .free ∧ w' = ⟨w.sharing, .restoring w.sharing.cfg w.sharing.cfg.shares none⟩ := by
  simp only [SharingRun.step] at h
  split at h
  · next hFree =>
      cases h
      exact ⟨hFree, rfl⟩
  · cases h

/-- A restored port that is shared already is left alone. -/
theorem step_skip (h : w.step .skip = some w') :
    ∃ c p rest, w.op = .restoring c (p :: rest) none ∧ w.sharing.shares.lookup p.listenPort ≠ none ∧
      w' = ⟨w.sharing, .restoring c rest none⟩ := by
  simp only [SharingRun.step] at h
  split at h
  · next c p rest hOp =>
      rw [Option.ite_none_right_eq_some] at h
      obtain ⟨hSome, hSame⟩ := h
      exact ⟨c, p, rest, hOp, Option.isSome_iff_ne_none.mp hSome, (Option.some.inj hSame).symm⟩
  · cases h

/-- A restored port is listened on, or it is passed over. -/
theorem step_listen {p : SharedPort} {ok : Bool} (h : w.step (.listen p ok) = some w') :
    ∃ c rest, w.op = .restoring c (p :: rest) none ∧ w.sharing.shares.lookup p.listenPort = none ∧
      (ok = false ∧ w' = ⟨w.sharing, .restoring c rest none⟩ ∨
        w' = ⟨Agent.withListener c p w.sharing,
          .restoring c rest (some (p.listenPort, w.sharing.listeners.length))⟩) := by
  simp only [SharingRun.step] at h
  split at h
  · next c q rest hOp =>
      split_ifs at h with hSkip hRefused
      · rw [not_or, not_not] at hSkip
        obtain ⟨rfl, hNone⟩ := hSkip
        exact ⟨c, rest, hOp, by simpa using hNone, .inl ⟨hRefused, (Option.some.inj h).symm⟩⟩
      · rw [not_or, not_not] at hSkip
        obtain ⟨rfl, hNone⟩ := hSkip
        obtain ⟨⟨ln, t⟩, hStart, rfl⟩ := Option.map_eq_some_iff.mp h
        obtain ⟨-, -, rfl, rfl⟩ := Agent.startShare_eq_some.mp hStart
        exact ⟨c, rest, hOp, by simpa using hNone, .inr rfl⟩
  · cases h

/-- A restored listener is registered under its port. -/
theorem step_register (h : w.step .register = some w') :
    ∃ c rest p ln, w.op = .restoring c rest (some (p, ln)) ∧
      w' = ⟨{ w.sharing with shares := w.sharing.shares.insert p ln }, .restoring c rest none⟩ := by
  simp only [SharingRun.step] at h
  split at h
  · next c rest p ln hOp =>
      cases h
      exact ⟨c, rest, p, ln, hOp, rfl⟩
  · cases h

/-- A restore ends when no share is left. -/
theorem step_finish (h : w.step .finish = some w') :
    (∃ c, w.op = .restoring c [] none) ∧ w' = ⟨w.sharing, .free⟩ := by
  simp only [SharingRun.step] at h
  split at h
  · next c hOp =>
      cases h
      exact ⟨⟨c, hOp⟩, rfl⟩
  · cases h

/-- An accept loop fails, or its listener is closed. -/
theorem step_goroutine {ln : Nat} (h : w.step (.acceptFails ln) = some w' ∨ w.step (.close ln) = some w') :
    ∃ s, Aged w.sharing.listeners s.listeners ∧ s.shares = w.sharing.shares ∧ s.cfg = w.sharing.cfg ∧
      w' = ⟨s, w.op⟩ := by
  rcases h with h | h
  · obtain ⟨s, hs, rfl⟩ := Option.map_eq_some_iff.mp h
    obtain ⟨-, rfl⟩ := Sharing.advance_eq_some hs
    exact ⟨{ w.sharing with listeners := w.sharing.listeners.modify ln .fails }, aged_modify ages_fails _ _,
      rfl, rfl, rfl⟩
  · obtain ⟨s, hs, rfl⟩ := Option.map_eq_some_iff.mp h
    obtain ⟨-, rfl⟩ := Sharing.advance_eq_some hs
    exact ⟨{ w.sharing with listeners := w.sharing.listeners.modify ln .closes }, aged_modify ages_closes _ _,
      rfl, rfl, rfl⟩

/-- The clean-up comes when the operation lock is free. -/
theorem step_cleanup {ln : Nat} (h : w.step (.cleanup ln) = some w') :
    w.op = .free ∧ ∃ l, w.sharing.listeners[ln]? = some l ∧ l.phase = .waiting ∧
      w' = { w with sharing := Sharing.remove ln { w.sharing with
        listeners := w.sharing.listeners.modify ln .ends } } := by
  simp only [SharingRun.step] at h
  split at h
  · next hFree =>
      obtain ⟨s, hs, rfl⟩ := Option.map_eq_some_iff.mp h
      obtain ⟨⟨l, hl, hPhase⟩, rfl⟩ := Sharing.advance_eq_some hs
      exact ⟨hFree, l, hl, hPhase, rfl⟩
  · cases h

/-- A stop needs the lock. -/
theorem step_stop (h : w.step .stop = some w') :
    w.op = .free ∧
      w' = { w with sharing := (w.sharing.shares.entries.map (·.2)).foldr Sharing.close w.sharing } := by
  simp only [SharingRun.step] at h
  split at h
  · next hFree =>
      cases h
      exact ⟨hFree, rfl⟩
  · cases h

/-- What a step can change, by its label. -/
theorem Tracked.changes (h : w.Tracked) {l : SharingLabel} (hStep : w.step l = some w') :
    Change w w' := by
  have hIdle : w.op = .free → w.op.pending = none := fun hFree => by rw [hFree]; rfl
  cases l with
  | share o body =>
      obtain ⟨hFree, ⟨p, hub, hNew, rfl⟩ | ⟨t, hCfg, hShares, hListeners, rfl⟩⟩ := step_share hStep
      · refine .opens (hIdle hFree) ?_ rfl ⟨rfl, hNew⟩
        by_contra hLookup
        obtain ⟨ln, hln⟩ := Option.ne_none_iff_exists'.mp hLookup
        exact hNew (h.entry _ _ hln).1
      · exact .ages (hListeners ▸ .refl _) hShares hCfg (hIdle hFree).symm trivial
  | save outcome =>
      obtain ⟨opened, hOp, rfl⟩ := step_save hStep
      have hPending : w.op.pending = some (opened.share.listenPort, opened.listener) := by rw [hOp]; rfl
      obtain ⟨hCfg, -⟩ : OpHolder.Current _ (.sharing opened) := hOp ▸ h.holder
      rcases outcome with e | ⟨⟩
      · exact .drops hPending
      · have hFree : OpHolder.Current
            ((Agent.commitShare (.ok ()) opened).outcome w.sharing).2.cfg .free := trivial
        refine .registers (s := ((Agent.commitShare (.ok ()) opened).outcome w.sharing).2)
          hPending rfl rfl ?_ rfl hFree
        intro q hq
        simpa [SharingConfig.ports, Agent.commitShare, hCfg] using hq
  | restore =>
      obtain ⟨hFree, rfl⟩ := step_restore hStep
      exact .ages (.refl _) rfl rfl (hIdle hFree).symm
        (OpHolder.current_restoring rfl fun p hp => List.mem_map_of_mem hp)
  | skip =>
      obtain ⟨c, p, rest, hOp, -, rfl⟩ := step_skip hStep
      obtain ⟨hCfg, hRest, -⟩ : OpHolder.Current _ (.restoring c (p :: rest) none) := hOp ▸ h.holder
      exact .ages (.refl _) rfl rfl (by rw [hOp]; rfl)
        (OpHolder.current_restoring hCfg fun q hq => hRest q (.tail _ hq))
  | listen p ok =>
      obtain ⟨c, rest, hOp, hNone, hNext⟩ := step_listen hStep
      obtain ⟨hCfg, hRest, -⟩ : OpHolder.Current _ (.restoring c (p :: rest) none) := hOp ▸ h.holder
      rcases hNext with ⟨-, rfl⟩ | rfl
      · exact .ages (.refl _) rfl rfl (by rw [hOp]; rfl)
          (OpHolder.current_restoring hCfg fun q hq => hRest q (.tail _ hq))
      · refine .opens (by rw [hOp]; rfl) hNone rfl ⟨hCfg, fun q hq => hRest q (.tail _ hq), ?_⟩
        rintro _ _ ⟨⟩
        exact hRest p (.head _)
  | register =>
      obtain ⟨c, rest, p, ln, hOp, rfl⟩ := step_register hStep
      obtain ⟨hCfg, hRest, hPort⟩ : OpHolder.Current _ (.restoring c rest (some (p, ln))) := hOp ▸ h.holder
      have hNext : OpHolder.Current w.sharing.cfg (.restoring c rest none) :=
        OpHolder.current_restoring hCfg hRest
      refine .registers (s := { w.sharing with shares := w.sharing.shares.insert p ln })
        (by rw [hOp]; rfl) rfl rfl ?_ rfl hNext
      rintro q (hq | rfl)
      · exact hq
      · exact hPort _ _ rfl
  | finish =>
      obtain ⟨⟨c, hOp⟩, rfl⟩ := step_finish hStep
      exact .ages (.refl _) rfl rfl (by rw [hOp]; rfl) trivial
  | acceptFails ln =>
      obtain ⟨s, hAged, hShares, hCfg, rfl⟩ := step_goroutine (.inl hStep)
      exact .ages hAged hShares hCfg rfl h.holder
  | close ln =>
      obtain ⟨s, hAged, hShares, hCfg, rfl⟩ := step_goroutine (.inr hStep)
      exact .ages hAged hShares hCfg rfl h.holder
  | cleanup ln =>
      obtain ⟨hFree, l, hl, hPhase, rfl⟩ := step_cleanup hStep
      exact .cleans hFree hl hPhase
  | stop =>
      obtain ⟨-, rfl⟩ := step_stop hStep
      obtain ⟨hAged, hShares, hCfg⟩ := Sharing.closeAll_spec (w.sharing.shares.entries.map (·.2)) w.sharing
      exact .ages hAged hShares hCfg rfl h.holder

/-- No change makes the table forget an open listener. -/
theorem Tracked.change (h : w.Tracked) (hChange : Change w w') : w'.Tracked := by
  cases hChange with
  | ages hAged hShares hCfg hPending hCurrent =>
      exact (h.aged hAged hShares hCfg).goesOn hPending (hCfg ▸ hCurrent)
  | opens hFree hNone hPending hCurrent =>
      rename_i c p rules op
      have hRules : Tracked { w with sharing := { w.sharing with rules := rules } } :=
        h.aged (.refl _) rfl rfl
      exact hRules.opens hFree hNone hPending hCurrent
  | registers hPending hListeners hShares hPorts hDone hCurrent =>
      exact h.registers hPending hListeners hShares hPorts hDone hCurrent
  | drops hPending => exact h.drops hPending
  | cleans hFree hListener hPhase => exact h.cleanup hFree hListener hPhase

theorem Tracked.step (h : w.Tracked) {l : SharingLabel} (hStep : w.step l = some w') : w'.Tracked :=
  h.change (h.changes hStep)

/-- The invariant in every reachable state. -/
theorem Tracked.reachable (h : Reachable sharingSystem w) : w.Tracked := by
  refine h.invariant ?_ fun _ _ _ hTracked hStep => hTracked.step hStep
  rintro _ ⟨c, rules, rfl⟩
  exact ⟨fun p ln hp => (by cases hp), fun p ln hp => (by cases hp), fun ln l hl => (by simp at hl),
    fun ln l hl => (by simp at hl), trivial⟩

/-- Of two open listeners one is not in the table, and it is the holder's. -/
theorem Tracked.one_open (h : w.Tracked) {ln ln' : Nat} {l l' : SharedListener}
    (hl : w.sharing.listeners[ln]? = some l) (hl' : w.sharing.listeners[ln']? = some l')
    (hOpen : l.isOpen = true) (hOpen' : l'.isOpen = true) (hPort : l.port = l'.port) : ln = ln' := by
  have hFirst := h.opened ln l hl hOpen
  have hSecond := h.opened ln' l' hl' hOpen'
  rw [hPort] at hFirst
  rcases hFirst with hTable | hPending
  · rcases hSecond with hTable' | hPending'
    · exact Option.some.inj (hTable.symm.trans hTable')
    · cases (h.pending _ _ hPending').1.symm.trans hTable
  · rcases hSecond with hTable' | hPending'
    · cases (h.pending _ _ hPending).1.symm.trans hTable'
    · cases hPending.symm.trans hPending'
      rfl

/-! ### New listeners -/

/-- The listener is in the table for a port, or about to be. -/
def Holds (w : SharingRun) (p : Int) (ln : Nat) : Prop :=
  w.sharing.shares.lookup p = some ln ∨ w.op.pending = some (p, ln)

/-- What a step may change: ports join, and so do listeners, which are new. -/
structure Grows (w w' : SharingRun) : Prop where
  ports : ∀ p ∈ w.sharing.cfg.ports, p ∈ w'.sharing.cfg.ports
  length : w.sharing.listeners.length ≤ w'.sharing.listeners.length
  fresh : ∀ p ln, w'.Holds p ln → w.Holds p ln ∨ w.sharing.listeners.length ≤ ln

/-- Listeners are added at the end and only grow older. -/
theorem Change.grows (h : Change w w') : Grows w w' := by
  cases h with
  | ages hAged hShares hCfg hPending hCurrent =>
      refine ⟨fun p hp => hCfg ▸ hp, hAged.length_le, fun p ln hp => .inl ?_⟩
      exact hp.imp (hShares ▸ ·) (hPending ▸ ·)
  | opens hFree hNone hPending hCurrent =>
      refine ⟨fun p hp => hp, by simp [Agent.withListener], fun p ln hp => ?_⟩
      rcases hp with hTable | hNew
      · exact .inl (.inl hTable)
      · cases hPending.symm.trans hNew
        exact .inr le_rfl
  | registers hPending hListeners hShares hPorts hDone hCurrent =>
      rename_i p ln s op
      refine ⟨fun q hq => hPorts q (.inl hq), (congrArg List.length hListeners).ge, fun q ln' hq => .inl ?_⟩
      rcases hq with hTable | hNew
      · change s.shares.lookup q = some ln' at hTable
        rw [hShares, Tables.lookup_insert_eq] at hTable
        split_ifs at hTable with hPort
        · cases hTable
          exact .inr (hPort ▸ hPending)
        · exact .inl hTable
      · cases hDone.symm.trans hNew
  | drops hPending =>
      rename_i p ln
      refine ⟨fun q hq => hq, (Sharing.aged_close ln _).length_le, fun q ln' hq => .inl ?_⟩
      rcases hq with hTable | hNew
      · exact .inl hTable
      · cases hNew
  | cleans hFree hListener hPhase =>
      rename_i ln l
      have hDone : (w.sharing.listeners.modify ln .ends)[ln]? = some l.ends := by
        rw [List.getElem?_modify_eq, hListener]
        rfl
      refine ⟨fun q hq => ?_, ?_, fun q ln' hq => .inl ?_⟩
      · rwa [Sharing.remove_cfg]
      · rw [Sharing.remove_listeners, List.length_modify]
      · refine hq.imp_left fun hTable => ?_
        rw [Sharing.lookup_remove hDone, Option.ite_none_left_eq_some] at hTable
        exact hTable.2

/-- What the table and the holder have for a port, when they have anything, was
opened after a given number of listeners. -/
structure Since (base : Nat) (p : Int) (w : SharingRun) : Prop where
  tracked : w.Tracked
  port : p ∈ w.sharing.cfg.ports
  length : base ≤ w.sharing.listeners.length
  fresh : ∀ ln, w.Holds p ln → base ≤ ln

/-- Nobody but a share or a restore brings a port back. -/
theorem Since.step {base : Nat} {p : Int} (h : Since base p w) {l : SharingLabel}
    (hStep : w.step l = some w') : Since base p w' := by
  have hGrows := (h.tracked.changes hStep).grows
  refine ⟨h.tracked.step hStep, hGrows.ports p h.port, h.length.trans hGrows.length, fun ln hln => ?_⟩
  rcases hGrows.fresh p ln hln with hOld | hNew
  · exact h.fresh ln hOld
  · exact h.length.trans hNew

/-- A restore has a listener for the port, or has the port before it. -/
def Ahead (p : Int) (w : SharingRun) : Prop :=
  match w.op with
  | .restoring _ rest started =>
      w.sharing.shares.lookup p ≠ none ∨ (∃ ln, started = some (p, ln)) ∨ ∃ q ∈ rest, q.listenPort = p
  | _ => False

theorem ahead_restoring {p : Int} {s : Sharing} {c : SharingConfig} {rest : List SharedPort}
    {started : Option (Int × Nat)} : Ahead p ⟨s, .restoring c rest started⟩ ↔
      s.shares.lookup p ≠ none ∨ (∃ ln, started = some (p, ln)) ∨ ∃ q ∈ rest, q.listenPort = p := Iff.rfl

theorem ahead_cons {p : Int} {q : SharedPort} {s : Sharing} {c : SharingConfig} {rest : List SharedPort}
    (h : Ahead p ⟨s, .restoring c (q :: rest) none⟩) :
    Ahead p ⟨s, .restoring c rest none⟩ ∨ q.listenPort = p := by
  simp only [ahead_restoring, List.exists_mem_cons_iff, reduceCtorEq, exists_const, false_or] at h ⊢
  rcases h with hTable | hHead | hRest
  · exact .inl (.inl hTable)
  · exact .inr hHead
  · exact .inl (.inr hRest)

theorem Ahead.not_free {p : Int} (h : w.Ahead p) : w.op ≠ .free := by
  intro hFree
  unfold Ahead at h
  rw [hFree] at h
  exact h

/-- A port stays ahead while the table of shares is the same. -/
theorem Ahead.sameTable {p : Int} (h : w.Ahead p) {s : Sharing} (hShares : s.shares = w.sharing.shares) :
    Ahead p ⟨s, w.op⟩ := by
  unfold Ahead at h ⊢
  rw [← hShares] at h
  exact h

theorem ahead_of_op {p : Int} (h : w.Ahead p) {c : SharingConfig} {rest : List SharedPort}
    {started : Option (Int × Nat)} (hOp : w.op = .restoring c rest started) :
    Ahead p ⟨w.sharing, .restoring c rest started⟩ := hOp ▸ h

/-- A port that is still to come stays ahead while the restoring goes on, as long as its
bind does not fail. -/
theorem Ahead.step {p : Int} (h : w.Ahead p) {l : SharingLabel} (hStep : w.step l = some w')
    (hFinish : l ≠ .finish) (hBind : ∀ q, l = .listen q false → q.listenPort ≠ p) : w'.Ahead p := by
  cases l with
  | share o body => exact absurd (step_share hStep).1 h.not_free
  | save outcome =>
      obtain ⟨opened, hOp, -⟩ := step_save hStep
      unfold Ahead at h
      rw [hOp] at h
      exact h.elim
  | restore => exact absurd (step_restore hStep).1 h.not_free
  | skip =>
      obtain ⟨c, q, rest, hOp, hSome, rfl⟩ := step_skip hStep
      rcases ahead_cons (ahead_of_op h hOp) with hRest | rfl
      · exact hRest
      · exact .inl hSome
  | listen q ok =>
      obtain ⟨c, rest, hOp, -, ⟨rfl, rfl⟩ | rfl⟩ := step_listen hStep
      · exact (ahead_cons (ahead_of_op h hOp)).resolve_right (hBind q rfl)
      · rcases ahead_cons (ahead_of_op h hOp) with hRest | rfl
        · rw [ahead_restoring] at hRest ⊢
          exact hRest.imp_right fun hOr => .inr (hOr.resolve_left (by simp))
        · exact .inr (.inl ⟨_, rfl⟩)
  | register =>
      obtain ⟨c, rest, port, ln, hOp, rfl⟩ := step_register hStep
      have hBefore := ahead_of_op h hOp
      rw [ahead_restoring] at hBefore
      rw [ahead_restoring, Tables.lookup_insert_eq]
      rcases hBefore with hTable | ⟨ln', hStarted⟩ | hRest
      · left
        split_ifs
        · exact Option.some_ne_none _
        · exact hTable
      · cases hStarted
        exact .inl (by simp)
      · exact .inr (.inr hRest)
  | finish => exact absurd rfl hFinish
  | acceptFails ln =>
      obtain ⟨s, -, hShares, -, rfl⟩ := step_goroutine (.inl hStep)
      exact h.sameTable hShares
  | close ln =>
      obtain ⟨s, -, hShares, -, rfl⟩ := step_goroutine (.inr hStep)
      exact h.sameTable hShares
  | cleanup ln => exact absurd (step_cleanup hStep).1 h.not_free
  | stop => exact absurd (step_stop hStep).1 h.not_free

/-- Over a run it stays ahead in the same way. -/
theorem Ahead.runs {p : Int} {labels : List SharingLabel} (run : Runs sharingSystem w labels w')
    (h : w.Ahead p) : .finish ∉ labels → (∀ q, .listen q false ∈ labels → q.listenPort ≠ p) →
      w'.Ahead p := by
  induction run with
  | nil => exact fun _ _ => h
  | snoc prior last ih =>
      intro hFinish hBind
      have hPrior := ih (fun hMem => hFinish (List.mem_append_left _ hMem))
        fun q hMem => hBind q (List.mem_append_left _ hMem)
      refine hPrior.step last ?_ fun q hSame => ?_
      · rintro rfl
        exact hFinish (List.mem_append_right _ (.head _))
      · exact hBind q (List.mem_append_right _ (hSame ▸ .head _))

/-- A cleanup takes its own listener out of the table, and nothing else. -/
theorem Tracked.lookup_cleanup (h : w.Tracked) {ln : Nat} (hStep : w.step (.cleanup ln) = some w')
    (p : Int) (ln' : Nat) : w'.sharing.shares.lookup p = some ln' ↔
      w.sharing.shares.lookup p = some ln' ∧ ln' ≠ ln := by
  obtain ⟨-, l, hl, -, rfl⟩ := step_cleanup hStep
  have hDone : (w.sharing.listeners.modify ln .ends)[ln]? = some l.ends := by
    rw [List.getElem?_modify_eq, hl]
    rfl
  rw [Sharing.lookup_remove hDone, Option.ite_none_left_eq_some, and_comm]
  refine and_congr_right fun hTable => not_congr ?_
  change p = l.port ∧ w.sharing.shares.lookup l.port = some ln ↔ ln' = ln
  constructor
  · rintro ⟨rfl, hOwn⟩
    exact Option.some.inj (hTable.symm.trans hOwn)
  · rintro rfl
    obtain ⟨-, l', hl', hPort, -⟩ := h.entry p ln' hTable
    cases hl.symm.trans hl'
    exact ⟨hPort.symm, hPort ▸ hTable⟩

theorem Since.runs {base : Nat} {p : Int} {labels : List SharingLabel}
    (run : Runs sharingSystem w labels w') (h : Since base p w) : Since base p w' :=
  run.preserves (fun _ _ _ hs hStep => hs.step hStep) h

/-- After a cleanup the table has nothing for the port, and what it has at the
end of a restore that could bind the port is new. -/
theorem Tracked.restored (h : w.Tracked) {ln : Nat} {p : Int} (hEntry : w.sharing.shares.lookup p = some ln)
    {w₁ w₂ w₃ w₄ w₅ : SharingRun} (hCleanup : w.step (.cleanup ln) = some w₁)
    {before during : List SharingLabel} (hBefore : Runs sharingSystem w₁ before w₂)
    (hRestore : w₂.step .restore = some w₃) (hDuring : Runs sharingSystem w₃ during w₄)
    (hOngoing : .finish ∉ during) (hBind : ∀ q, .listen q false ∈ during → q.listenPort ≠ p)
    (hFinish : w₄.step .finish = some w₅) :
    ∃ ln', w₅.sharing.shares.lookup p = some ln' ∧ w₁.sharing.listeners.length ≤ ln' := by
  have hCleaned : Since w₁.sharing.listeners.length p w₁ := by
    have hGrows := (h.changes hCleanup).grows
    refine ⟨h.step hCleanup, hGrows.ports p (h.entry p ln hEntry).1, le_rfl, fun ln' hHolds => ?_⟩
    rcases hHolds with hTable | hPending
    · obtain ⟨hOld, hNe⟩ := (h.lookup_cleanup hCleanup p ln').mp hTable
      exact absurd (Option.some.inj (hOld.symm.trans hEntry)) hNe
    · obtain ⟨hFree, l, -, -, rfl⟩ := step_cleanup hCleanup
      rw [show OpHolder.pending _ = none from congrArg OpHolder.pending hFree] at hPending
      cases hPending
  have hReady := hCleaned.runs hBefore
  have hAhead : w₃.Ahead p := by
    obtain ⟨-, rfl⟩ := step_restore hRestore
    obtain ⟨q, hq, hPort⟩ := List.mem_map.mp hReady.port
    exact .inr (.inr ⟨q, hq, hPort⟩)
  have hEnd := hAhead.runs hDuring hOngoing hBind
  have hSince := ((hReady.step hRestore).runs hDuring).step hFinish
  obtain ⟨⟨c, hOp⟩, rfl⟩ := step_finish hFinish
  have hTable : w₄.sharing.shares.lookup p ≠ none :=
    (ahead_restoring.mp (ahead_of_op hEnd hOp)).resolve_right (by simp)
  obtain ⟨ln', hEntered⟩ := Option.ne_none_iff_exists'.mp hTable
  exact ⟨ln', hEntered, hSince.fresh ln' (.inl hEntered)⟩

/-- The holder of the lock can always go on to the end. -/
theorem lock_given_back (w : SharingRun) : ∃ labels w', Runs sharingSystem w labels w' ∧ w'.op = .free := by
  obtain ⟨s, op⟩ := w
  have hLoop : ∀ (c : SharingConfig) (rest : List SharedPort) (s : Sharing), ∃ labels w',
      Runs sharingSystem ⟨s, .restoring c rest none⟩ labels w' ∧ w'.op = .free := by
    intro c rest
    induction rest with
    | nil =>
        intro s
        have hFinish : sharingSystem.step ⟨s, .restoring c [] none⟩ .finish ⟨s, .free⟩ := rfl
        exact ⟨_, _, .single hFinish, rfl⟩
    | cons q rest ih =>
        intro s
        obtain ⟨labels, w', run, hFree⟩ := ih s
        by_cases hEntry : (s.shares.lookup q.listenPort).isSome
        · have hSkip : sharingSystem.step ⟨s, .restoring c (q :: rest) none⟩ .skip
              ⟨s, .restoring c rest none⟩ := by simp [sharingSystem, SharingRun.step, hEntry]
          exact ⟨_, w', (Runs.single hSkip).trans run, hFree⟩
        · have hRefused : sharingSystem.step ⟨s, .restoring c (q :: rest) none⟩ (.listen q false)
              ⟨s, .restoring c rest none⟩ := by simp [sharingSystem, SharingRun.step, hEntry]
          exact ⟨_, w', (Runs.single hRefused).trans run, hFree⟩
  cases op with
  | free => exact ⟨[], _, .nil _, rfl⟩
  | sharing opened =>
      have hSave : sharingSystem.step ⟨s, .sharing opened⟩ (.save (.ok ()))
          ⟨((Agent.commitShare (.ok ()) opened).outcome s).2, .free⟩ := rfl
      exact ⟨_, _, .single hSave, rfl⟩
  | restoring c rest started =>
      rcases started with _ | ⟨p, ln⟩
      · exact hLoop c rest s
      · obtain ⟨labels, w', run, hFree⟩ := hLoop c rest { s with shares := s.shares.insert p ln }
        have hRegister : sharingSystem.step ⟨s, .restoring c rest (some (p, ln))⟩ .register
            ⟨{ s with shares := s.shares.insert p ln }, .restoring c rest none⟩ := rfl
        exact ⟨_, w', (Runs.single hRegister).trans run, hFree⟩

/-- In every reachable state with the lock free, the goroutine of each listener in
the table runs or has its cleanup before it; no port ever has two open listeners;
a cleanup takes its own listener out of the table and no other; the holder of the
lock can always go on to give it back; and once a listener of the table has been
cleaned up, the next restore that can bind its port enters a new one. -/
theorem listeners_tracked (h : Reachable sharingSystem w) :
    (w.op = .free → ∀ p ln, w.sharing.shares.lookup p = some ln →
      ∃ l, w.sharing.listeners[ln]? = some l ∧ l.port = p ∧ l.phase ≠ .done) ∧
    (∀ (ln ln' : Nat) l l', w.sharing.listeners[ln]? = some l → w.sharing.listeners[ln']? = some l' →
      l.isOpen = true → l'.isOpen = true → l.port = l'.port → ln = ln') ∧
    (∀ ln w₁, w.step (.cleanup ln) = some w₁ → ∀ p ln',
      w₁.sharing.shares.lookup p = some ln' ↔ w.sharing.shares.lookup p = some ln' ∧ ln' ≠ ln) ∧
    (∃ labels w', Runs sharingSystem w labels w' ∧ w'.op = .free) ∧
    ∀ ln p w₁ before w₂ w₃ during w₄ w₅, w.sharing.shares.lookup p = some ln →
      w.step (.cleanup ln) = some w₁ → Runs sharingSystem w₁ before w₂ →
      w₂.step .restore = some w₃ → Runs sharingSystem w₃ during w₄ → .finish ∉ during →
      (∀ q, .listen q false ∈ during → q.listenPort ≠ p) → w₄.step .finish = some w₅ →
      ∃ ln', w₅.sharing.shares.lookup p = some ln' ∧ w₁.sharing.listeners.length ≤ ln' := by
  have hTracked := Tracked.reachable h
  refine ⟨fun _ p ln hEntry => (hTracked.entry p ln hEntry).2, ?_, ?_, lock_given_back w, ?_⟩
  · intro ln ln' l l' hl hl' hOpen hOpen' hPort
    exact hTracked.one_open hl hl' hOpen hOpen' hPort
  · intro ln w₁ hCleanup p ln'
    exact hTracked.lookup_cleanup hCleanup p ln'
  · intro ln p w₁ before w₂ w₃ during w₄ w₅ hEntry hCleanup hBefore hRestore hDuring hOngoing hBind hFinish
    exact hTracked.restored hEntry hCleanup hBefore hRestore hDuring hOngoing hBind hFinish

/-- An agent that shares one proxy. -/
def sampleShares : SharingConfig := { sampleSharing with shares := [⟨7890, 17900⟩] }

/-- The agent with the listeners opened so far, of which one is in the table. -/
def sampleTable (entry : Option Nat) (listeners : List SharedListener) : SharingRun where
  sharing := ⟨sampleShares, sampleShares, entry.elim ∅ fun ln => (∅ : AList fun _ : Int => Nat).insert 17900 ln,
    listeners, []⟩
  op := .free

def sampleListener : SharedListener := ⟨hostPort sampleSharing.ip 17900, 17900, true, .accepting⟩

def sampleRestoring (entry : Option Nat) (listeners : List SharedListener) (rest : List SharedPort) :
    SharingRun := { sampleTable entry listeners with op := .restoring sampleShares rest none }

theorem sample_restores (listeners : List SharedListener) :
    Runs sharingSystem (sampleRestoring none listeners sampleShares.shares)
      [.listen ⟨7890, 17900⟩ true, .register]
      (sampleRestoring (some listeners.length) (listeners ++ [sampleListener]) []) := by
  refine runs_of_follow (f := SharingRun.step) (fun _ _ _ h => h) ?_
  have hSplit : splitHostPort sampleSharing.hubProxy.toList =
      some ("10.77.0.1".toList, "18090".toList) := by decide +kernel
  simp [follow, SharingRun.step, sampleRestoring, sampleTable, Agent.startShare, hSplit, sampleShares,
    sampleListener]

/-- The first listener fails and is cleaned up after, and the next restore enters
a second one. -/
theorem failed_listener_renewed :
    ∃ ln, (sampleTable (some 1) [sampleListener.fails.closes.ends, sampleListener]).sharing.shares.lookup
      17900 = some ln ∧ 1 ≤ ln := by
  have hStart : Reachable sharingSystem (sampleTable none []) := .initial ⟨sampleShares, [], rfl⟩
  have hBegin : ∀ listeners, (sampleTable none listeners).step .restore =
      some (sampleRestoring none listeners sampleShares.shares) := fun _ => rfl
  have hFinish : ∀ entry listeners, (sampleRestoring entry listeners []).step .finish =
      some (sampleTable entry listeners) := fun _ _ => rfl
  have hFails : follow SharingRun.step (sampleTable (some 0) [sampleListener]) [.acceptFails 0, .close 0] =
      some (sampleTable (some 0) [sampleListener.fails.closes]) := by
    simp [follow, SharingRun.step, sampleTable, Sharing.advance, sampleListener, SharedListener.fails]
  have hOwn : (AList.singleton 17900 0 : AList fun _ : Int => Nat).lookup 17900 = some 0 := by decide
  have hErase : (AList.singleton 17900 0 : AList fun _ : Int => Nat).erase 17900 = ∅ :=
    AList.ext (by decide)
  have hCleanup : (sampleTable (some 0) [sampleListener.fails.closes]).step (.cleanup 0) =
      some (sampleTable none [sampleListener.fails.closes.ends]) := by
    simp [SharingRun.step, sampleTable, Sharing.advance, Sharing.remove, sampleListener, hOwn, hErase,
      SharedListener.fails, SharedListener.closes, SharedListener.ends]
  have hEntered := ((hStart.next (hBegin [])).runs (sample_restores [])).next (hFinish _ _)
  have hReached := hEntered.runs (runs_of_follow (fun _ _ _ h => h) hFails)
  obtain ⟨-, -, -, -, hRenewed⟩ := listeners_tracked hReached
  exact hRenewed 0 17900 _ [] _ _ _ _ _ (by decide) hCleanup (.nil _) (hBegin _) (sample_restores _)
    (by simp) (by simp) (hFinish _ _)

end SharingRun
end NetConductor
