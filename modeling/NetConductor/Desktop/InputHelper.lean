import Mathlib.Data.List.AList
import Mathlib.Data.List.Induction
import NetConductor.Semantics.Tables

/-! The input helper of the remote desktop: it injects the keys and buttons it
is told to, and keeps a record of those it holds down, so as to let go of them
at the end. -/
namespace NetConductor

structure DesktopInput where
  kind : String
  x : Float
  y : Float
  button : Int
  down : Bool
  code : String
  delta : Int32

/-- `winInput`, with Windows' names for the fields at the offsets written. -/
inductive WinInput where
  | mouse (dx dy mouseData dwFlags : UInt32)
  | keyboard (wVk : UInt16) (dwFlags : UInt32)
deriving DecidableEq

def keyCodes : List (String × UInt16) :=
  [("Enter", 13), ("Escape", 27), ("Backspace", 8), ("Tab", 9), ("Space", 32), ("ArrowLeft", 37),
    ("ArrowUp", 38), ("ArrowRight", 39), ("ArrowDown", 40), ("Delete", 46), ("Home", 36), ("End", 35),
    ("PageUp", 33), ("PageDown", 34), ("ShiftLeft", 16), ("ShiftRight", 16), ("ControlLeft", 17),
    ("ControlRight", 17), ("AltLeft", 18), ("AltRight", 18), ("MetaLeft", 91), ("MetaRight", 92),
    ("CapsLock", 20), ("Minus", 189), ("Equal", 187), ("BracketLeft", 219), ("BracketRight", 221),
    ("Backslash", 220), ("Semicolon", 186), ("Quote", 222), ("Comma", 188), ("Period", 190),
    ("Slash", 191), ("Backquote", 192), ("F1", 112), ("F2", 113), ("F3", 114), ("F4", 115),
    ("F5", 116), ("F6", 117), ("F7", 118), ("F8", 119), ("F9", 120), ("F10", 121), ("F11", 122),
    ("F12", 123)]

/-- Zero stands for no key. -/
def virtualKey (code : String) : UInt16 :=
  match code.toList with
  | ['K', 'e', 'y', c] => if 'A' ≤ c ∧ c ≤ 'Z' then c.toNat.toUInt16 else 0
  | ['D', 'i', 'g', 'i', 't', c] => if '0' ≤ c ∧ c ≤ '9' then c.toNat.toUInt16 else 0
  | _ => (keyCodes.lookup code).getD 0

/-- The order in which Go goes through a map is any order at all. -/
structure MapOrder where
  keys : List UInt16 → List UInt16
  buttons : List Int → List Int
  keys_perm : ∀ l, (keys l).Perm l
  buttons_perm : ∀ l, (buttons l).Perm l

/-- A line of input, as `json.Unmarshal` leaves it. -/
structure InputLine where
  input : Except String DesktopInput
  order : MapOrder

/-- The two maps of `inputMain`, and every event it tried to inject, with
whether Windows took it. -/
structure InputHelper where
  pressed : AList fun _ : UInt16 => Bool
  buttons : AList fun _ : Int => Bool
  log : List (WinInput × Bool)

namespace InputHelper

def start : InputHelper := ⟨∅, ∅, []⟩

def blocked (taken : Bool) : Option String :=
  if taken then none else some "input blocked by Windows desktop permissions"

/-- The oracle answers the calls of `SendInput` in order. -/
def send (o : Nat → Bool) (i : WinInput) (s : InputHelper) : InputHelper × Bool :=
  ({ s with log := s.log ++ [(i, o s.log.length)] }, o s.log.length)

def key (o : Nat → Bool) (vk : UInt16) (down : Bool) (s : InputHelper) : InputHelper × Bool :=
  s.send o (.keyboard vk (if down then 0 else 2))

def releaseButton (o : Nat → Bool) (s : InputHelper) (button : Int) : InputHelper :=
  let s := (s.send o (.mouse 0 0 0 (if button = 2 then 16 else 4))).1
  { s with buttons := s.buttons.erase button }

def releaseKey (o : Nat → Bool) (s : InputHelper) (vk : UInt16) : InputHelper :=
  let s := (s.key o vk false).1
  { s with pressed := s.pressed.erase vk }

def release (o : Nat → Bool) (order : MapOrder) (s : InputHelper) : InputHelper :=
  let s := (order.buttons s.buttons.keys).foldl (releaseButton o) s
  (order.keys s.pressed.keys).foldl (releaseKey o) s

def keyInput (o : Nat → Bool) (r : DesktopInput) (s : InputHelper) : InputHelper × Option String :=
  let vk := virtualKey r.code
  if vk = 0 then (s, some "unsupported key")
  else
    let (s, taken) := s.key o vk r.down
    ({ s with pressed := if r.down then s.pressed.insert vk true else s.pressed.erase vk }, blocked taken)

def moveInput (o : Nat → Bool) (r : DesktopInput) (s : InputHelper) : InputHelper × Option String :=
  if r.x < 0 ∨ 1 < r.x ∨ r.y < 0 ∨ 1 < r.y then (s, some "invalid pointer")
  else
    let (s, taken) := s.send o (.mouse (r.x * 65535).toUInt32 (r.y * 65535).toUInt32 0 0x8001)
    (s, blocked taken)

/-- The map is changed before the button is looked at. -/
def buttonInput (o : Nat → Bool) (r : DesktopInput) (s : InputHelper) : InputHelper × Option String :=
  let s := { s with
    buttons := if r.down then s.buttons.insert r.button true else s.buttons.erase r.button }
  if r.button = 0 ∨ r.button = 2 then
    let flags : UInt32 := if r.button = 0 then 2 else 8
    let (s, taken) := s.send o (.mouse 0 0 0 (if r.down then flags else flags * 2))
    (s, blocked taken)
  else (s, some "unsupported button")

def wheelInput (o : Nat → Bool) (r : DesktopInput) (s : InputHelper) : InputHelper × Option String :=
  if r.delta < -1200 ∨ 1200 < r.delta then (s, some "invalid wheel")
  else
    let (s, taken) := s.send o (.mouse 0 0 r.delta.toUInt32 0x800)
    (s, blocked taken)

/-- What a line does, and the error it is answered with. -/
def handle (o : Nat → Bool) (s : InputHelper) (l : InputLine) : InputHelper × Option String :=
  match l.input with
  | .error e => (s, some e)
  | .ok r =>
      match r.kind with
      | "release" => (s.release o l.order, none)
      | "key" => s.keyInput o r
      | "move" => s.moveInput o r
      | "button" => s.buttonInput o r
      | "wheel" => s.wheelInput o r
      | _ => (s, some "invalid input")

/-- The loop over the lines. -/
def run (o : Nat → Bool) (lines : List InputLine) : InputHelper :=
  lines.foldl (fun s l => (s.handle o l).1) start

/-- The whole of `inputMain`: at the end of its input it releases what it holds. -/
def inputMain (o : Nat → Bool) (lines : List InputLine) (order : MapOrder) : InputHelper :=
  (run o lines).release o order

end InputHelper

/-! ### What is held -/

inductive Control where
  | key (vk : UInt16)
  | button (n : Int)
deriving DecidableEq

/-- Whether an event presses the control, or lets go of it. -/
def WinInput.press : WinInput → Control → Option Bool
  | .keyboard vk flags, .key k => if k = vk then some (flags &&& 2 == 0) else none
  | .mouse _ _ _ flags, .button n =>
      if n = 0 then if flags &&& 4 ≠ 0 then some false else if flags &&& 2 ≠ 0 then some true else none
      else if n = 2 then
        if flags &&& 16 ≠ 0 then some false else if flags &&& 8 ≠ 0 then some true else none
      else none
  | _, _ => none

/-- The last event on the control that Windows took was a press. -/
def held (log : List (WinInput × Bool)) (c : Control) : Bool :=
  log.foldl (fun down e => if e.2 then (e.1.press c).getD down else down) false

/-- The event that lets go of a control. -/
def Control.up : Control → WinInput
  | .key vk => .keyboard vk 2
  | .button n => .mouse 0 0 0 (if n = 2 then 16 else 4)

/-- The events that let go of the controls, one each, as the oracle answers them. -/
def releases (o : Nat → Bool) : Nat → List Control → List (WinInput × Bool)
  | _, [] => []
  | n, c :: rest => (c.up, o n) :: releases o (n + 1) rest

theorem held_concat (log : List (WinInput × Bool)) (e : WinInput × Bool) (c : Control) :
    held (log ++ [e]) c = if e.2 then (e.1.press c).getD (held log c) else held log c := by
  simp [held]

/-- The controls that some event presses: every key, and two buttons. -/
def Control.Known : Control → Prop
  | .key _ => True
  | .button n => n = 0 ∨ n = 2

/-- An event that presses or releases something is about a key or one of the two
buttons. -/
theorem WinInput.press_known {i : WinInput} {c : Control} {down : Bool} (h : i.press c = some down) :
    c.Known := by
  cases c with
  | key vk => trivial
  | button n =>
      cases i with
      | keyboard vk flags => cases h
      | mouse dx dy data flags =>
          by_contra hNone
          obtain ⟨hLeft, hRight⟩ := not_or.mp hNone
          simp [WinInput.press, hLeft, hRight] at h

/-- Whatever is held is a key or one of the two buttons. -/
theorem held_known {log : List (WinInput × Bool)} {c : Control} (h : held log c = true) : c.Known := by
  induction log using List.reverseRecOn with
  | nil => cases h
  | append_singleton log e ih =>
      rw [held_concat] at h
      cases hPress : e.1.press c with
      | none =>
          rw [hPress, Option.getD_none, ite_self] at h
          exact ih h
      | some down => exact WinInput.press_known hPress

/-- A key goes down or up, the other controls stay. -/
theorem press_key (vk : UInt16) (down : Bool) (c : Control) :
    (WinInput.keyboard vk (if down then 0 else 2)).press c = if c = .key vk then some down else none := by
  cases c with
  | key k => cases down <;> simp [WinInput.press]
  | button n => rfl

/-- A button event is about its own button. -/
theorem press_button {n : Int} (h : n = 0 ∨ n = 2) (down : Bool) (c : Control) :
    (WinInput.mouse 0 0 0 (if down then if n = 0 then 2 else 8 else (if n = 0 then 2 else 8) * 2)).press c =
      if c = .button n then some down else none := by
  cases c with
  | key k => rfl
  | button m =>
      by_cases hLeft : m = 0
      · subst hLeft
        rcases h with rfl | rfl <;> cases down <;> decide
      by_cases hRight : m = 2
      · subst hRight
        rcases h with rfl | rfl <;> cases down <;> decide
      have hOther : m ≠ n := by
        rcases h with rfl | rfl
        · exact hLeft
        · exact hRight
      simp [WinInput.press, hLeft, hRight, hOther]

/-- The release of a control lets exactly that one go. -/
theorem press_up {c : Control} (h : c.Known) (x : Control) :
    c.up.press x = if x = c then some false else none := by
  cases c with
  | key vk => exact press_key vk false x
  | button n =>
      rcases h with rfl | rfl
      · exact press_button (.inl rfl) false x
      · exact press_button (.inr rfl) false x

/-- Moves and wheel turns are no presses. -/
theorem press_none {dx dy data flags : UInt32}
    (h : flags &&& 2 = 0 ∧ flags &&& 4 = 0 ∧ flags &&& 8 = 0 ∧ flags &&& 16 = 0) (c : Control) :
    (WinInput.mouse dx dy data flags).press c = none := by
  obtain ⟨h2, h4, h8, h16⟩ := h
  cases c with
  | key vk => rfl
  | button n => simp [WinInput.press, h2, h4, h8, h16]

namespace InputHelper

/-- The control is in the helper's record. -/
def Tracks (s : InputHelper) : Control → Prop
  | .key vk => vk ∈ s.pressed
  | .button n => n ∈ s.buttons

/-- The record has exactly what is held. -/
def Tracked (s : InputHelper) : Prop := ∀ c, s.Tracks c ↔ held s.log c = true

variable {s s' : InputHelper} {o : Nat → Bool}

/-- One event, on one control, that is recorded as what it was meant to do. -/
theorem tracked_event (h : s.Tracked) {i : WinInput} {taken down : Bool} {c : Control}
    (hLog : s'.log = s.log ++ [(i, taken)])
    (hPress : ∀ x, i.press x = if x = c then some down else none)
    (hTracks : ∀ x, s'.Tracks x ↔ if x = c then down = true else s.Tracks x) :
    s'.Tracked ↔ taken = true ∨ (s.Tracks c ↔ down = true) := by
  have hHeld : ∀ x, held s'.log x = if taken = true ∧ x = c then down else held s.log x := by
    intro x
    rw [hLog, held_concat, hPress]
    cases taken with
    | false => simp
    | true => by_cases hx : x = c <;> simp [hx]
  constructor
  · intro hAfter
    by_cases hTaken : taken = true
    · exact .inl hTaken
    · have hc := hAfter c
      rw [hTracks, if_pos rfl, hHeld, if_neg (fun hBoth => hTaken hBoth.1), ← h c] at hc
      exact .inr hc.symm
  · intro hEither x
    rw [hTracks, hHeld]
    by_cases hx : x = c
    · subst hx
      rw [if_pos rfl]
      rcases hEither with hTaken | hSame
      · rw [if_pos ⟨hTaken, rfl⟩]
      · split
        · exact Iff.rfl
        · exact hSame.symm.trans (h x)
    · rw [if_neg hx, if_neg (fun hBoth => hx hBoth.2)]
      exact h x

/-- A control that the line lets go of, one event for each. -/
def releaseControl (o : Nat → Bool) (s : InputHelper) : Control → InputHelper
  | .key vk => s.releaseKey o vk
  | .button n => s.releaseButton o n

/-- The controls that `release` goes through. -/
def controls (order : MapOrder) (s : InputHelper) : List Control :=
  (order.buttons s.buttons.keys).map .button ++ (order.keys s.pressed.keys).map .key

theorem log_releaseControl (o : Nat → Bool) (s : InputHelper) (c : Control) :
    (s.releaseControl o c).log = s.log ++ [(c.up, o s.log.length)] := by
  cases c <;> rfl

/-- A control that is let go of leaves the record, and no other one does. -/
theorem tracks_releaseControl (o : Nat → Bool) (s : InputHelper) (c x : Control) :
    (s.releaseControl o c).Tracks x ↔ x ≠ c ∧ s.Tracks x := by
  cases c with
  | key vk =>
      cases x with
      | key k =>
          have hErase : k ∈ s.pressed.erase vk ↔ k ≠ vk ∧ k ∈ s.pressed := AList.mem_erase
          exact hErase.trans (and_congr (by simp) Iff.rfl)
      | button n => exact ⟨fun h => ⟨by simp, h⟩, fun h => h.2⟩
  | button n =>
      cases x with
      | key k => exact ⟨fun h => ⟨by simp, h⟩, fun h => h.2⟩
      | button m =>
          have hErase : m ∈ s.buttons.erase n ↔ m ≠ n ∧ m ∈ s.buttons := AList.mem_erase
          exact hErase.trans (and_congr (by simp) Iff.rfl)

/-- `release` goes through the buttons first and the keys then, which is one pass over
the controls. -/
theorem release_eq (o : Nat → Bool) (order : MapOrder) (s : InputHelper) :
    s.release o order = (s.controls order).foldl (releaseControl o) s := by
  have hButtons : ∀ (l : List Int) (t : InputHelper),
      (l.foldl (releaseButton o) t).pressed = t.pressed := by
    intro l
    induction l with
    | nil => exact fun t => rfl
    | cons n rest ih => exact fun t => ih (t.releaseButton o n)
  rw [release, controls, List.foldl_append, List.foldl_map, List.foldl_map, hButtons]
  rfl

theorem mem_controls {order : MapOrder} {c : Control} : c ∈ s.controls order ↔ s.Tracks c := by
  cases c with
  | key vk => simp [controls, Tracks, (order.keys_perm _).mem_iff, AList.mem_keys]
  | button n => simp [controls, Tracks, (order.buttons_perm _).mem_iff, AList.mem_keys]

theorem nodup_controls (order : MapOrder) (s : InputHelper) : (s.controls order).Nodup := by
  have hButtons := (order.buttons_perm s.buttons.keys).nodup_iff.mpr s.buttons.keys_nodup
  have hKeys := (order.keys_perm s.pressed.keys).nodup_iff.mpr s.pressed.keys_nodup
  refine List.nodup_append.mpr ⟨hButtons.map fun m n h => ?_, hKeys.map fun j k h => ?_, ?_⟩
  · exact Control.button.inj h
  · exact Control.key.inj h
  · simp

theorem length_controls (order : MapOrder) (s : InputHelper) :
    (s.controls order).length = s.buttons.keys.length + s.pressed.keys.length := by
  rw [controls, List.length_append, List.length_map, List.length_map,
    (order.buttons_perm _).length_eq, (order.keys_perm _).length_eq]

/-- The releases are sent in the order of the map. -/
theorem log_releases (o : Nat → Bool) (l : List Control) (s : InputHelper) :
    (l.foldl (releaseControl o) s).log = s.log ++ releases o s.log.length l := by
  induction l generalizing s with
  | nil => simp [releases]
  | cons c rest ih =>
      rw [List.foldl_cons, ih, log_releaseControl, List.length_append, List.length_singleton,
        List.append_assoc, List.singleton_append, releases]

/-- What is released is tracked no longer. -/
theorem tracks_releases {o : Nat → Bool} {l : List Control} {s : InputHelper} {c : Control} :
    (l.foldl (releaseControl o) s).Tracks c ↔ c ∉ l ∧ s.Tracks c := by
  induction l generalizing s with
  | nil => simp
  | cons d rest ih =>
      rw [List.foldl_cons, ih, tracks_releaseControl, List.mem_cons, not_or]
      tauto

/-- Letting go of other controls does nothing to this one. -/
theorem held_releases {log : List (WinInput × Bool)} {l : List Control} (hKnown : ∀ d ∈ l, d.Known)
    {c : Control} (hc : c ∉ l) (n : Nat) : held (log ++ releases o n l) c = held log c := by
  induction l generalizing log n with
  | nil => simp [releases]
  | cons d rest ih =>
      have hOther : c ≠ d := fun hSame => hc (hSame ▸ List.mem_cons_self)
      rw [releases, ← List.singleton_append, ← List.append_assoc,
        ih (fun x hx => hKnown x (List.mem_cons_of_mem d hx)) fun hx => hc (List.mem_cons_of_mem d hx),
        held_concat, press_up (hKnown d List.mem_cons_self), if_neg hOther, Option.getD_none, ite_self]

/-- Where the record was right, it is right after a release exactly when Windows
took every event of it. -/
theorem tracked_releases (h : s.Tracked) {l : List Control} (hNodup : l.Nodup)
    (hl : ∀ c ∈ l, s.Tracks c) : (l.foldl (releaseControl o) s).Tracked ↔
      ∀ i < l.length, o (s.log.length + i) = true := by
  induction l generalizing s with
  | nil => simpa using h
  | cons c rest ih =>
      obtain ⟨hc, hRest⟩ := List.nodup_cons.mp hNodup
      have hTracks := hl c List.mem_cons_self
      have hKnown : ∀ d ∈ c :: rest, d.Known := fun d hd => held_known ((h d).mp (hl d hd))
      have hFirst : (s.releaseControl o c).Tracked ↔ o s.log.length = true := by
        rw [tracked_event h (log_releaseControl o s c) (press_up (hKnown c List.mem_cons_self))
          fun x => by rw [tracks_releaseControl]; by_cases hx : x = c <;> simp [hx]]
        simp [hTracks]
      have hLength : (s.releaseControl o c).log.length = s.log.length + 1 := by
        rw [log_releaseControl, List.length_append, List.length_singleton]
      have hLater : ∀ d ∈ rest, (s.releaseControl o c).Tracks d := fun d hd =>
        (tracks_releaseControl o s c d).mpr
          ⟨fun hSame => hc (hSame ▸ hd), hl d (List.mem_cons_of_mem c hd)⟩
      rw [List.foldl_cons]
      constructor
      · intro hAfter
        have hTaken : o s.log.length = true := by
          by_contra hRefused
          -- an event refused leaves the control down, and nothing comes back to it
          have hHeld : held (rest.foldl (releaseControl o) (s.releaseControl o c)).log c = true := by
            rw [log_releases, held_releases (fun d hd => hKnown d (List.mem_cons_of_mem c hd)) hc,
              log_releaseControl, held_concat, if_neg hRefused]
            exact (h c).mp hTracks
          have hGone := tracks_releases.mp ((hAfter c).mpr hHeld)
          exact ((tracks_releaseControl o s c c).mp hGone.2).1 rfl
        have hNext := (ih (hFirst.mpr hTaken) hRest hLater).mp hAfter
        intro i hi
        cases i with
        | zero => exact hTaken
        | succ i =>
            have hi' := hNext i (Nat.lt_of_succ_lt_succ hi)
            rwa [hLength, Nat.add_assoc, Nat.add_comm 1 i] at hi'
      · intro hAll
        refine (ih (hFirst.mpr (hAll 0 (Nat.succ_pos _))) hRest hLater).mpr fun i hi => ?_
        rw [hLength, Nat.add_assoc, Nat.add_comm 1 i]
        exact hAll (i + 1) (Nat.succ_lt_succ hi)

/-! ### One line -/

/-- The line does not lead the record astray: what Windows refuses would have
changed nothing, and only the two buttons that are injected are pressed. -/
def CarefulInput (o : Nat → Bool) (s : InputHelper) (r : DesktopInput) : Prop :=
  (r.kind = "release" →
    ∀ i < s.buttons.keys.length + s.pressed.keys.length, o (s.log.length + i) = true) ∧
  (r.kind = "key" → virtualKey r.code ≠ 0 →
    o s.log.length = true ∨ (virtualKey r.code ∈ s.pressed ↔ r.down = true)) ∧
  (r.kind = "button" →
    if r.button = 0 ∨ r.button = 2 then o s.log.length = true ∨ (r.button ∈ s.buttons ↔ r.down = true)
    else r.down = false)

def Careful (o : Nat → Bool) (s : InputHelper) (l : InputLine) : Prop :=
  ∀ r, l.input = .ok r → s.CarefulInput o r

theorem tracked_release (h : s.Tracked) (order : MapOrder) : (s.release o order).Tracked ↔
    ∀ i < s.buttons.keys.length + s.pressed.keys.length, o (s.log.length + i) = true := by
  rw [release_eq, tracked_releases h (nodup_controls order s) fun c hc => mem_controls.mp hc,
    length_controls]

theorem log_keyInput (r : DesktopInput) (hKey : virtualKey r.code ≠ 0) : (s.keyInput o r).1.log =
    s.log ++ [(.keyboard (virtualKey r.code) (if r.down then 0 else 2), o s.log.length)] := by
  rw [keyInput, if_neg hKey]
  rfl

/-- A key is tracked as its event tells. -/
theorem tracks_keyInput (r : DesktopInput) (hKey : virtualKey r.code ≠ 0) (x : Control) :
    (s.keyInput o r).1.Tracks x ↔ if x = .key (virtualKey r.code) then r.down = true else s.Tracks x := by
  rw [keyInput, if_neg hKey]
  cases x with
  | key k =>
      have hMem := Tables.mem_insert_or_erase s.pressed (virtualKey r.code) k true r.down
      simp only [Control.key.injEq]
      exact hMem
  | button n => exact Iff.rfl

/-- The two buttons are sent with the flags of their own. -/
theorem log_buttonInput (r : DesktopInput) (hButton : r.button = 0 ∨ r.button = 2) :
    (s.buttonInput o r).1.log = s.log ++ [(.mouse 0 0 0 (if r.down then if r.button = 0 then 2 else 8
      else (if r.button = 0 then 2 else 8) * 2), o s.log.length)] := by
  rw [buttonInput]
  dsimp only
  rw [if_pos hButton]
  rfl

theorem log_otherButton (r : DesktopInput) (hButton : ¬(r.button = 0 ∨ r.button = 2)) :
    (s.buttonInput o r).1.log = s.log := by
  rw [buttonInput]
  dsimp only
  rw [if_neg hButton]

/-- A button line records its own button, whether Windows takes the event or not. -/
theorem tracks_buttonInput (r : DesktopInput) (x : Control) :
    (s.buttonInput o r).1.Tracks x ↔ if x = .button r.button then r.down = true else s.Tracks x := by
  have hMem : ∀ n : Int, n ∈ (s.buttonInput o r).1.buttons ↔
      if n = r.button then r.down = true else n ∈ s.buttons := by
    intro n
    rw [← Tables.mem_insert_or_erase s.buttons r.button n true r.down, buttonInput]
    dsimp only
    split <;> rfl
  have hPressed : (s.buttonInput o r).1.pressed = s.pressed := by
    rw [buttonInput]
    dsimp only
    split <;> rfl
  cases x with
  | key k =>
      rw [Tracks, hPressed]
      exact Iff.rfl
  | button n =>
      simp only [Control.button.injEq]
      exact hMem n

theorem tracked_key (h : s.Tracked) (r : DesktopInput) : (s.keyInput o r).1.Tracked ↔
    (virtualKey r.code ≠ 0 →
      o s.log.length = true ∨ (virtualKey r.code ∈ s.pressed ↔ r.down = true)) := by
  by_cases hNone : virtualKey r.code = 0
  · rw [keyInput, if_pos hNone]
    exact iff_of_true h fun hKey => absurd hNone hKey
  · rw [tracked_event h (log_keyInput r hNone) (press_key (virtualKey r.code) r.down)
      (tracks_keyInput r hNone)]
    exact ⟨fun hTracked _ => hTracked, fun hTracked => hTracked hNone⟩

/-- When a button line keeps the record. -/
theorem tracked_button (h : s.Tracked) (r : DesktopInput) : (s.buttonInput o r).1.Tracked ↔
    if r.button = 0 ∨ r.button = 2 then
      o s.log.length = true ∨ (r.button ∈ s.buttons ↔ r.down = true)
    else r.down = false := by
  have hTracks := tracks_buttonInput (o := o) (s := s) r
  by_cases hButton : r.button = 0 ∨ r.button = 2
  · rw [if_pos hButton]
    exact tracked_event h (log_buttonInput r hButton) (press_button hButton r.down) hTracks
  · have hLog : (s.buttonInput o r).1.log = s.log := log_otherButton r hButton
    have hUp : held s.log (.button r.button) ≠ true := fun hHeld => hButton (held_known hHeld)
    rw [if_neg hButton]
    constructor
    · intro hAfter
      by_contra hDown
      have hRecord := (hTracks (.button r.button)).mpr (by simpa using hDown)
      rw [hAfter, hLog] at hRecord
      exact hUp hRecord
    · intro hDown x
      rw [hTracks, hLog]
      by_cases hx : x = .button r.button
      · rw [if_pos hx, hDown, hx]
        exact iff_of_false Bool.false_ne_true hUp
      · rw [if_neg hx]
        exact h x

/-- A movement of the mouse changes no control. -/
theorem tracked_mouse (h : s.Tracked) {dx dy data flags : UInt32}
    (hFlags : ∀ c, (WinInput.mouse dx dy data flags).press c = none) :
    (s.send o (.mouse dx dy data flags)).1.Tracked := by
  intro c
  rw [send, held_concat, hFlags, Option.getD_none, ite_self]
  exact h c

/-- One line keeps the record exactly when it is careful. -/
theorem tracked_handle (h : s.Tracked) (l : InputLine) :
    (s.handle o l).1.Tracked ↔ s.Careful o l := by
  unfold handle
  split
  · next e hLine => exact iff_of_true h fun r hr => by rw [hLine] at hr; cases hr
  · next r hLine =>
      have hInput : s.Careful o l ↔ s.CarefulInput o r :=
        ⟨fun hAll => hAll r hLine, fun hr r' hr' => by rw [hLine] at hr'; cases hr'; exact hr⟩
      rw [hInput, CarefulInput]
      split
      · next hKind =>
          rw [hKind]
          simpa using tracked_release h l.order
      · next hKind =>
          rw [hKind]
          simpa using tracked_key h r
      · next hKind =>
          rw [hKind, moveInput]
          refine iff_of_true ?_ (by simp)
          split_ifs with hPointer
          · exact h
          · exact tracked_mouse h (press_none (by decide))
      · next hKind =>
          rw [hKind]
          simpa using tracked_button h r
      · next hKind =>
          rw [hKind, wheelInput]
          refine iff_of_true ?_ (by simp)
          split_ifs with hWheel
          · exact h
          · exact tracked_mouse h (press_none (by decide))
      · next hRelease hKey hMove hButton hWheel =>
          exact iff_of_true h ⟨fun hKind => absurd hKind hRelease, fun hKind => absurd hKind hKey,
            fun hKind => absurd hKind hButton⟩

/-! ### All lines -/

/-- `release`, started here, would inject one event that lets go of each control
that is held, and no other event. -/
def ReleasesHeld (o : Nat → Bool) (s : InputHelper) : Prop :=
  ∀ order, ∃ ups : List Control, ups.Nodup ∧ (∀ c, c ∈ ups ↔ held s.log c = true) ∧
    (s.release o order).log = s.log ++ releases o s.log.length ups

theorem Tracked.releasesHeld (h : s.Tracked) (o : Nat → Bool) : s.ReleasesHeld o := fun order =>
  ⟨s.controls order, nodup_controls order s, fun c => mem_controls.trans (h c), by
    rw [release_eq, log_releases]⟩

theorem run_concat (o : Nat → Bool) (lines : List InputLine) (l : InputLine) :
    run o (lines ++ [l]) = ((run o lines).handle o l).1 := by
  simp [run]

theorem tracked_start : start.Tracked := by
  intro c
  cases c <;> simp [Tracks, start, held]

/-- Careful lines keep the record. -/
theorem tracked_run (o : Nat → Bool) (lines : List InputLine)
    (h : ∀ before l after, lines = before ++ l :: after → (run o before).Careful o l) :
    (run o lines).Tracked := by
  induction lines using List.reverseRecOn with
  | nil => exact tracked_start
  | append_singleton before l ih =>
      rw [run_concat]
      refine (tracked_handle (ih fun before' l' after hLines => ?_) l).mpr (h before l [] rfl)
      exact h before' l' (after ++ [l]) (by rw [hLines]; simp)

/-- After careful lines the end of the input lets go of each control that is held,
and does nothing else; nothing is held any more if Windows takes those events. -/
theorem inputMain_releases (o : Nat → Bool) (lines : List InputLine) (order : MapOrder)
    (h : ∀ before l after, lines = before ++ l :: after → (run o before).Careful o l) :
    ∃ ups : List Control, ups.Nodup ∧ (∀ c, c ∈ ups ↔ held (run o lines).log c = true) ∧
      (inputMain o lines order).log = (run o lines).log ++ releases o (run o lines).log.length ups ∧
      ((∀ i < ups.length, o ((run o lines).log.length + i) = true) →
        ∀ c, held (inputMain o lines order).log c = false) := by
  have hTracked := tracked_run o lines h
  refine ⟨(run o lines).controls order, nodup_controls order _, fun c => mem_controls.trans (hTracked c),
    by rw [inputMain, release_eq, log_releases], fun hTaken c => ?_⟩
  have hAfter : (inputMain o lines order).Tracked := by
    rw [inputMain, release_eq]
    exact (tracked_releases hTracked (nodup_controls order _) fun c hc => mem_controls.mp hc).mpr hTaken
  rw [Bool.eq_false_iff]
  intro hHeld
  have hTracks := (hAfter c).mpr hHeld
  rw [inputMain, release_eq] at hTracks
  obtain ⟨hOut, hIn⟩ := tracks_releases.mp hTracks
  exact hOut (mem_controls.mpr hIn)

/-- The record is exact all the time, and so is every release, exactly when no
line leads it astray. -/
theorem input_tracked_iff (o : Nat → Bool) (lines : List InputLine) :
    (∀ before after, lines = before ++ after →
      (run o before).Tracked ∧ (run o before).ReleasesHeld o) ↔
    ∀ before l after, lines = before ++ l :: after → (run o before).Careful o l := by
  constructor
  · rintro hAll before l after rfl
    have hBefore := (hAll before (l :: after) rfl).1
    have hAfter := (hAll (before ++ [l]) after (by simp)).1
    rw [run_concat] at hAfter
    exact (tracked_handle hBefore l).mp hAfter
  · intro hCareful before after hLines
    have hTracked := tracked_run o before fun earlier l rest hBefore =>
      hCareful earlier l (rest ++ after) (by rw [hLines, hBefore]; simp)
    exact ⟨hTracked, hTracked.releasesHeld o⟩

def plainOrder : MapOrder := ⟨id, id, fun l => .refl l, fun l => .refl l⟩

/-- Pressing the middle button. -/
def middleDown : InputLine := ⟨.ok ⟨"button", 0, 0, 1, true, "", 0⟩, plainOrder⟩

theorem middle_button_recorded : ¬∀ (o : Nat → Bool) (lines before after : List InputLine),
    lines = before ++ after → (run o before).Tracked ∧ (run o before).ReleasesHeld o := by
  intro hAll
  have hTracked := (hAll (fun _ => true) [middleDown] [middleDown] [] rfl).1
  have hRun : run (fun _ => true) [middleDown] = ⟨∅, AList.insert 1 true ∅, []⟩ := by
    simp [run, handle, middleDown, buttonInput, start]
  rw [hRun] at hTracked
  have hHeld := (hTracked (.button 1)).mp (AList.mem_insert _ |>.mpr (.inl rfl))
  cases hHeld

/-! ### Letting go of everything -/

/-- Whatever is held is in the record. -/
def Covered (s : InputHelper) : Prop := ∀ c, held s.log c = true → s.Tracks c

/-- Windows takes every event that lets go of a control that is held. -/
def FreesInput (o : Nat → Bool) (s : InputHelper) (r : DesktopInput) : Prop :=
  (r.kind = "key" → r.down = false → held s.log (.key (virtualKey r.code)) = true →
    o s.log.length = true) ∧
  (r.kind = "button" → r.down = false → held s.log (.button r.button) = true → o s.log.length = true)

/-- The same of a release. -/
def FreesAll (o : Nat → Bool) (s : InputHelper) (order : MapOrder) : Prop :=
  ∀ i c, (s.controls order)[i]? = some c → held s.log c = true → o (s.log.length + i) = true

def Frees (o : Nat → Bool) (s : InputHelper) (l : InputLine) : Prop :=
  ∀ r, l.input = .ok r → s.FreesInput o r ∧ (r.kind = "release" → s.FreesAll o l.order)

/-- One event: what it presses is recorded, and what leaves the record was not
held or is let go of. -/
theorem covered_event (h : s.Covered) {i : WinInput} {taken : Bool}
    (hLog : s'.log = s.log ++ [(i, taken)]) (hNew : ∀ x, i.press x = some true → s'.Tracks x)
    (hOld : ∀ x, s.Tracks x → s'.Tracks x ∨ held s.log x = false ∨ (taken = true ∧ i.press x = some false)) :
    s'.Covered := by
  intro x hx
  rw [hLog, held_concat] at hx
  have hStays : held s.log x = true → (taken = true → i.press x ≠ some false) → s'.Tracks x := by
    intro hHeld hUp
    rcases hOld x (h x hHeld) with hIn | hFree | ⟨hTaken, hPress⟩
    · exact hIn
    · rw [hHeld] at hFree
      cases hFree
    · exact absurd hPress (hUp hTaken)
  cases taken with
  | false => exact hStays hx fun hTaken => by cases hTaken
  | true =>
      cases hPress : i.press x with
      | none =>
          rw [hPress] at hx
          exact hStays hx fun _ => by simp [hPress]
      | some down =>
          rw [hPress] at hx
          exact hNew x (hPress.trans (congrArg some hx))

/-- An event on one control, recorded as what it was meant to do. -/
theorem covered_set (h : s.Covered) {i : WinInput} {taken down : Bool} {c : Control}
    (hLog : s'.log = s.log ++ [(i, taken)])
    (hPress : ∀ x, i.press x = if x = c then some down else none)
    (hTracks : ∀ x, s'.Tracks x ↔ if x = c then down = true else s.Tracks x)
    (hFrees : down = false → held s.log c = true → taken = true) : s'.Covered := by
  refine covered_event h hLog (fun x hx => ?_) fun x hx => ?_
  · rw [hPress] at hx
    rw [hTracks]
    split_ifs at hx ⊢
    exact Option.some.inj hx
  · rw [hTracks, hPress]
    by_cases hSame : x = c
    · subst hSame
      rw [if_pos rfl, if_pos rfl]
      cases hDown : down with
      | true => exact .inl rfl
      | false =>
          cases hHeld : held s.log x with
          | false => exact .inr (.inl rfl)
          | true => exact .inr (.inr ⟨hFrees hDown hHeld, rfl⟩)
    · rw [if_neg hSame]
      exact .inl hx

/-- Letting go presses nothing. -/
theorem up_presses_nothing (c x : Control) : c.up.press x ≠ some true := by
  cases c with
  | key vk =>
      rw [show Control.up (.key vk) = .keyboard vk (if false then 0 else 2) from rfl, press_key]
      split <;> simp
  | button n =>
      cases x with
      | key k => simp [Control.up, WinInput.press]
      | button m =>
          have hFlags : (16 : UInt32) &&& 4 = 0 ∧ (16 : UInt32) &&& 2 = 0 ∧ (4 : UInt32) &&& 16 = 0 ∧
              (4 : UInt32) &&& 8 = 0 := by decide
          by_cases hn : n = 2 <;> by_cases hLeft : m = 0 <;> by_cases hRight : m = 2 <;>
            simp [Control.up, WinInput.press, hn, hLeft, hRight, hFlags]

/-- An event that lets go presses nothing new. -/
theorem held_of_up {log : List (WinInput × Bool)} {c x : Control} {taken : Bool}
    (h : held (log ++ [(c.up, taken)]) x = true) : held log x = true := by
  rw [held_concat] at h
  cases taken with
  | false => exact h
  | true =>
      cases hPress : c.up.press x with
      | none => simpa [hPress] using h
      | some down =>
          rw [hPress] at h
          exact absurd (hPress.trans (congrArg some h)) (up_presses_nothing c x)

/-- A release lets go of every control that is held, if Windows takes those events. -/
theorem covered_releases (h : s.Covered) {l : List Control}
    (hFrees : ∀ i c, l[i]? = some c → held s.log c = true → o (s.log.length + i) = true) :
    (l.foldl (releaseControl o) s).Covered := by
  induction l generalizing s with
  | nil => exact h
  | cons c rest ih =>
      have hFirst : (s.releaseControl o c).Covered := by
        refine covered_event h (log_releaseControl o s c)
          (fun x hx => absurd hx (up_presses_nothing c x)) fun x hx => ?_
        rw [tracks_releaseControl]
        by_cases hSame : x = c
        · subst hSame
          cases hHeld : held s.log x with
          | false => exact .inr (.inl rfl)
          | true =>
              refine .inr (.inr ⟨hFrees 0 x rfl hHeld, ?_⟩)
              rw [press_up (held_known hHeld), if_pos rfl]
        · exact .inl ⟨hSame, hx⟩
      refine ih hFirst fun i d hd hHeld => ?_
      rw [log_releaseControl] at hHeld ⊢
      rw [List.length_append, List.length_singleton, Nat.add_assoc, Nat.add_comm 1 i]
      exact hFrees (i + 1) d hd (held_of_up hHeld)

theorem covered_release (h : s.Covered) {order : MapOrder} (hFrees : s.FreesAll o order) :
    (s.release o order).Covered := by
  rw [release_eq]
  exact covered_releases h hFrees

/-- A release that Windows takes leaves nothing down. -/
theorem released (h : s.Covered) {order : MapOrder} (hFrees : s.FreesAll o order) (c : Control) :
    held (s.release o order).log c = false := by
  refine Bool.eq_false_iff.mpr fun hHeld => ?_
  have hTracks := covered_release h hFrees c hHeld
  rw [release_eq] at hTracks
  obtain ⟨hOut, hIn⟩ := tracks_releases.mp hTracks
  exact hOut (mem_controls.mpr hIn)

/-- A button line that lets go of what is held loses nothing from the record. -/
theorem covered_button (h : s.Covered) (r : DesktopInput) (hFrees : r.down = false →
    held s.log (.button r.button) = true → o s.log.length = true) : (s.buttonInput o r).1.Covered := by
  have hTracks := tracks_buttonInput (o := o) (s := s) r
  by_cases hButton : r.button = 0 ∨ r.button = 2
  · exact covered_set h (log_buttonInput r hButton) (press_button hButton r.down) hTracks hFrees
  · intro x hx
    rw [hTracks]
    rw [log_otherButton r hButton] at hx
    split_ifs with hSame
    · have hKnown : (Control.button r.button).Known := held_known (hSame ▸ hx)
      exact absurd hKnown hButton
    · exact h x hx

theorem covered_mouse (h : s.Covered) {dx dy data flags : UInt32}
    (hFlags : ∀ c, (WinInput.mouse dx dy data flags).press c = none) :
    (s.send o (.mouse dx dy data flags)).1.Covered :=
  covered_event h rfl (fun x hx => by rw [hFlags] at hx; cases hx) fun _ hx => .inl hx

/-- One line keeps all that is held in the record. -/
theorem covered_handle (h : s.Covered) {l : InputLine} (hFrees : s.Frees o l) :
    (s.handle o l).1.Covered := by
  unfold handle
  split
  · exact h
  · next r hLine =>
      obtain ⟨⟨hKey, hButton⟩, hAll⟩ := hFrees r hLine
      split
      · next hKind => exact covered_release h (hAll hKind)
      · next hKind =>
          by_cases hNone : virtualKey r.code = 0
          · rw [keyInput, if_pos hNone]
            exact h
          · exact covered_set h (log_keyInput r hNone) (press_key (virtualKey r.code) r.down)
              (tracks_keyInput r hNone) (hKey hKind)
      · rw [moveInput]
        split_ifs with hPointer
        · exact h
        · exact covered_mouse h (press_none (by decide))
      · next hKind => exact covered_button h r (hButton hKind)
      · rw [wheelInput]
        split_ifs with hWheel
        · exact h
        · exact covered_mouse h (press_none (by decide))
      · exact h

end InputHelper

end NetConductor
