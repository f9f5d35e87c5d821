import NetConductor.Remote.Transfer

/-! What a request to open the terminal leaves behind when it fails. -/
namespace NetConductor

/-- The calls that opening the terminal makes, in order. -/
inductive OpeningStep where
  | newSession
  | stdinPipe
  | requestPty
  | shell
deriving DecidableEq

/-- The first of the calls that fails. -/
def Outside.failsAt (out : Outside) : Option OpeningStep :=
  if out.newSession.isOk = false then some .newSession
  else if out.stdinPipe.isOk = false then some .stdinPipe
  else if out.requestPty.isOk = false then some .requestPty
  else if out.shell.isOk = false then some .shell
  else none

/-- Two sessions that hold the same ends open, whatever was done to get there. -/
structure SameEnds (s t : Access) : Prop where
  cfg : s.cfg = t.cfg
  mode : s.mode = t.mode
  client : s.client = t.client
  files : s.files = t.files
  terminal : s.terminal = t.terminal
  stdin : s.stdin = t.stdin

theorem SameEnds.refl (s : Access) : SameEnds s s := ⟨rfl, rfl, rfl, rfl, rfl, rfl⟩

namespace Access
open Routine

/-- What each of the requests is answered with. -/
def answers (s : Access) : List (Outside × RemoteRequest) → List (Except Refusal RemoteResult)
  | [] => []
  | t :: rest => ((handle t.1 t.2).outcome s).1 :: (s.after t).answers rest

/-! ### Answers depend on the open ends only -/

abbrev Alike {α : Type} (x y : Handling α) : Prop := Routine.Alike SameEnds x y

theorem perform_alike {α : Type} (a : Act) (answer : Except String α) :
    Alike (perform a answer) (perform a answer) :=
  .bind (.modify fun _ _ h => { h with }) fun _ => .ofAnswer _

theorem deref_alike {present : Access → Bool} (h : ∀ s t, SameEnds s t → present s = present t) :
    Alike (deref present) (deref present) := by
  refine .get_bind fun s t hst => ?_
  rw [h s t hst]
  exact .ite (.pure _) (.bind (.modify fun _ _ h => { h with }) fun _ => .throw _)

/-- Connecting cannot tell two such sessions apart. -/
theorem connect_alike (out : Outside) : Alike (connect out) (connect out) := by
  refine .bind (.modify fun _ _ h => { h with }) fun _ => .get_bind fun s t hst => ?_
  rw [hst.client, hst.cfg]
  refine .ite (.pure _) ?_
  refine .bind (perform_alike _ _) fun _ => .bind (perform_alike _ _) fun _ => ?_
  refine .bind (perform_alike _ _) fun _ => .bind (perform_alike _ _) fun _ => ?_
  exact .modify fun _ _ h => { h with client := rfl }

/-- Sessions that are alike handle a request of the terminal alike. -/
theorem terminalRequest_alike (out : Outside) (r : RemoteRequest) :
    Alike (terminalRequest out r) (terminalRequest out r) := by
  unfold terminalRequest
  split
  · refine .get_bind fun s t hst => ?_
    rw [hst.terminal]
    refine .ite (.throw _) (.bind (deref_alike fun _ _ h => h.client) fun _ => ?_)
    refine .bind (perform_alike _ _) fun _ => ?_
    refine .bind (.modify fun _ _ h => { h with terminal := rfl, stdin := rfl }) fun _ => ?_
    refine .bind (perform_alike _ _) fun _ => .bind (perform_alike _ _) fun _ => ?_
    exact .bind (perform_alike _ _) fun _ => .pure _
  · refine .get_bind fun s t hst => ?_
    rw [hst.stdin]
    refine .ite (.throw _) (.bind (.ofAnswer _) fun b => ?_)
    refine .bind (deref_alike fun _ _ h => h.stdin) fun _ => ?_
    exact .bind (perform_alike _ _) fun _ => .pure _
  · refine .get_bind fun s t hst => ?_
    rw [hst.terminal]
    refine .ite (.throw _) (.bind (deref_alike fun _ _ h => h.terminal) fun _ => ?_)
    exact .bind (perform_alike _ _) fun _ => .pure _
  · exact .throw _

/-- In an SSH session every request but a ping connects first. -/
theorem handle_ssh {s : Access} (hMode : s.mode = "ssh") (out : Outside) {r : RemoteRequest}
    (hOp : r.op ≠ "ping") : (handle out r).outcome s =
      (do connect out; terminalRequest out r : Handling RemoteResult).outcome s := by
  have hOther : "ssh" ≠ "desktop" ∧ "ssh" ≠ "files" := by decide
  rw [handle, outcome_bind, outcome_get]
  dsimp only
  rw [hMode, if_neg hOp, if_neg hOther.1, if_neg hOther.2]

theorem handle_ping (s : Access) (out : Outside) {r : RemoteRequest} (hOp : r.op = "ping") :
    (handle out r).outcome s = (.ok .ready, s) := by
  rw [handle, outcome_bind, outcome_get]
  dsimp only
  rw [if_pos hOp, outcome_pure]

/-- No request can, in the mode of the terminal. -/
theorem handle_alike (out : Outside) (r : RemoteRequest) {s t : Access} (h : SameEnds s t)
    (hMode : s.mode = "ssh") :
    ((handle out r).outcome s).1 = ((handle out r).outcome t).1 ∧
      SameEnds (s.after (out, r)) (t.after (out, r)) := by
  by_cases hOp : r.op = "ping"
  · rw [after, after, handle_ping s out hOp, handle_ping t out hOp]
    exact ⟨rfl, h⟩
  · rw [after, after, handle_ssh hMode out hOp, handle_ssh (h.mode.symm.trans hMode) out hOp]
    exact Routine.Alike.bind (connect_alike out) (fun _ => terminalRequest_alike out r) s t h

/-! ### What a request leaves open -/

theorem perform_keeps {α : Type} {P : Access → Prop} {a : Act} {answer : Except String α}
    (hP : ∀ s, P s → P { s with acts := s.acts ++ [a] }) : Keeps P (perform a answer) :=
  .bind (Q := fun _ => P) (.modify hP) fun _ => .ofAnswer (fun _ _ hs => hs) fun _ hs => hs

theorem deref_keeps {P : Access → Prop} {present : Access → Bool}
    (hP : ∀ s, P s → P { s with crashed := true }) : Keeps P (deref present) := by
  refine .get_bind fun s => .ite (fun _ => .pure fun t ht => ht.1) fun _ => ?_
  exact .bind (Q := fun _ => P) (.modify fun t ht => hP t ht.1) fun _ => .throw fun _ ht => ht

/-- The terminal of `s`, and its connection if it has one. -/
structure Holds (s t : Access) : Prop where
  mode : t.mode = s.mode
  client : s.client = true → t.client = true
  terminal : t.terminal = s.terminal
  stdin : t.stdin = s.stdin

/-- A connection made, or tried in vain, leaves everything else as it was. -/
theorem connect_ends (out : Outside) (s : Access) :
    Meets (fun t => SameEnds t s) (connect out) (fun _ t => SameEnds t { s with client := true })
      fun t => SameEnds t s := by
  have hPerform : ∀ {α : Type} (a : Act) (answer : Except String α),
      Keeps (fun t => SameEnds t s) (perform a answer) := fun a answer =>
    perform_keeps fun _ ht => { ht with }
  refine .bind (Q := fun _ t => SameEnds t s) (.modify fun _ ht => { ht with }) fun _ => ?_
  refine .get_bind fun t => .ite (fun hClient => .pure ?_) fun _ => ?_
  · rintro u ⟨hu, rfl⟩
    exact { hu with client := hClient }
  · refine .weaken (P := fun t => SameEnds t s) ?_ fun _ ht => ht.1
    refine .bind (hPerform _ _) fun _ => .bind (hPerform _ _) fun _ => ?_
    refine .bind (hPerform _ _) fun _ => .bind (hPerform _ _) fun _ => ?_
    exact .modify fun _ ht => { ht with client := rfl }

/-- Connecting leaves the mode, the terminal and its input as they are. -/
theorem connect_holds (out : Outside) (s : Access) : Keeps (Holds s) (connect out) := by
  intro t ht
  have hEnd := connect_ends out t t (.refl t)
  generalize (connect out).outcome t = x at hEnd ⊢
  rcases x with ⟨r, u⟩
  cases r with
  | ok a =>
      exact ⟨hEnd.mode.trans ht.mode, fun _ => hEnd.client, hEnd.terminal.trans ht.terminal,
        hEnd.stdin.trans ht.stdin⟩
  | error e =>
      exact ⟨hEnd.mode.trans ht.mode, fun hOpen => hEnd.client.trans (ht.client hOpen),
        hEnd.terminal.trans ht.terminal, hEnd.stdin.trans ht.stdin⟩

theorem writeStdin_holds (out : Outside) (data : String) (s : Access) :
    Keeps (Holds s) (writeStdin out data) := by
  refine .get_bind fun t => .weaken (P := Holds s) ?_ fun _ ht => ht.1
  refine .ite (fun _ => .throw fun _ ht => ht) fun _ => ?_
  refine .bind (.ofAnswer (fun _ _ ht => ht) fun _ ht => ht) fun b => ?_
  refine .bind (deref_keeps fun _ ht => { ht with }) fun _ => ?_
  exact .bind (perform_keeps fun _ ht => { ht with }) fun _ => .pure fun _ ht => ht

theorem resize_holds (out : Outside) (cols rows : Int) (s : Access) :
    Keeps (Holds s) (resize out cols rows) := by
  refine .get_bind fun t => .weaken (P := Holds s) ?_ fun _ ht => ht.1
  refine .ite (fun _ => .throw fun _ ht => ht) fun _ => ?_
  refine .bind (deref_keeps fun _ ht => { ht with }) fun _ => ?_
  exact .bind (perform_keeps fun _ ht => { ht with }) fun _ => .pure fun _ ht => ht

/-- Only a request to open the terminal touches it. -/
theorem others_hold {s : Access} (hMode : s.mode = "ssh") (out : Outside) {r : RemoteRequest}
    (hOp : r.op ≠ "terminal") : Holds s (s.after (out, r)) := by
  have hSame : Holds s s := ⟨rfl, id, rfl, rfl⟩
  by_cases hPing : r.op = "ping"
  · rw [after, handle_ping s out hPing]
    exact hSame
  · rw [after, handle_ssh hMode out hPing]
    refine Keeps.outcome (.bind (connect_holds out s) fun _ => ?_) hSame
    unfold terminalRequest
    split
    · next hTerminal => exact absurd hTerminal hOp
    · exact writeStdin_holds out _ s
    · exact resize_holds out _ _ s
    · exact .throw fun _ ht => ht

theorem connect_connected {s : Access} (h : s.client = true) (out : Outside) :
    (connect out).outcome s = (.ok ⟨⟩, { s with acts := s.acts ++ [.connect] }) := by
  simp [connect, outcome_bind, h]

theorem terminalRequest_terminal (out : Outside) {r : RemoteRequest} (hOp : r.op = "terminal") :
    terminalRequest out r = openTerminal out := by
  simp [terminalRequest, hOp]

/-! ### Opening the terminal -/

/-- The ends open after a failure at the given call. -/
def leftBy (p : OpeningStep) (s : Access) : Access :=
  match p with
  | .newSession => s
  | .stdinPipe => { s with terminal := true, stdin := false }
  | .requestPty | .shell => { s with terminal := true, stdin := true }

/-- Each step that can fail leaves the ends that were there when it failed. -/
theorem openTerminal_fails {s : Access} (hClient : s.client = true) (hNone : s.terminal = false)
    {out : Outside} {p : OpeningStep} (h : out.failsAt = some p) :
    (∃ e, ((openTerminal out).outcome s).1 = .error e) ∧
      SameEnds ((openTerminal out).outcome s).2 (leftBy p s) := by
  have hFail : ∀ {x : Except String Unit}, x.isOk = false → ∃ e, x = .error e := fun {x} hx => by
    cases x with
    | error e => exact ⟨e, rfl⟩
    | ok a => cases hx
  have hOk : ∀ {x : Except String Unit}, ¬x.isOk = false → x = .ok () := fun {x} hx => by
    cases x with
    | error e => exact absurd rfl hx
    | ok a => rfl
  unfold Outside.failsAt at h
  split_ifs at h with hSession hPipe hPty hShell
  · cases h
    obtain ⟨e, hSession⟩ := hFail hSession
    have hEnd : (openTerminal out).outcome s =
        (.error (refuse e), { s with acts := s.acts ++ [.newSession] }) := by
      simp [openTerminal, deref, outcome_bind, hNone, hClient, hSession, Except.mapError]
    rw [hEnd]
    exact ⟨⟨_, rfl⟩, { SameEnds.refl s with }⟩
  · cases h
    have hSession := hOk hSession
    obtain ⟨e, hPipe⟩ := hFail hPipe
    have hEnd : (openTerminal out).outcome s =
        (.error (refuse e), { s with
          acts := s.acts ++ [.newSession, .stdinPipe], terminal := true, stdin := false }) := by
      simp [openTerminal, deref, outcome_bind, hNone, hClient, hSession, hPipe, Except.mapError,
        Except.isOk, Except.toBool]
    rw [hEnd]
    exact ⟨⟨_, rfl⟩, { SameEnds.refl s with terminal := rfl, stdin := rfl }⟩
  · cases h
    have hSession := hOk hSession
    have hPipe := hOk hPipe
    obtain ⟨e, hPty⟩ := hFail hPty
    have hEnd : (openTerminal out).outcome s =
        (.error (refuse e), { s with
          acts := s.acts ++ [.newSession, .stdinPipe, .requestPty "xterm-256color" 30 110]
          terminal := true, stdin := true }) := by
      simp [openTerminal, deref, outcome_bind, hNone, hClient, hSession, hPipe, hPty, Except.mapError,
        Except.isOk, Except.toBool]
    rw [hEnd]
    exact ⟨⟨_, rfl⟩, { SameEnds.refl s with terminal := rfl, stdin := rfl }⟩
  · cases h
    have hSession := hOk hSession
    have hPipe := hOk hPipe
    have hPty := hOk hPty
    obtain ⟨e, hShell⟩ := hFail hShell
    have hEnd : (openTerminal out).outcome s =
        (.error (refuse e), { s with
          acts := s.acts ++ [.newSession, .stdinPipe, .requestPty "xterm-256color" 30 110, .shell]
          terminal := true, stdin := true }) := by
      simp [openTerminal, deref, outcome_bind, hNone, hClient, hSession, hPipe, hPty, hShell,
        Except.mapError, Except.isOk, Except.toBool, Except.map]
    rw [hEnd]
    exact ⟨⟨_, rfl⟩, { SameEnds.refl s with terminal := rfl, stdin := rfl }⟩

/-- Opening begins with a new SSH session. -/
theorem openTerminal_attempts {s : Access} (hClient : s.client = true) (hNone : s.terminal = false)
    (out : Outside) :
    ∃ rest, ((openTerminal out).outcome s).2.acts = s.acts ++ .newSession :: rest := by
  have hGrows : ∀ (a : Act) (answer : Except String Unit),
      Keeps (fun t => ∃ rest, t.acts = s.acts ++ .newSession :: rest) (perform a answer) :=
    fun a answer => perform_keeps fun t ⟨rest, ht⟩ => ⟨rest ++ [a], by simp [ht]⟩
  have hMeets : Meets (· = s) (openTerminal out)
      (fun _ t => ∃ rest, t.acts = s.acts ++ .newSession :: rest)
      fun t => ∃ rest, t.acts = s.acts ++ .newSession :: rest := by
    refine .get_bind fun t => .ite (fun hOpen => ?_) fun _ => ?_
    · rintro u ⟨rfl, rfl⟩
      rw [hNone] at hOpen
      cases hOpen
    refine .weaken (P := (· = s)) ?_ fun u hu => hu.1
    refine .bind (Q := fun _ u => u = s) ?_ fun _ => ?_
    · refine .get_bind fun u => .ite (fun _ => .pure fun v hv => hv.1) fun hAbsent => ?_
      rintro v ⟨rfl, rfl⟩
      exact absurd hClient hAbsent
    refine .bind (.bind (Q := fun _ t => ∃ rest, t.acts = s.acts ++ .newSession :: rest)
      (.modify fun u hu => ⟨[], by rw [hu]⟩) fun _ => .ofAnswer (fun _ _ hu => hu) fun _ hu => hu) fun _ => ?_
    refine .bind (.modify (Q := fun _ t => ∃ rest, t.acts = s.acts ++ .newSession :: rest)
      fun _ hu => hu) fun _ => ?_
    refine .bind (hGrows _ _) fun _ => .bind (hGrows _ _) fun _ => ?_
    exact .bind (hGrows _ _) fun _ => .pure fun _ hu => hu
  exact hMeets.ends rfl

/-! ### After the failure -/

/-- A pipe to the terminal is there only with the terminal. -/
def Piped (s : Access) : Prop := s.mode = "ssh" ∧ (s.stdin = true → s.terminal = true)

theorem Piped.of_holds {s t : Access} (h : Piped s) (hHolds : Holds s t) : Piped t :=
  ⟨hHolds.mode.trans h.1, fun hOpen => hHolds.terminal.trans (h.2 (hHolds.stdin.symm.trans hOpen))⟩

theorem openTerminal_piped (out : Outside) : Keeps Piped (openTerminal out) := by
  have hPerform : ∀ (a : Act) (answer : Except String Unit), Keeps Piped (perform a answer) :=
    fun a answer => perform_keeps fun _ ht => ht
  refine .get_bind fun s => .weaken (P := Piped) ?_ fun _ ht => ht.1
  refine .ite (fun _ => .throw fun _ ht => ht) fun _ => ?_
  refine .bind (deref_keeps fun _ ht => ht) fun _ => .bind (hPerform _ _) fun _ => ?_
  refine .bind (Q := fun _ => Piped) (.modify fun _ ht => ⟨ht.1, fun _ => rfl⟩) fun _ => ?_
  refine .bind (hPerform _ _) fun _ => .bind (hPerform _ _) fun _ => ?_
  exact .bind (hPerform _ _) fun _ => .pure fun _ ht => ht

/-- Every request keeps the terminal and its input together. -/
theorem Piped.after {s : Access} (h : Piped s) (t : Outside × RemoteRequest) : Piped (s.after t) := by
  obtain ⟨out, r⟩ := t
  by_cases hOp : r.op = "terminal"
  · have hConnect : Keeps Piped (connect out) := fun t ht => by
      have hEnd := connect_holds out t t ⟨rfl, id, rfl, rfl⟩
      generalize (connect out).outcome t = x at hEnd ⊢
      rcases x with ⟨a | e, u⟩
      · exact ht.of_holds hEnd
      · exact ht.of_holds hEnd
    rw [Access.after, handle_ssh h.1 out (by simp [hOp]), terminalRequest_terminal out hOp]
    exact Keeps.outcome (.bind hConnect fun _ => openTerminal_piped out) h
  · exact h.of_holds (others_hold h.1 out hOp)

theorem Piped.foldl {s : Access} (h : Piped s) (requests : List (Outside × RemoteRequest)) :
    Piped (requests.foldl Access.after s) := by
  induction requests generalizing s with
  | nil => exact h
  | cons t rest ih => exact ih (h.after t)

/-- Later requests are answered as by a session that has its connection, but
was not asked for a terminal: it attempts to open one when it is asked again,
and until then refuses input for it. -/
structure AsIfNotMade (s s' : Access) : Prop where
  answers : ∀ later, s'.answers later = ({ s with client := true } : Access).answers later
  attempted : ∀ later : List (Outside × RemoteRequest), (∀ t ∈ later, t.2.op ≠ "terminal") →
    ∀ out r, r.op = "terminal" → ∃ rest, ((later.foldl after s').after (out, r)).acts =
      (later.foldl after s').acts ++ .connect :: .newSession :: rest
  refused : ∀ later : List (Outside × RemoteRequest), (∀ t ∈ later, t.2.op ≠ "terminal") →
    ∀ out r, r.op = "stdin" ∨ r.op = "resize" → ∃ e, ((handle out r).outcome (later.foldl after s')).1 = .error e

/-- Connected, with nothing of a terminal. -/
structure Vacant (s : Access) : Prop where
  mode : s.mode = "ssh"
  client : s.client = true
  terminal : s.terminal = false
  stdin : s.stdin = false

/-- Other requests leave the terminal closed. -/
theorem Vacant.others {s : Access} (h : Vacant s) {later : List (Outside × RemoteRequest)}
    (hLater : ∀ t ∈ later, t.2.op ≠ "terminal") : Vacant (later.foldl Access.after s) := by
  induction later generalizing s with
  | nil => exact h
  | cons t rest ih =>
      have hHolds := others_hold h.mode t.1 (hLater t List.mem_cons_self)
      refine ih ⟨hHolds.mode.trans h.mode, hHolds.client h.client, hHolds.terminal.trans h.terminal,
        hHolds.stdin.trans h.stdin⟩ fun u hu => hLater u (List.mem_cons_of_mem t hu)

/-- Without a terminal a request for one makes a new SSH session. -/
theorem Vacant.attempted {s : Access} (h : Vacant s) (out : Outside) {r : RemoteRequest}
    (hOp : r.op = "terminal") :
    ∃ rest, (s.after (out, r)).acts = s.acts ++ .connect :: .newSession :: rest := by
  obtain ⟨rest, hActs⟩ := openTerminal_attempts (s := { s with acts := s.acts ++ [.connect] }) h.client
    h.terminal out
  refine ⟨rest, ?_⟩
  rw [after, handle_ssh h.mode out (by simp [hOp]), outcome_bind, connect_connected h.client,
    terminalRequest_terminal out hOp]
  dsimp only
  rw [hActs, List.append_assoc, List.singleton_append]

/-- A closed terminal refuses its requests. -/
theorem Vacant.refused {s : Access} (h : Vacant s) (out : Outside) {r : RemoteRequest}
    (hOp : r.op = "stdin" ∨ r.op = "resize") : ∃ e, ((handle out r).outcome s).1 = .error e := by
  have hPing : r.op ≠ "ping" := by rcases hOp with hOp | hOp <;> simp [hOp]
  rw [handle_ssh h.mode out hPing, outcome_bind, connect_connected h.client]
  rcases hOp with hOp | hOp
  · refine ⟨refuse "terminal not open", ?_⟩
    simp [terminalRequest, hOp, writeStdin, outcome_bind, h.stdin]
  · refine ⟨refuse "invalid terminal size", ?_⟩
    simp [terminalRequest, hOp, resize, outcome_bind, h.terminal]

/-- The later answers are the same. -/
theorem answers_alike {s t : Access} (h : SameEnds s t) (hPiped : Piped s)
    (later : List (Outside × RemoteRequest)) : s.answers later = t.answers later := by
  induction later generalizing s t with
  | nil => rfl
  | cons x rest ih =>
      obtain ⟨hSame, hEnds⟩ := handle_alike x.1 x.2 h hPiped.1
      rw [answers, answers, hSame, ih hEnds (hPiped.after x)]

/-- A request that finds no terminal, and has its connection, leaves what the
failing call left. -/
theorem after_failure {s : Access} (h : Piped s) (hNone : s.terminal = false) {out : Outside}
    {r : RemoteRequest} (hOp : r.op = "terminal") (hConnect : ((connect out).outcome s).1.isOk = true)
    {p : OpeningStep} (hFail : out.failsAt = some p) :
    SameEnds (s.after (out, r)) (leftBy p { s with client := true }) := by
  have hEnds := connect_ends out s s (.refl s)
  rw [after, handle_ssh h.1 out (by simp [hOp]), outcome_bind, terminalRequest_terminal out hOp]
  generalize (connect out).outcome s = x at hConnect hEnds ⊢
  rcases x with ⟨e | a, t⟩
  · cases hConnect
  · have hLeft := (openTerminal_fails hEnds.client (hEnds.terminal.trans hNone) hFail).2
    cases p with
    | newSession => exact ⟨hLeft.cfg.trans hEnds.cfg, hLeft.mode.trans hEnds.mode,
        hLeft.client.trans hEnds.client, hLeft.files.trans hEnds.files,
        hLeft.terminal.trans hEnds.terminal, hLeft.stdin.trans hEnds.stdin⟩
    | stdinPipe | requestPty | shell => exact ⟨hLeft.cfg.trans hEnds.cfg, hLeft.mode.trans hEnds.mode,
        hLeft.client.trans hEnds.client, hLeft.files.trans hEnds.files, hLeft.terminal, hLeft.stdin⟩

/-- A request for a terminal that fails can be made again exactly when it failed
before the session had anything of the terminal. -/
theorem failed_terminal_retried_iff {cfg : RemoteConfig} {past : List (Outside × RemoteRequest)}
    {out : Outside} {r : RemoteRequest} {s : Access} {p : OpeningStep}
    (hs : s = past.foldl after (new cfg "ssh")) (hOp : r.op = "terminal") (hNone : s.terminal = false)
    (hConnect : ((connect out).outcome s).1.isOk = true) (hFail : out.failsAt = some p) :
    AsIfNotMade s (s.after (out, r)) ↔ p = .newSession := by
  have hPiped : Piped s := by
    rw [hs]
    exact Piped.foldl ⟨rfl, fun hOpen => hOpen⟩ past
  have hEnds := after_failure hPiped hNone hOp hConnect hFail
  have hPiped' := hPiped.after (out, r)
  constructor
  · intro h
    by_contra hLate
    have hThere : (s.after (out, r)).terminal = true := by
      rw [hEnds.terminal]
      cases p with
      | newSession => exact absurd rfl hLate
      | stdinPipe | requestPty | shell => rfl
    have hClient : (s.after (out, r)).client = true := by
      rw [hEnds.client]
      cases p <;> rfl
    obtain ⟨rest, hActs⟩ := h.attempted [] (by simp) out r hOp
    rw [List.foldl_nil] at hActs
    generalize s.after (out, r) = t at hActs hThere hClient hPiped'
    -- the next request for a terminal finds one, and goes no further
    have hStops : (t.after (out, r)).acts = t.acts ++ [.connect] := by
      rw [after, handle_ssh hPiped'.1 out (by simp [hOp]), outcome_bind, connect_connected hClient,
        terminalRequest_terminal out hOp]
      simp [openTerminal, outcome_bind, hThere]
    rw [hStops] at hActs
    simpa using List.append_cancel_left hActs
  · rintro rfl
    have hStdin : s.stdin = false := Bool.eq_false_iff.mpr fun hOpen => by
      rw [hPiped.2 hOpen] at hNone
      cases hNone
    have hVacant : Vacant (s.after (out, r)) :=
      ⟨hPiped'.1, hEnds.client, hEnds.terminal.trans hNone, hEnds.stdin.trans hStdin⟩
    exact ⟨fun later => answers_alike hEnds hPiped' later,
      fun later hLater out r hOp => (hVacant.others hLater).attempted out hOp,
      fun later hLater out r hOp => (hVacant.others hLater).refused out hOp⟩

/-- A request for a terminal, with a server that does everything but one thing. -/
def startRequest : RemoteRequest := ⟨"terminal", "", "", "", 0, 0, 0⟩

def noSession : Outside :=
  { Transfer.plainServer.answer ∅ startRequest with newSession := .error "ssh: rejected: administratively prohibited" }

def noPty : Outside :=
  { Transfer.plainServer.answer ∅ startRequest with requestPty := .error "ssh: pty-req failed" }

def sshServer : RemoteConfig := ⟨"10.77.0.2:22", "user", "/d/ssh_ed25519", "SHA256:", false⟩

theorem refused_session_retried :
    AsIfNotMade (new sshServer "ssh") ((new sshServer "ssh").after (noSession, startRequest)) := by
  have hStart : new sshServer "ssh" = [].foldl after (new sshServer "ssh") := rfl
  exact (failed_terminal_retried_iff hStart rfl rfl rfl rfl).mpr rfl

/-- A refused PTY leaves a terminal that does not work, and no later request can open
one. -/
theorem refused_pty_stays : ¬∀ (cfg : RemoteConfig) (past : List (Outside × RemoteRequest))
    (out : Outside) (r : RemoteRequest) (s : Access) (p : OpeningStep),
    s = past.foldl after (new cfg "ssh") → r.op = "terminal" → s.terminal = false →
    ((connect out).outcome s).1.isOk = true → out.failsAt = some p →
    AsIfNotMade s (s.after (out, r)) := by
  intro hAll
  have h := hAll sshServer [] noPty startRequest _ .requestPty rfl rfl rfl rfl rfl
  obtain ⟨rest, hActs⟩ := h.attempted [] (by simp) noPty startRequest rfl
  have hStops : ((new sshServer "ssh").after (noPty, startRequest)).acts ++ [Act.connect] =
      _ := hActs
  exact absurd (List.append_cancel_left hStops) (by simp)

end Access
end NetConductor
