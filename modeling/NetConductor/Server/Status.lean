import NetConductor.Server.MappingTable

/-! What the table shows of a mapping and what its port does. The error of a
row is saved with the table, the listeners die with the process, and
`restoreMappings` may come after requests have been served. -/
namespace NetConductor
open Durable Transition

/-- A row is shown as running exactly when its listener is, and every listener
belongs to a row. -/
structure ShownStatus (p : Process) : Prop where
  running : ∀ id,
    (∃ socket, p.server.forwards.lookup id = some socket ∧ ∃ l ∈ p.listeners, l.socket = socket) ↔
      ∃ m ∈ p.server.state.mappings, m.id = id ∧ m.enabled = true ∧ m.error = ""
  known : ∀ l ∈ p.listeners, ∃ m ∈ p.server.state.mappings,
    p.server.forwards.lookup m.id = some l.socket

/-- When `restoreMappings` takes its copy no enabled row is running yet, and a
row that carries an error from an earlier process fails to start again. -/
def RestartCondition (p : Process) : Op → Prop
  | .restoreMappings =>
      ∀ m ∈ p.server.state.mappings, m.enabled = true → p.server.forwards.lookup m.id = none
  | .restoreNext listen =>
      match p.holder with
      | some (.restoring (m :: _)) => m.enabled = true → m.error ≠ "" → listen.refused ≠ none
      | _ => True
  | _ => True

instance (p : Process) (op : Op) : Decidable (RestartCondition p op) :=
  match op with
  | .restoreMappings => inferInstanceAs (Decidable (∀ m ∈ p.server.state.mappings,
      m.enabled = true → p.server.forwards.lookup m.id = none))
  | .restoreNext listen =>
      show Decidable (match p.holder with
        | some (.restoring (m :: _)) => m.enabled = true → m.error ≠ "" → listen.refused ≠ none
        | _ => True) from
      match p.holder with
      | some (.restoring (m :: _)) =>
          inferInstanceAs (Decidable (m.enabled = true → m.error ≠ "" → listen.refused ≠ none))
      | some (.restoring []) | some (.creating ..) | some (.created ..) | some (.marking ..) | none =>
          instDecidableTrue
  | .createCode .. | .join .. | .heartbeat .. | .updateDevice .. | .putPolicy .. | .setActive ..
  | .writeProbe .. | .saveProbe | .auditSession .. | .putMapping .. | .openMapping .. | .commitMapping ..
  | .deleteMapping .. | .restoreMark => instDecidableTrue

/-! ### The invariant -/

/-- The part of the process that the mapping handlers work on. -/
structure Ports where
  rows : List Mapping
  forwards : GoMap Socket
  listeners : List Listener
  holder : Option Holder
  restored : Bool

def Process.ports (p : Process) : Ports :=
  ⟨p.server.state.mappings, p.server.forwards, p.listeners, p.holder, p.restored⟩

/-- An enabled row has a stop function exactly when it shows no error. -/
def Settled (forwards : GoMap Socket) (m : Mapping) : Prop :=
  m.enabled = true → ((forwards.lookup m.id).isSome = true ↔ m.error = "")

/-- An enabled row that has not been started. -/
def Idle (forwards : GoMap Socket) (m : Mapping) : Prop :=
  m.enabled = true → forwards.lookup m.id = none

/-- How far the holder of `forwardMu` has come. The rows before the one that
`restoreMappings` is at are settled, the others are idle. -/
def Progress (rows : List Mapping) (forwards : GoMap Socket) (listeners : List Listener)
    (restored : Bool) : Option Holder → Prop
  | none => restored = true → ∀ m ∈ rows, Settled forwards m
  | some (.creating m) =>
      m.enabled = true ∧ m.error = "" ∧ (restored = true → ∀ x ∈ rows, Settled forwards x)
  | some (.created m stop) =>
      m.error = "" ∧ stop.isSome = m.enabled ∧
      (∀ socket, stop = some socket → socket = m.socket ∧ ∃ l ∈ listeners, l.socket = socket) ∧
      (restored = true → ∀ x ∈ rows, Settled forwards x)
  | some (.restoring todo) =>
      ∃ done, rows = done ++ todo ∧ (∀ m ∈ done, Settled forwards m) ∧
        ∀ m ∈ todo, Idle forwards m
  | some (.marking id error todo) =>
      error ≠ "" ∧ ∃ done m, rows = done ++ m :: todo ∧ m.id = id ∧
        (∀ x ∈ done, Settled forwards x) ∧ Idle forwards m ∧ ∀ x ∈ todo, Idle forwards x

structure StatusInvariant (P : Ports) : Prop where
  registered : ∀ id socket, P.forwards.lookup id = some socket →
    ∃ m ∈ P.rows, m.id = id ∧ m.socket = socket ∧ m.enabled = true ∧
      ∃ l ∈ P.listeners, l.socket = socket
  listeners : ∀ l ∈ P.listeners, (∃ id, P.forwards.lookup id = some l.socket) ∨
    ∃ m, P.holder = some (.created m (some l.socket))
  progress : Progress P.rows P.forwards P.listeners P.restored P.holder

/-- With `forwardMu` free and the file's rows restored, the invariant is what
the table shows. -/
theorem StatusInvariant.shown {p : Process} (h : StatusInvariant p.ports)
    (hRestored : p.restored = true) (hFree : p.holder = none) : ShownStatus p := by
  have hProgress := h.progress
  simp only [Process.ports, hFree, Progress] at hProgress
  have hSettled := hProgress hRestored
  refine ⟨fun id => ⟨?_, ?_⟩, fun l hl => ?_⟩
  · rintro ⟨socket, hLookup, -⟩
    obtain ⟨m, hm, rfl, -, hEnabled, -⟩ := h.registered id socket hLookup
    have hLookup : p.server.forwards.lookup m.id = some socket := hLookup
    exact ⟨m, hm, rfl, hEnabled, (hSettled m hm hEnabled).mp (by rw [hLookup]; rfl)⟩
  · rintro ⟨m, hm, rfl, hEnabled, hError⟩
    obtain ⟨socket, hLookup⟩ := Option.isSome_iff_exists.mp ((hSettled m hm hEnabled).mpr hError)
    obtain ⟨-, -, -, -, -, hListener⟩ := h.registered m.id socket hLookup
    exact ⟨socket, hLookup, hListener⟩
  · rcases h.listeners l hl with ⟨id, hLookup⟩ | ⟨m, hHolder⟩
    · obtain ⟨m, hm, rfl, -⟩ := h.registered id _ hLookup
      exact ⟨m, hm, hLookup⟩
    · simp [Process.ports, hFree] at hHolder

/-! ### One step of each handler -/

section Steps
variable {P : Ports}

/-- A row that is accepted is not in the table yet. -/
theorem StatusInvariant.accept (h : StatusInvariant P) (hFree : P.holder = none) {m : Mapping}
    (hError : m.error = "") : StatusInvariant { P with holder := some (.accepted m) } := by
  have hProgress : Progress P.rows P.forwards P.listeners P.restored none := hFree ▸ h.progress
  refine ⟨h.registered, fun l hl => ?_, ?_⟩
  · rcases h.listeners l hl with hRegistered | ⟨x, hHolder⟩
    · exact .inl hRegistered
    · simp [hFree] at hHolder
  · unfold Holder.accepted
    split
    · next hEnabled => exact ⟨hEnabled, hError, hProgress⟩
    · next hDisabled => exact ⟨hError, by simpa using hDisabled, by simp, hProgress⟩

/-- Its port is opened for it. -/
theorem StatusInvariant.opened (h : StatusInvariant P) {m : Mapping}
    (hHolder : P.holder = some (.creating m)) {l : Listener} (hSocket : l.socket = m.socket) :
    StatusInvariant { P with listeners := l :: P.listeners
                             holder := some (.created m (some l.socket)) } := by
  have hProgress : Progress P.rows P.forwards P.listeners P.restored (some (.creating m)) :=
    hHolder ▸ h.progress
  obtain ⟨hEnabled, hError, hSettled⟩ := hProgress
  refine ⟨fun id socket hLookup => ?_, fun x hx => ?_, hError, by simp [hEnabled], ?_, hSettled⟩
  · obtain ⟨r, hr, hId, hSame, hOn, y, hy, hListens⟩ := h.registered id socket hLookup
    exact ⟨r, hr, hId, hSame, hOn, y, List.mem_cons_of_mem l hy, hListens⟩
  · rcases List.mem_cons.mp hx with rfl | hx
    · exact .inr ⟨m, rfl⟩
    · rcases h.listeners x hx with hRegistered | ⟨r, hOther⟩
      · exact .inl hRegistered
      · simp [hHolder] at hOther
  · rintro socket hStop
    obtain rfl := Option.some.inj hStop
    exact ⟨hSocket, l, by simp, rfl⟩

theorem StatusInvariant.refused (h : StatusInvariant P) {m : Mapping}
    (hHolder : P.holder = some (.creating m)) : StatusInvariant { P with holder := none } := by
  have hProgress : Progress P.rows P.forwards P.listeners P.restored (some (.creating m)) :=
    hHolder ▸ h.progress
  refine ⟨h.registered, fun l hl => ?_, hProgress.2.2⟩
  rcases h.listeners l hl with hRegistered | ⟨x, hOther⟩
  · exact .inl hRegistered
  · simp [hHolder] at hOther

/-- A row with a new id leaves the status of the others alone. -/
theorem lookup_registered {forwards : GoMap Socket} {stop : Option Socket} {id other : String}
    (h : other ≠ id) : (Process.registered forwards id stop).lookup other = forwards.lookup other := by
  cases stop with
  | none => rfl
  | some socket => exact AList.lookup_insert_ne h

/-- It is in the table with its port open. -/
theorem StatusInvariant.committed (h : StatusInvariant P) {m : Mapping} {stop : Option Socket}
    (hHolder : P.holder = some (.created m stop)) (hNew : ∀ x ∈ P.rows, x.id ≠ m.id) :
    StatusInvariant { P with rows := P.rows ++ [m]
                             forwards := Process.registered P.forwards m.id stop
                             holder := none } := by
  have hProgress : Progress P.rows P.forwards P.listeners P.restored (some (.created m stop)) :=
    hHolder ▸ h.progress
  obtain ⟨hError, hStop, hOpen, hSettled⟩ := hProgress
  refine ⟨fun id socket hLookup => ?_, fun l hl => ?_, fun hRestored x hx hEnabled => ?_⟩
  · by_cases hId : id = m.id
    · subst hId
      cases stop with
      | none =>
          obtain ⟨r, hr, hSame, -⟩ := h.registered m.id socket hLookup
          exact absurd hSame (hNew r hr)
      | some socket' =>
          simp only [Process.registered, AList.lookup_insert, Option.some.injEq] at hLookup
          obtain ⟨hSocket, hListener⟩ := hOpen socket' rfl
          exact ⟨m, by simp, rfl, hSocket ▸ hLookup, hStop.symm, hLookup ▸ hListener⟩
    · dsimp only at hLookup
      rw [lookup_registered hId] at hLookup
      obtain ⟨r, hr, hSame⟩ := h.registered id socket hLookup
      exact ⟨r, List.mem_append_left _ hr, hSame⟩
  · rcases h.listeners l hl with ⟨id, hLookup⟩ | ⟨x, hOther⟩
    · refine .inl ⟨id, ?_⟩
      obtain ⟨r, hr, rfl, -⟩ := h.registered id _ hLookup
      exact (lookup_registered (hNew r hr)).trans hLookup
    · cases hHolder.symm.trans hOther
      exact .inl ⟨m.id, AList.lookup_insert _⟩
  · rcases List.mem_append.mp hx with hx | hx
    · dsimp only
      rw [lookup_registered (hNew x hx)]
      exact hSettled hRestored x hx hEnabled
    · obtain rfl := List.mem_singleton.mp hx
      rw [hEnabled] at hStop
      obtain ⟨socket, rfl⟩ := Option.isSome_iff_exists.mp hStop
      simp [Process.registered, hError]

/-- Where the save fails both are gone. -/
theorem StatusInvariant.rolledBack {p : Process} (h : StatusInvariant p.ports) {m : Mapping}
    {stop : Option Socket} (hHolder : p.holder = some (.created m stop))
    (hNew : ∀ x ∈ p.server.state.mappings, x.socket ≠ m.socket) :
    StatusInvariant { (p.stop stop).ports with holder := none } := by
  have hProgress : Progress p.server.state.mappings p.server.forwards p.listeners p.restored
      (some (.created m stop)) := hHolder ▸ h.progress
  obtain ⟨hError, hStop, hOpen, hSettled⟩ := hProgress
  cases stop with
  | none =>
      refine ⟨h.registered, fun l hl => ?_, hSettled⟩
      rcases h.listeners l hl with hRegistered | ⟨x, hOther⟩
      · exact .inl hRegistered
      · simp [Process.ports, hHolder] at hOther
  | some socket =>
      obtain ⟨rfl, -⟩ := hOpen socket rfl
      refine ⟨fun id other hLookup => ?_, fun l hl => ?_, hSettled⟩
      · obtain ⟨r, hr, hId, rfl, hEnabled, l, hl, hListens⟩ := h.registered id other hLookup
        refine ⟨r, hr, hId, rfl, hEnabled, l, ?_, hListens⟩
        exact List.mem_filter.mpr ⟨hl, by simpa [hListens] using hNew r hr⟩
      · obtain ⟨hl, hOther⟩ := List.mem_filter.mp hl
        rcases h.listeners l hl with hRegistered | ⟨x, hSame⟩
        · exact .inl hRegistered
        · simp only [Process.ports, hHolder, Option.some.injEq, Holder.created.injEq] at hSame
          simp [hSame.2] at hOther

/-- A deleted row leaves no port open. -/
theorem StatusInvariant.deleted {p : Process} (h : StatusInvariant p.ports)
    (hFree : p.holder = none) (id : String)
    (hIds : (p.server.state.mappings.map Mapping.id).Nodup)
    (hSockets : (p.server.state.mappings.map Mapping.socket).Nodup) :
    StatusInvariant { (p.stop (p.server.forwards.lookup id)).ports with
      rows := p.server.state.mappings.eraseP fun m => m.id = id
      forwards := p.server.forwards.erase id } := by
  have hProgress : Progress p.server.state.mappings p.server.forwards p.listeners p.restored none :=
    hFree ▸ h.progress
  have hOther : ∀ {key socket}, (p.server.forwards.erase id).lookup key = some socket →
      key ≠ id ∧ p.server.forwards.lookup key = some socket := by
    intro key socket hLookup
    by_cases hKey : key = id
    · subst hKey
      simp at hLookup
    · exact ⟨hKey, by rwa [AList.lookup_erase_ne hKey] at hLookup⟩
  -- the listener that is closed is the deleted row's, so no other row loses one
  have hStays : ∀ {l : Listener} {r : Mapping}, l ∈ p.listeners → r ∈ p.server.state.mappings →
      r.id ≠ id → l.socket = r.socket → l ∈ (p.stop (p.server.forwards.lookup id)).listeners := by
    intro l r hl hr hId hSocket
    cases hLookup : p.server.forwards.lookup id with
    | none => exact hl
    | some socket =>
        refine List.mem_filter.mpr ⟨hl, ?_⟩
        obtain ⟨r', hr', rfl, rfl, -⟩ := h.registered id socket hLookup
        have hNe : r.socket ≠ r'.socket := fun hSame =>
          hId (congrArg Mapping.id (List.inj_on_of_nodup_map hSockets hr hr' hSame))
        simpa [hSocket] using hNe
  have hMem : ∀ {l : Listener}, l ∈ (p.stop (p.server.forwards.lookup id)).listeners →
      l ∈ p.listeners ∧ p.server.forwards.lookup id ≠ some l.socket := by
    intro l hl
    cases hLookup : p.server.forwards.lookup id with
    | none => exact ⟨by simpa [Process.stop, hLookup] using hl, by simp⟩
    | some socket =>
        simp only [hLookup, Process.stop, List.mem_filter, decide_eq_true_eq] at hl
        exact ⟨hl.1, fun hSame => hl.2 (Option.some.inj hSame).symm⟩
  refine ⟨fun key socket hLookup => ?_, fun l hl => ?_, ?_⟩
  · obtain ⟨hKey, hLookup⟩ := hOther hLookup
    obtain ⟨r, hr, rfl, rfl, hEnabled, l, hl, hListens⟩ := h.registered key socket hLookup
    exact ⟨r, (List.mem_eraseP_of_neg (by simpa using hKey)).mpr hr, rfl, rfl, hEnabled, l,
      hStays hl hr hKey hListens, hListens⟩
  · obtain ⟨hl, hNot⟩ := hMem hl
    rcases h.listeners l hl with ⟨key, hLookup⟩ | ⟨x, hHolder⟩
    · have hKey : key ≠ id := by
        rintro rfl
        exact hNot hLookup
      exact .inl ⟨key, (AList.lookup_erase_ne hKey).trans hLookup⟩
    · simp [Process.ports, hFree] at hHolder
  · have hGoal : p.restored = true → ∀ m ∈ p.server.state.mappings.eraseP fun m => m.id = id,
        Settled (p.server.forwards.erase id) m := by
      intro hRestored m hm hEnabled
      have hId := FirstMatch.ne_of_mem_eraseP hIds hm
      rw [AList.lookup_erase_ne hId]
      exact hProgress hRestored m (List.mem_of_mem_eraseP hm) hEnabled
    simpa [Process.ports, hFree, Progress] using hGoal

/-! The loop of `restoreMappings`. -/

/-- A restore starts with nothing started. -/
theorem StatusInvariant.restoring (h : StatusInvariant P) (hFree : P.holder = none)
    (hIdle : ∀ m ∈ P.rows, Idle P.forwards m) :
    StatusInvariant { P with holder := some (.restoring P.rows), restored := true } := by
  refine ⟨h.registered, fun l hl => ?_, [], rfl, by simp, hIdle⟩
  rcases h.listeners l hl with hRegistered | ⟨x, hHolder⟩
  · exact .inl hRegistered
  · simp [hFree] at hHolder

/-- While `restoreMappings` holds `forwardMu` every listener is registered. -/
theorem StatusInvariant.listeners_registered (h : StatusInvariant P)
    (hHolder : ∀ m stop, P.holder ≠ some (.created m stop)) {l : Listener} (hl : l ∈ P.listeners) :
    ∃ id, P.forwards.lookup id = some l.socket :=
  (h.listeners l hl).resolve_right fun ⟨m, hCreated⟩ => hHolder m _ hCreated

theorem StatusInvariant.restoredAll (h : StatusInvariant P)
    (hHolder : P.holder = some (.restoring [])) : StatusInvariant { P with holder := none } := by
  have hProgress : Progress P.rows P.forwards P.listeners P.restored (some (.restoring [])) :=
    hHolder ▸ h.progress
  obtain ⟨done, hRows, hSettled, -⟩ := hProgress
  refine ⟨h.registered, fun l hl => .inl (h.listeners_registered (by simp [hHolder]) hl), ?_⟩
  intro _ m hm
  exact hSettled m (by simpa [hRows] using hm)

/-- A row that is disabled needs no port. -/
theorem StatusInvariant.skipped (h : StatusInvariant P) {m : Mapping} {todo : List Mapping}
    (hHolder : P.holder = some (.restoring (m :: todo))) (hDisabled : m.enabled = false) :
    StatusInvariant { P with holder := some (.restoring todo) } := by
  have hProgress : Progress P.rows P.forwards P.listeners P.restored
      (some (.restoring (m :: todo))) := hHolder ▸ h.progress
  obtain ⟨done, hRows, hSettled, hIdle⟩ := hProgress
  refine ⟨h.registered, fun l hl => .inl (h.listeners_registered (by simp [hHolder]) hl),
    done ++ [m], by simp [hRows], fun x hx => ?_, fun x hx => hIdle x (by simp [hx])⟩
  rcases List.mem_append.mp hx with hx | hx
  · exact hSettled x hx
  · obtain rfl := List.mem_singleton.mp hx
    intro hEnabled
    simp [hDisabled] at hEnabled

/-- A mapping that fails is marked with its error. -/
theorem StatusInvariant.failed (h : StatusInvariant P) {m : Mapping} {todo : List Mapping}
    (hHolder : P.holder = some (.restoring (m :: todo))) {error : String} (hError : error ≠ "") :
    StatusInvariant { P with holder := some (.marking m.id error todo) } := by
  have hProgress : Progress P.rows P.forwards P.listeners P.restored
      (some (.restoring (m :: todo))) := hHolder ▸ h.progress
  obtain ⟨done, hRows, hSettled, hIdle⟩ := hProgress
  exact ⟨h.registered, fun l hl => .inl (h.listeners_registered (by simp [hHolder]) hl), hError,
    done, m, hRows, rfl, hSettled, hIdle m (by simp), fun x hx => hIdle x (by simp [hx])⟩

theorem id_ne_of_middle {done todo : List Mapping} {m : Mapping}
    (h : ((done ++ m :: todo).map Mapping.id).Nodup) (x : Mapping) (hx : x ∈ done ∨ x ∈ todo) :
    x.id ≠ m.id := by
  rw [List.map_append, List.map_cons, List.nodup_middle, List.nodup_cons] at h
  intro hSame
  refine h.1 (hSame ▸ ?_)
  rw [← List.map_append]
  exact List.mem_map_of_mem (List.mem_append.mpr hx)

/-- A restored row has its port open. -/
theorem StatusInvariant.started (h : StatusInvariant P) {m : Mapping} {todo : List Mapping}
    (hHolder : P.holder = some (.restoring (m :: todo))) (hEnabled : m.enabled = true)
    (hError : m.error = "") (hIds : (P.rows.map Mapping.id).Nodup) {l : Listener}
    (hSocket : l.socket = m.socket) :
    StatusInvariant { P with forwards := P.forwards.insert m.id l.socket
                             listeners := l :: P.listeners
                             holder := some (.restoring todo) } := by
  have hProgress : Progress P.rows P.forwards P.listeners P.restored
      (some (.restoring (m :: todo))) := hHolder ▸ h.progress
  obtain ⟨done, hRows, hSettled, hIdle⟩ := hProgress
  have hm : m ∈ P.rows := by simp [hRows]
  have hOther := id_ne_of_middle (hRows ▸ hIds)
  refine ⟨fun id socket hLookup => ?_, fun x hx => ?_, done ++ [m], by simp [hRows],
    fun x hx => ?_, fun x hx hOn => ?_⟩
  · by_cases hId : id = m.id
    · subst hId
      simp only [AList.lookup_insert, Option.some.injEq] at hLookup
      exact ⟨m, hm, rfl, hSocket.symm.trans hLookup, hEnabled, l, by simp, hLookup⟩
    · dsimp only at hLookup
      rw [AList.lookup_insert_ne hId] at hLookup
      obtain ⟨r, hr, hSame, hPort, hOn, y, hy, hListens⟩ := h.registered id socket hLookup
      exact ⟨r, hr, hSame, hPort, hOn, y, List.mem_cons_of_mem l hy, hListens⟩
  · rcases List.mem_cons.mp hx with rfl | hx
    · exact .inl ⟨m.id, AList.lookup_insert _⟩
    · obtain ⟨id, hLookup⟩ := h.listeners_registered (by simp [hHolder]) hx
      by_cases hId : id = m.id
      · -- the row was idle, so nothing was registered under its id
        rw [hId, hIdle m (by simp) hEnabled] at hLookup
        cases hLookup
      · exact .inl ⟨id, (AList.lookup_insert_ne hId).trans hLookup⟩
  · rcases List.mem_append.mp hx with hx | hx
    · intro hOn
      rw [AList.lookup_insert_ne (hOther x (.inl hx))]
      exact hSettled x hx hOn
    · obtain rfl := List.mem_singleton.mp hx
      simp [Settled, hError]
  · rw [AList.lookup_insert_ne (hOther x (.inr hx))]
    exact hIdle x (by simp [hx]) hOn

/-- A row whose port could not be opened says so. -/
theorem StatusInvariant.marked (h : StatusInvariant P) {id error : String} {todo : List Mapping}
    (hHolder : P.holder = some (.marking id error todo))
    (hIds : (P.rows.map Mapping.id).Nodup) :
    StatusInvariant { P with
      rows := P.rows.map fun m => if m.id = id then { m with error := error } else m
      holder := some (.restoring todo) } := by
  have hProgress : Progress P.rows P.forwards P.listeners P.restored
      (some (.marking id error todo)) := hHolder ▸ h.progress
  obtain ⟨hError, done, m, hRows, rfl, hSettled, hIdle, hTodo⟩ := hProgress
  have hOther := id_ne_of_middle (hRows ▸ hIds)
  have hSame : ∀ rows : List Mapping, (∀ x ∈ rows, x.id ≠ m.id) →
      (rows.map fun x => if x.id = m.id then { x with error := error } else x) = rows := by
    intro rows hRows
    refine (List.map_congr_left fun x hx => ?_).trans (List.map_id rows)
    rw [if_neg (hRows x hx), id]
  refine ⟨fun key socket hLookup => ?_, fun l hl =>
    .inl (h.listeners_registered (by simp [hHolder]) hl), done ++ [{ m with error := error }], ?_,
    fun x hx => ?_, hTodo⟩
  · obtain ⟨r, hr, rfl, hPort, hOn, hListener⟩ := h.registered key socket hLookup
    by_cases hId : r.id = m.id
    · refine ⟨{ r with error := error }, List.mem_map.mpr ⟨r, hr, by rw [if_pos hId]⟩, rfl, ?_, hOn,
        hListener⟩
      simpa [Mapping.socket] using hPort
    · exact ⟨r, List.mem_map.mpr ⟨r, hr, by rw [if_neg hId]⟩, rfl, hPort, hOn, hListener⟩
  · rw [hRows, List.map_append, List.map_cons, hSame done fun x hx => hOther x (.inl hx),
      hSame todo fun x hx => hOther x (.inr hx)]
    simp
  · rcases List.mem_append.mp hx with hx | hx
    · exact hSettled x hx
    · obtain rfl := List.mem_singleton.mp hx
      intro hEnabled
      simp [hIdle hEnabled, hError]

end Steps

/-! ### Runs -/

theorem Process.Quiet.ports {p q : Process} (h : p.Quiet q) : q.ports = p.ports := by
  obtain ⟨s, hs, rfl⟩ := h
  simp only [Process.ports, hs.mappings, hs.forwards]

/-- A pending row has an id and a port that no row has. -/
theorem TableInvariant.pending_new {cfg : ServerConfig} {p : Process} (h : TableInvariant cfg p)
    {holder : Holder} {m : Mapping} (hHolder : p.holder = some holder)
    (hPending : holder.pending = some m) :
    ∀ x ∈ p.server.state.mappings, x.id ≠ m.id ∧ x.socket ≠ m.socket := by
  have hTable := h.pending holder m hHolder hPending
  have hIds := hTable.ids
  have hSockets := hTable.sockets
  rw [List.map_append, List.nodup_append] at hIds hSockets
  intro x hx
  exact ⟨hIds.2.2 _ (List.mem_map_of_mem hx) _ (by simp),
    hSockets.2.2 _ (List.mem_map_of_mem hx) _ (by simp)⟩

/-- No request and no task breaks the status, with the table in order and rows
restarted as the condition says. -/
theorem status_exec {cfg : ServerConfig} {p : Process} {op : Op} {sec : Section Process Answer}
    (hGuard : RestartCondition p op) (hTable : TableInvariant cfg p)
    (h : StatusInvariant p.ports) (hSec : p.exec op = some sec) :
    sec.Holds (fun q => StatusInvariant q.ports) fun _ => True := by
  by_cases hQuiet : op.quiet = true
  · exact (Process.exec_quiet hQuiet hSec).mono (fun q hq => hq.ports ▸ h) fun _ _ => trivial
  cases op with
  | createCode env body =>
      obtain ⟨codes, hResult, -⟩ := Server.createCode_cases env body p.server
      obtain rfl := Option.some.inj hSec
      rw [Section.holds_map, hResult]
      exact h
  | join env body =>
      obtain rfl := Option.some.inj hSec
      rw [Section.holds_map]
      rcases Server.join_cases env body p.server with ⟨status, e, wg, hJoin⟩ |
        ⟨req, plan, rfl, hPlan, hJoin⟩
      · rw [hJoin]
        exact h
      · rw [hJoin]
        refine ⟨trivial, ?_, ?_⟩ <;> simpa [Process.ports] using h
  | putMapping env body =>
      rcases Process.putMapping_cases hSec with ⟨status, e, rfl⟩ | ⟨m, rfl, -, hFree, -, rfl⟩
      · exact h
      · exact h.accept hFree rfl
  | openMapping listen =>
      obtain ⟨m, hHolder, ⟨e, rfl⟩ | ⟨l, hStart, rfl⟩⟩ := Process.openMapping_cases hSec
      · exact h.refused hHolder
      · exact h.opened hHolder (Process.startMapping_ok hStart).1
  | commitMapping env =>
      obtain ⟨m, stop, hHolder, rfl⟩ := Process.commitMapping_cases hSec
      have hNew := hTable.pending_new hHolder rfl
      refine ⟨trivial, ?_, ?_⟩
      · simpa [Process.ports] using h.committed hHolder fun x hx => (hNew x hx).1
      · simpa [Process.ports] using h.rolledBack hHolder fun x hx => (hNew x hx).2
  | deleteMapping env id =>
      obtain ⟨hFree, rfl | ⟨-, rfl⟩⟩ := Process.deleteMapping_cases hSec
      · exact h
      · refine ⟨trivial, ?_, ?_⟩
        · simpa [Process.ports] using h.deleted hFree id hTable.table.ids hTable.table.sockets
        · simpa [Process.ports] using h
  | restoreMappings =>
      obtain ⟨hFree, -, rfl⟩ := Process.restoreMappings_cases hSec
      exact h.restoring hFree hGuard
  | restoreNext listen =>
      rcases Process.restoreNext_cases hSec with ⟨hHolder, rfl⟩ | ⟨m, todo, hHolder,
        ⟨hDisabled, rfl⟩ | ⟨-, e, hStart, rfl⟩ | ⟨hEnabled, l, hStart, rfl⟩⟩
      · exact h.restoredAll hHolder
      · exact h.skipped hHolder hDisabled
      · exact h.failed hHolder (Process.startMapping_error hStart).1
      · obtain ⟨hSocket, hFree⟩ := Process.startMapping_ok hStart
        have hError : m.error = "" := by
          by_contra hError
          simp only [RestartCondition, hHolder] at hGuard
          exact hGuard hEnabled hError (Process.refusal_none.mp hFree).1
        exact h.started hHolder hEnabled hError hTable.table.ids hSocket
  | restoreMark =>
      obtain ⟨id, error, todo, hHolder, rfl⟩ := Process.restoreMark_cases hSec
      exact h.marked hHolder hTable.table.ids
  | heartbeat | updateDevice | putPolicy | setActive | writeProbe | saveProbe | auditSession =>
      exact absurd rfl hQuiet

/-- A server that starts shows nothing as running. -/
theorem StatusInvariant.boot (cfg : ServerConfig) (st : State) :
    StatusInvariant (Process.ofServer (newServer cfg st)).ports where
  registered id socket h := by simp [Process.ports, Process.ofServer, newServer] at h
  listeners l hl := by simp [Process.ports, Process.ofServer] at hl
  progress := by simp [Process.ports, Process.ofServer, Progress]

/-- In every run whose restarts meet the condition, the table shows the real
status of every mapping once `restoreMappings` is through and whenever
`forwardMu` is free. -/
theorem shownStatus_reachable {cfg : ServerConfig} {token : String}
    {s : Machine Process State Op Answer}
    (h : Reachable (runsWhere cfg token RestartCondition) s) {p : Process} (hUp : s.mem = some p)
    (hRestored : p.restored = true) (hFree : p.holder = none) : ShownStatus p := by
  have hInvariant := Service.invariant
    (I := fun p => TableInvariant cfg p ∧ StatusInvariant p.ports)
    (K := fun st => FileTable cfg st ∧ True)
    ⟨.boot (table_first cfg token), .boot cfg _⟩ ⟨table_first cfg token, trivial⟩
    (fun st hFile => ⟨.boot hFile.1, .boot cfg st⟩)
    (fun _ _ _ hAllowed hMem hSec => (table_exec hAllowed.1 hMem.1 hSec).and
      (status_exec hAllowed.2 hMem.1 hMem.2 hSec)) h
  exact (hInvariant.1 p hUp).2.shown hRestored hFree

/-- A restart of the process and its `restoreMappings` on a table of one row. -/
def restart (answers : List (Label Op)) : List (Label Op) :=
  [.crash, .boot, .run .restoreMappings true] ++ answers ++ [.run (.restoreNext freePort) true]

theorem shownStatus_restarted :
    ∃ p : Process, p.server.forwards.lookup "aaaaaaaaaaaa" = some ⟨false, 5000⟩ ∧
      ShownStatus p := by
  obtain ⟨s, p, hReach, hUp, hView⟩ := exists_runsWhere sampleConfig "" RestartCondition
    (addition 'a' (sampleMapping 5000 80) ++ restart [.run (.restoreNext freePort) true])
    (fun p => (p.server.forwards.lookup "aaaaaaaaaaaa", p.restored, p.holder))
    (some ⟨false, 5000⟩, true, none) (by decide +kernel)
  simp only [Prod.mk.injEq] at hView
  exact ⟨p, hView.1, shownStatus_reachable hReach hUp hView.2.1 hView.2.2⟩

/-- A port that was taken at one start and free at the next is open, while its
row keeps the error of the first. -/
theorem stale_error_shown :
    ¬∀ (cfg : ServerConfig) (token : String) (s : Machine Process State Op Answer) (p : Process),
      Reachable (runs cfg token) s → s.mem = some p → p.restored = true → p.holder = none →
      ShownStatus p := by
  intro hAll
  obtain ⟨s, p, hReach, hUp, hView⟩ := exists_runs sampleConfig ""
    (addition 'a' (sampleMapping 5000 80) ++
      restart [.run (.restoreNext takenPort) true, .run .restoreMark true] ++
      [.run .saveProbe true] ++ restart [.run (.restoreNext freePort) true])
    (fun p => (p.server.forwards.lookup "aaaaaaaaaaaa", p.listeners.map Listener.socket,
      p.server.state.mappings.map fun m => (m.id, m.error),
      decide (p.restored = true ∧ p.holder = none)))
    (some ⟨false, 5000⟩, [⟨false, 5000⟩],
      [("aaaaaaaaaaaa", "端口监听失败：端口已占用或无权限")], true) (by decide +kernel)
  simp only [Prod.mk.injEq, decide_eq_true_eq] at hView
  obtain ⟨hLookup, hListeners, hRows, hRestored, hFree⟩ := hView
  have hShown := hAll sampleConfig "" s p hReach hUp hRestored hFree
  obtain ⟨l, hl, hSocket⟩ : ∃ l ∈ p.listeners, l.socket = ⟨false, 5000⟩ :=
    List.mem_map.mp (by simp [hListeners])
  obtain ⟨m, hm, hId, -, hError⟩ := (hShown.running "aaaaaaaaaaaa").mp ⟨_, hLookup, l, hl, hSocket⟩
  have hRow := List.mem_map_of_mem (f := fun m : Mapping => (m.id, m.error)) hm
  rw [hRows, hId, hError] at hRow
  simp at hRow

end NetConductor
