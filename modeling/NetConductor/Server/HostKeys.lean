import NetConductor.Server.Runs

/-! The SSH host key of a device, which an administrator sets and a heartbeat
fills in while no SSH user is on record. -/
namespace NetConductor
open Durable Transition

/-- What a host key is pinned by: its fingerprint and the port it was seen on. -/
structure HostKey where
  fingerprint : String
  port : Int
deriving DecidableEq

def Device.hostKey (d : Device) : HostKey := ⟨d.sshFingerprint, d.sshPort⟩

/-- The host key on record for a device. -/
def State.hostKey (st : State) (id : String) : Option HostKey :=
  (st.devices.find? fun d => d.id = id).map Device.hostKey

/-- What an update pins, unless it takes the pin away. -/
def Server.DeviceSettings.pin (v : Server.DeviceSettings) : Option HostKey :=
  if v.sshFingerprint = "" then none else some ⟨v.sshFingerprint, v.sshPort⟩

/-- What is pinned for a device after one more request: an update of it decides
anew, and one that the process does not survive leaves it open. -/
def pinAfter (id : String) (pin : Option HostKey) : Event Op Answer → Option HostKey
  | .answered (.updateDevice _ id' (.ok v)) ⟨.json .ok, _⟩ => if id' = id then v.pin else pin
  | .interrupted (.updateDevice _ id' _) _ => if id' = id then none else pin
  | _ => pin

/-- The host key that the last update of a device has stored. -/
def pinned (history : List (Event Op Answer)) (id : String) : Option HostKey :=
  history.foldl (pinAfter id) none

theorem pinned_append (history : List (Event Op Answer)) (e : Event Op Answer) (id : String) :
    pinned (history ++ [e]) id = pinAfter id (pinned history id) e := by
  rw [pinned, List.foldl_append, List.foldl_cons, List.foldl_nil, pinned]

/-- A heartbeat that passes the checks (a known id with its token, at most twenty
diagnostics) and reports a usable SSH account for a device without an SSH user
finds no fingerprint on record, or the very key that it would store. -/
def FillsNothingPinned (p : Process) : Op → Prop
  | .heartbeat _ authorization (.ok v) => ∀ d ∈ p.server.device v.id,
      equal d.token (bearer authorization) = true → v.diagnostics.length ≤ 20 →
        Server.fillsSSH d v = true →
        d.sshFingerprint = "" ∨ d.hostKey = ⟨v.sshFingerprint, 22⟩
  | _ => True

instance (p : Process) (op : Op) : Decidable (FillsNothingPinned p op) := by
  unfold FillsNothingPinned
  split <;> infer_instance

/-! ### Host keys on record -/

/-- A key with a fingerprint stays. -/
def State.KeepsKeys (st st' : State) : Prop :=
  ∀ id k, k.fingerprint ≠ "" → st.hostKey id = some k → st'.hostKey id = some k

/-- The same devices have the same keys. -/
theorem State.KeepsKeys.of_eq {st st' : State} (h : st'.devices = st.devices) :
    st.KeepsKeys st' := by
  intro id k _ hKey
  rw [State.hostKey, h]
  exact hKey

/-- An update of one record that leaves the id alone, seen by the host keys. -/
theorem hostKey_setDevice (s : Server) (id id' : String) {f : Device → Device}
    (hf : ∀ d, (f d).id = d.id) :
    (s.setDevice id f).state.hostKey id' =
      if id' = id then (s.device id').map fun d => (f d).hostKey else s.state.hostKey id' := by
  rw [State.hostKey, Server.setDevice, FirstMatch.find?_update_key hf]
  split
  · rw [Option.map_map]
    rfl
  · rfl

/-- Changing a device keeps the keys if it keeps its own. -/
theorem keepsKeys_setDevice {s : Server} {id : String} {f : Device → Device}
    (hf : ∀ d, (f d).id = d.id)
    (hKey : ∀ d, s.device id = some d → d.sshFingerprint ≠ "" → (f d).hostKey = d.hostKey) :
    s.state.KeepsKeys (s.setDevice id f).state := by
  intro id' k hk hOld
  rw [hostKey_setDevice s id id' hf]
  split
  · next hSame =>
      subst hSame
      obtain ⟨d, hd, rfl⟩ := Option.map_eq_some_iff.mp hOld
      rw [Server.device, hd, Option.map_some, hKey d hd hk]
  · exact hOld

/-- A new device changes no key of another. -/
theorem keepsKeys_append {st st' : State} {d : Device} (h : st'.devices = st.devices ++ [d]) :
    st.KeepsKeys st' := by
  intro id k _ hOld
  obtain ⟨e, he, rfl⟩ := Option.map_eq_some_iff.mp hOld
  rw [State.hostKey, h, List.find?_append, he]
  rfl

/-- A heartbeat fills the key of a device in only where none is pinned. -/
theorem heartbeat_keepsKeys {env : Env} {authorization : String}
    {body : Decoded Server.HeartbeatRequest} {p : Process}
    (hGuard : FillsNothingPinned p (.heartbeat env authorization body)) :
    (p.server.heartbeat env authorization body).Holds
      (fun s => p.server.state.KeepsKeys s.state) fun s => p.server.state.KeepsKeys s.state := by
  rcases Server.heartbeat_cases env authorization body p.server with ⟨status, e, hBeat⟩ |
    ⟨v, d, ans, rfl, hd, hToken, hFew, ⟨hFills, hBeat⟩ | ⟨-, hBeat⟩⟩
  · rw [hBeat]
    exact State.KeepsKeys.of_eq rfl
  · have hKey : ∀ d', p.server.device v.id = some d' → d'.sshFingerprint ≠ "" →
        (⟨v.sshFingerprint, 22⟩ : HostKey) = d'.hostKey := by
      intro d' hd' hPinned
      cases hd.symm.trans hd'
      exact ((hGuard d hd hToken hFew hFills).resolve_left hPinned).symm
    have hReported : p.server.state.KeepsKeys (p.server.setDevice v.id
        (Server.report v ∘ Server.fillSSH v ∘ Server.markSeen env.now)).state :=
      keepsKeys_setDevice (fun _ => rfl) hKey
    rw [hBeat]
    exact ⟨keepsKeys_setDevice (fun _ => rfl) hKey, hReported, hReported⟩
  · rw [hBeat]
    exact keepsKeys_setDevice (fun _ => rfl) fun _ _ _ => rfl

/-- The requests and tasks other than updates. -/
theorem exec_keepsKeys {p : Process} {op : Op} {sec : Section Process Answer}
    (hGuard : FillsNothingPinned p op) (hOther : ∀ env id body, op ≠ .updateDevice env id body)
    (hSec : p.exec op = some sec) :
    sec.Holds (fun q => p.server.state.KeepsKeys q.server.state)
      (fun q => p.server.state.KeepsKeys q.server.state) := by
  have hSame : p.server.state.KeepsKeys p.server.state := .of_eq rfl
  cases op with
  | createCode env body =>
      obtain ⟨codes, hResult, -⟩ := Server.createCode_cases env body p.server
      obtain rfl := Option.some.inj hSec
      rw [Section.holds_map, hResult]
      exact hSame
  | join env body =>
      obtain rfl := Option.some.inj hSec
      rw [Section.holds_map]
      rcases Server.join_cases env body p.server with ⟨status, e, wg, hJoin⟩ |
        ⟨req, plan, rfl, hPlan, hJoin⟩
      · rw [hJoin]
        exact hSame
      · rw [hJoin]
        exact ⟨keepsKeys_append (Server.addDevice_devices ..),
          keepsKeys_append (Server.addDevice_devices ..), .of_eq (by simp)⟩
  | heartbeat env authorization body =>
      obtain rfl := Option.some.inj hSec
      exact (Section.holds_map ..).mpr (heartbeat_keepsKeys hGuard)
  | updateDevice env id body => exact absurd rfl (hOther env id body)
  | putPolicy env id body =>
      obtain rfl := Option.some.inj hSec
      rw [Section.holds_map]
      rcases Server.putPolicy_cases env id body p.server with ⟨status, e, hPut⟩ |
        ⟨v, -, -, -, -, -, hPut⟩
      · rw [hPut]
        exact hSame
      · rw [hPut]
        have hStored : p.server.state.KeepsKeys
            (p.server.withPolicy env (Server.storedPolicy id v)).state := .of_eq (by simp [Server.withPolicy])
        exact ⟨hStored, hStored, hStored⟩
  | setActive id active =>
      obtain rfl := Option.some.inj hSec
      exact State.KeepsKeys.of_eq rfl
  | writeProbe id result =>
      obtain rfl := Option.some.inj hSec
      exact keepsKeys_setDevice (fun _ => rfl) fun _ _ _ => rfl
  | saveProbe =>
      obtain rfl := Option.some.inj hSec
      exact ⟨hSame, hSame, hSame⟩
  | auditSession env action detail =>
      obtain rfl := Option.some.inj hSec
      have hAudited : p.server.state.KeepsKeys (p.server.audit env.now action detail).state :=
        .of_eq (by simp)
      exact ⟨hAudited, hAudited, hAudited⟩
  | putMapping | openMapping | commitMapping | deleteMapping | restoreMappings | restoreNext
  | restoreMark =>
      exact (Process.forwarding_devices rfl hSec).mono (fun _ hq => .of_eq hq) fun _ hq => .of_eq hq

/-- An update of a device pins a key for it, or takes the pin away; other
devices keep theirs. -/
theorem hostKey_withSettings (env : Env) (id id' : String) (v : Server.DeviceSettings) {s : Server}
    {old : Device} (hOld : s.device id = some old) :
    (s.withSettings env id v).state.hostKey id' =
      if id' = id then some ⟨v.sshFingerprint, v.sshPort⟩ else s.state.hostKey id' := by
  have hDevices : (s.withSettings env id v).state.devices =
      (s.setDevice id (Server.applySettings v)).state.devices := by simp [Server.withSettings]
  rw [State.hostKey, hDevices]
  have hKeys := hostKey_setDevice s id id' (f := Server.applySettings v) fun _ => rfl
  rw [State.hostKey] at hKeys
  rw [hKeys]
  split
  · next hSame =>
      rw [hSame, hOld]
      rfl
  · rfl

/-- What is pinned is on record. -/
def Respects (history : List (Event Op Answer)) (st : State) : Prop :=
  ∀ id k, pinned history id = some k → st.hostKey id = some k

/-- What is pinned has a fingerprint. -/
theorem pin_fingerprint {v : Server.DeviceSettings} {k : HostKey} (h : v.pin = some k) :
    k = ⟨v.sshFingerprint, v.sshPort⟩ ∧ k.fingerprint ≠ "" := by
  unfold Server.DeviceSettings.pin at h
  split_ifs at h with hEmpty
  obtain rfl := Option.some.inj h
  exact ⟨rfl, hEmpty⟩

/-- A pinned key has a fingerprint. -/
theorem pinned_fingerprint {history : List (Event Op Answer)} {id : String} {k : HostKey}
    (h : pinned history id = some k) : k.fingerprint ≠ "" := by
  induction history using List.reverseRecOn generalizing k with
  | nil => cases h
  | append_singleton history e ih =>
      rw [pinned_append] at h
      unfold pinAfter at h
      split at h
      · split at h
        · exact (pin_fingerprint h).2
        · exact ih h
      · split at h
        · cases h
        · exact ih h
      · exact ih h

/-- A request that keeps the keys keeps those that were pinned. -/
theorem Respects.keep {history : List (Event Op Answer)} {st st' : State} (h : Respects history st)
    (hKeeps : st.KeepsKeys st') {e : Event Op Answer}
    (hOther : ∀ env id body, e.op ≠ .updateDevice env id body) : Respects (history ++ [e]) st' := by
  intro id k hPinned
  have hSame : pinAfter id (pinned history id) e = pinned history id := by
    unfold pinAfter
    split
    · exact absurd rfl (hOther _ _ _)
    · exact absurd rfl (hOther _ _ _)
    · rfl
  rw [pinned_append, hSame] at hPinned
  exact hKeeps id k (pinned_fingerprint hPinned) (h id k hPinned)

/-- An update of a device, up to its answer or up to the death of the process. -/
theorem Respects.update {history : List (Event Op Answer)} {s : Server} {disk : State}
    (hMem : Respects history s.state) (hDisk : Respects history disk) (env : Env) (id : String)
    (body : Decoded Server.DeviceSettings) (saved : Bool) :
    let sec := s.updateDevice env id body
    let answered := history ++ [.answered (.updateDevice env id body) (sec.result saved).2]
    Respects answered (sec.result saved).1.state ∧
      Respects answered (sec.written Server.state saved disk) ∧
      Respects (history ++ [.interrupted (.updateDevice env id body) (sec.result true).2])
        (sec.written Server.state saved disk) := by
  have hInterrupted : ∀ (ans : Answer) (st : State),
      (∀ id', id' ≠ id → ∀ k, pinned history id' = some k → st.hostKey id' = some k) →
      Respects (history ++ [.interrupted (.updateDevice env id body) ans]) st := by
    intro ans st hOthers id' k hPinned
    rw [pinned_append] at hPinned
    simp only [pinAfter] at hPinned
    split at hPinned
    · cases hPinned
    · next hOther => exact hOthers id' (Ne.symm hOther) k hPinned
  rcases Server.updateDevice_cases env id body s with ⟨status, e, hUpdate⟩ |
    ⟨v, old, rfl, -, hOld, hUpdate⟩
  · simp only [hUpdate]
    have hSame : ∀ st, Respects history st → Respects
        (history ++ [.answered (.updateDevice env id body) ⟨.fail status e, []⟩]) st := by
      intro st hst id' k hPinned
      rw [pinned_append] at hPinned
      cases body <;> exact hst id' k hPinned
    exact ⟨hSame _ hMem, hSame _ hDisk, hInterrupted _ _ fun id' _ k hPinned => hDisk id' k hPinned⟩
  · simp only [hUpdate]
    have hNew : ∀ id', id' ≠ id → ∀ k, pinned history id' = some k →
        (s.withSettings env id v).state.hostKey id' = some k := by
      intro id' hOther k hPinned
      rw [hostKey_withSettings env id id' v hOld, if_neg hOther]
      exact hMem id' k hPinned
    cases saved with
    | true =>
        have hStored : Respects
            (history ++ [.answered (.updateDevice env id (.ok v)) ⟨.json .ok, []⟩])
            (s.withSettings env id v).state := by
          intro id' k hPinned
          rw [pinned_append] at hPinned
          simp only [pinAfter] at hPinned
          split at hPinned
          · next hSame =>
              rw [hostKey_withSettings env id id' v hOld, if_pos hSame.symm, (pin_fingerprint hPinned).1]
          · next hOther => exact hNew id' (Ne.symm hOther) k hPinned
        exact ⟨hStored, hStored, hInterrupted _ _ hNew⟩
    | false =>
        have hSame : ∀ st, Respects history st → Respects
            (history ++ [.answered (.updateDevice env id (.ok v)) ⟨.fail 500 env.saveError, []⟩]) st := by
          intro st hst id' k hPinned
          rw [pinned_append] at hPinned
          exact hst id' k hPinned
        refine ⟨hSame _ fun id' k hPinned => ?_, hSame _ hDisk,
          hInterrupted _ _ fun id' _ k hPinned => hDisk id' k hPinned⟩
        have hRestored : ((s.withSettings env id v).setDevice id fun _ => old).state.devices =
            s.state.devices := by
          have hBack := Server.setDevice_restore (f := Server.applySettings v) hOld fun _ => rfl
          simpa [Server.withSettings, Server.setDevice, Server.audit] using hBack
        have hKey := hMem id' k hPinned
        simp only [Section.result, State.hostKey, hRestored]
        exact hKey

/-- Any request or task, up to its answer or up to the death of the process. -/
theorem Respects.exec {history : List (Event Op Answer)} {p : Process}
    {disk : State} (hMem : Respects history p.server.state) (hDisk : Respects history disk) {op : Op}
    (hGuard : FillsNothingPinned p op) {sec : Section Process Answer} (hSec : p.exec op = some sec)
    (saved : Bool) :
    let answered := history ++ [.answered op (sec.result saved).2]
    Respects answered (sec.result saved).1.server.state ∧
      Respects answered (sec.written (fun q => q.server.state) saved disk) ∧
      Respects (history ++ [.interrupted op (sec.result true).2])
        (sec.written (fun q => q.server.state) saved disk) := by
  by_cases hUpdate : ∃ env id body, op = .updateDevice env id body
  · obtain ⟨env, id, body, rfl⟩ := hUpdate
    obtain rfl := Option.some.inj hSec
    have hResult := hMem.update hDisk env id body saved
    cases hSection : p.server.updateDevice env id body with
    | answer mem ans =>
        rw [hSection] at hResult
        exact hResult
    | persist mem yes no =>
        rw [hSection] at hResult
        cases saved <;> exact hResult
  · have hOther : ∀ env id body, op ≠ .updateDevice env id body := fun env id body hOp =>
      hUpdate ⟨env, id, body, hOp⟩
    have hHolds := exec_keepsKeys hGuard hOther hSec
    have hWritten : disk.KeepsKeys (sec.written (fun q => q.server.state) saved disk) ∨
        p.server.state.KeepsKeys (sec.written (fun q => q.server.state) saved disk) := by
      cases sec with
      | answer mem ans => exact .inl (.of_eq rfl)
      | persist mem yes no =>
          cases saved with
          | true => exact .inr hHolds.1
          | false => exact .inl (.of_eq rfl)
    refine ⟨hMem.keep (hHolds.result saved) hOther, ?_, ?_⟩
    · exact hWritten.elim (fun hKeeps => hDisk.keep hKeeps hOther) fun hKeeps => hMem.keep hKeeps hOther
    · exact hWritten.elim (fun hKeeps => hDisk.keep hKeeps hOther) fun hKeeps => hMem.keep hKeeps hOther

/-- In every run in which no heartbeat fills in over a pinned key, a key that an
update has stored stays on record until the next update of that device. -/
theorem hostKeys_pinned {cfg : ServerConfig} {token : String} {s : Machine Process State Op Answer}
    (h : Reachable (runsWhere cfg token FillsNothingPinned) s) {p : Process} (hUp : s.mem = some p)
    (id : String) (k : HostKey) (hPinned : pinned s.history id = some k) :
    p.server.state.hostKey id = some k := by
  have hInvariant : (∀ p, s.mem = some p → Respects s.history p.server.state) ∧
      Respects s.history s.disk := by
    refine Reachable.invariant (I := fun s : Machine Process State Op Answer =>
      (∀ p, s.mem = some p → Respects s.history p.server.state) ∧ Respects s.history s.disk)
      ?_ ?_ h
    · rintro s rfl
      exact ⟨fun _ _ _ _ hNone => (by cases hNone), fun _ _ hNone => (by cases hNone)⟩
    · rintro s l t ⟨hMem, hDisk⟩ ⟨hAllowed, hStep⟩
      rcases Service.step_cases hStep with ⟨op, saved, p, sec, rfl, hp, hSec, rfl⟩ |
        ⟨p, rfl, hp, rfl⟩ | ⟨op, renamed, p, sec, rfl, hp, hSec, rfl⟩ | ⟨rfl, hp, rfl⟩
      · have hNext := (hMem p hp).exec hDisk (hAllowed p op hp rfl).2 hSec saved
        exact ⟨fun q hq => by cases hq; exact hNext.1, hNext.2.1⟩
      · exact ⟨by simp, hDisk⟩
      · exact ⟨by simp, ((hMem p hp).exec hDisk (hAllowed p op hp rfl).2 hSec renamed).2.2⟩
      · exact ⟨fun q hq => by cases hq; exact hDisk, hDisk⟩
  exact hInvariant.1 p hUp id k hPinned

/-- The administrator sets a fingerprint with or without a user. -/
def setHostKey (user : String) : Op :=
  .updateDevice (sampleEnv 'a' 'b') "cloud" (.ok ⟨"server", 0, "http", user, "SHA256:checked", 2222⟩)

/-- The device itself reports an account and another fingerprint. -/
def reportHostKey : Op :=
  .heartbeat (sampleEnv 'a' 'b') "Bearer secret" (.ok ⟨"root", "SHA256:reported", "cloud", "1", 0, []⟩)

/-- What is pinned for the server's own device, and what is on record for it. -/
def cloudKeys (s : Machine Process State Op Answer) : Option (Option HostKey × Option HostKey) :=
  s.mem.map fun p => (pinned s.history "cloud", p.server.state.hostKey "cloud")

theorem hostKeys_with_user :
    ∃ p : Process, p.server.state.hostKey "cloud" = some ⟨"SHA256:checked", 2222⟩ := by
  have hRun : ∃ s, Reachable (runsWhere sampleConfig "secret" FillsNothingPinned) s ∧
      cloudKeys s = some (some ⟨"SHA256:checked", 2222⟩, some ⟨"SHA256:checked", 2222⟩) :=
    Service.exists_machine _ [.run (setHostKey "admin") true, .run reportHostKey true] cloudKeys _
      (by decide +kernel)
  obtain ⟨s, hReach, hView⟩ := hRun
  obtain ⟨p, hUp, hKeys⟩ := Option.map_eq_some_iff.mp hView
  exact ⟨p, hostKeys_pinned hReach hUp "cloud" _ (Prod.mk.inj hKeys).1⟩

/-- A fingerprint stored without a user is overwritten, and the port with it. -/
theorem pinned_key_replaced :
    ¬∀ (cfg : ServerConfig) (token : String) (s : Machine Process State Op Answer) (p : Process)
      (id : String) (k : HostKey), Reachable (runs cfg token) s → s.mem = some p →
      pinned s.history id = some k → p.server.state.hostKey id = some k := by
  intro hAll
  have hRun : ∃ s, Reachable (runs sampleConfig "secret") s ∧
      cloudKeys s = some (some ⟨"SHA256:checked", 2222⟩, some ⟨"SHA256:reported", 22⟩) :=
    Service.exists_machine _ [.run (setHostKey "") true, .run reportHostKey true] cloudKeys _
      (by decide +kernel)
  obtain ⟨s, hReach, hView⟩ := hRun
  obtain ⟨p, hUp, hKeys⟩ := Option.map_eq_some_iff.mp hView
  obtain ⟨hPinned, hRecord⟩ := Prod.mk.inj hKeys
  have hKept := hAll sampleConfig "secret" s p "cloud" _ hReach hUp hPinned
  rw [hRecord] at hKept
  exact absurd hKept (by decide)

end NetConductor
