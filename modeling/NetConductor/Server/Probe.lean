import NetConductor.Server.Runs
import NetConductor.Text.Decimal

/-! `probe` beside the other requests: it reads the counters of `wg`, copies the
device list, and starts a goroutine for each device that asks its proxy for the
health page and writes what it knows back into the record of that device. -/
namespace NetConductor
open GoText Durable Transition

/-- What the kernel counts for one peer. -/
structure PeerStats where
  key : String
  handshake : Nat
  rx : Nat
  tx : Nat
deriving DecidableEq

/-- The output of `wg show latest-handshakes` as `runWG` returns it. -/
def showHandshakes (peers : List PeerStats) : String :=
  String.ofList (trimSpace (unlines (peers.map fun p =>
    unwords [p.key.toList, Nat.toDigits 10 p.handshake])))

/-- The output of `wg show transfer`. -/
def showTransfer (peers : List PeerStats) : String :=
  String.ofList (trimSpace (unlines (peers.map fun p =>
    unwords [p.key.toList, Nat.toDigits 10 p.rx, Nat.toDigits 10 p.tx])))

/-- What the kernel lists: one line a key, without white space in it. -/
structure PeerList where
  peers : List PeerStats
  keys : (peers.map PeerStats.key).Nodup
  words : ∀ p ∈ peers, IsWord p.key.toList

/-! ### Reading the tables -/

def readHandshake (h : GoMap Int) : List Chars → GoMap Int
  | [key, n] => h.insert (String.ofList key) (parseInt n)
  | _ => h

def readTransfer (m : GoMap Int × GoMap Int) : List Chars → GoMap Int × GoMap Int
  | [key, rx, tx] =>
      (m.1.insert (String.ofList key) (parseInt rx), m.2.insert (String.ofList key) (parseInt tx))
  | _ => m

structure Readings where
  h : GoMap Int
  rx : GoMap Int
  tx : GoMap Int

def readings (hand transfer : String) : Readings :=
  let m := (lines transfer.toList).foldl (fun m l => readTransfer m (fields l)) (∅, ∅)
  ⟨(lines hand.toList).foldl (fun h l => readHandshake h (fields l)) ∅, m.1, m.2⟩

/-- A map gives 0 for a key that is not in it. -/
def count (m : GoMap Int) (key : String) : Int := (m.lookup key).getD 0

/-! ### The health check -/

/-- How the request for the health page ends. -/
inductive HealthCheck where
  | notBuilt
  | failed
  | status (code : Nat)
deriving DecidableEq

/-- `healthy` and `msg` of a goroutine. -/
def verdict (d : Device) (check : HealthCheck) : Bool × String :=
  if 0 < d.proxyPort then
    match check with
    | .notBuilt => (false, "未配置共享代理")
    | .failed => (false, "出口请求失败")
    | .status code => (decide (code < 500), "HTTP " ++ toString code)
  else (false, "未配置共享代理")

def probeResult (r : Readings) (d : Device) (check : HealthCheck) : Server.ProbeResult where
  handshake := count r.h d.publicKey
  rx := count r.rx d.publicKey
  tx := count r.tx d.publicKey
  healthy := (verdict d check).1
  message := (verdict d check).2

/-! ### What the tables say -/

/-- The number shown for a counter of the kernel. -/
def shownCount (n : Nat) : Int := (min n (2 ^ 63 - 1) : Nat)

def PeerList.stat (peers : PeerList) (f : PeerStats → Nat) (key : String) : Int :=
  ((peers.peers.find? fun p => p.key = key).map fun p => shownCount (f p)).getD 0

/-- Rows with one entry a key, put into a map. -/
theorem lookup_foldl_insert {α : Type} {key : α → String} {value : α → Int} {rows : List α}
    (hKeys : (rows.map key).Nodup) (m : GoMap Int) (k : String) :
    (rows.foldl (fun m a => m.insert (key a) (value a)) m).lookup k =
      ((rows.find? fun a => key a = k).map value).or (m.lookup k) := by
  induction rows generalizing m with
  | nil => simp
  | cons a rest ih =>
      obtain ⟨hNew, hRest⟩ := List.nodup_cons.mp hKeys
      rw [List.foldl_cons, ih hRest]
      by_cases hk : key a = k
      · have hNone : rest.find? (fun b => key b = k) = none := by
          refine List.find?_eq_none.mpr fun b hb hSame => hNew ?_
          rw [hk, ← of_decide_eq_true hSame]
          exact List.mem_map_of_mem hb
        subst hk
        simp [hNone]
      · rw [List.find?_cons_of_neg (by simpa using hk), AList.lookup_insert_ne (Ne.symm hk)]

/-- A printed table of numbers, read line by line. -/
theorem foldl_printed {α β : Type} {row : α → List Chars} {step : β → List Chars → β} {b : β}
    (hNoRow : ∀ b, step b [] = b) {rows : List α} (hRow : ∀ a ∈ rows, row a ≠ [])
    (hWords : ∀ a ∈ rows, ∀ w ∈ row a, IsWord w) :
    (lines (trimSpace (unlines (rows.map fun a => unwords (row a))))).foldl
      (fun b l => step b (fields l)) b = rows.foldl (fun b a => step b (row a)) b := by
  have hFields : ∀ ls : List Chars, ls.foldl (fun b l => step b (fields l)) b =
      (ls.map fields).foldl step b := fun ls => (List.foldl_map ..).symm
  have hMap : (rows.map fun a => unwords (row a)) = (rows.map row).map unwords := by simp
  rw [hFields, hMap]
  by_cases hNone : rows.map row = []
  · rw [hNone, List.map_nil, read_no_rows]
    obtain rfl : rows = [] := by simpa using hNone
    exact hNoRow b
  · rw [read_rows _ _ hNone, List.foldl_map]
    · rintro r hr
      obtain ⟨a, ha, rfl⟩ := List.mem_map.mp hr
      exact hRow a ha
    · rintro r hr
      obtain ⟨a, ha, rfl⟩ := List.mem_map.mp hr
      exact hWords a ha

/-- The handshakes that are read are those that were printed for the key. -/
theorem count_handshakes (peers : PeerList) (transfer key : String) :
    count (readings (showHandshakes peers.peers) transfer).h key = peers.stat PeerStats.handshake key := by
  have hRead : (readings (showHandshakes peers.peers) transfer).h =
      peers.peers.foldl (fun m p => m.insert p.key (shownCount p.handshake)) ∅ := by
    simp only [readings, showHandshakes, String.toList_ofList]
    rw [foldl_printed (fun _ => rfl) (fun _ _ => by simp) fun p hp w hw => ?_]
    · simp only [readHandshake, String.ofList_toList, parseInt_toDigits, shownCount]
    · rcases List.mem_cons.mp hw with rfl | hw
      · exact peers.words p hp
      · obtain rfl := List.mem_singleton.mp hw
        exact isWord_toDigits _
  rw [count, hRead, lookup_foldl_insert peers.keys]
  simp [PeerList.stat, AList.lookup_empty]

/-- Two maps filled in one loop. -/
theorem foldl_pair {α β γ : Type} (f : β → α → β) (g : γ → α → γ) (rows : List α) (b : β) (c : γ) :
    rows.foldl (fun m a => (f m.1 a, g m.2 a)) (b, c) = (rows.foldl f b, rows.foldl g c) := by
  induction rows generalizing b c with
  | nil => rfl
  | cons a rest ih => exact ih (f b a) (g c a)

/-- Both counters are read back from the list that `wg` has printed. -/
theorem count_transfers (peers : PeerList) (hand key : String) :
    count (readings hand (showTransfer peers.peers)).rx key = peers.stat PeerStats.rx key ∧
      count (readings hand (showTransfer peers.peers)).tx key = peers.stat PeerStats.tx key := by
  have hRead : (lines (showTransfer peers.peers).toList).foldl (fun m l => readTransfer m (fields l))
      (∅, ∅) = (peers.peers.foldl (fun m p => m.insert p.key (shownCount p.rx)) ∅,
        peers.peers.foldl (fun m p => m.insert p.key (shownCount p.tx)) ∅) := by
    simp only [showTransfer, String.toList_ofList]
    rw [foldl_printed (fun _ => rfl) (fun _ _ => by simp) fun p hp w hw => ?_]
    · simp only [readTransfer, String.ofList_toList, parseInt_toDigits]
      exact foldl_pair (fun (m : GoMap Int) (p : PeerStats) => m.insert p.key (shownCount p.rx))
        (fun (m : GoMap Int) (p : PeerStats) => m.insert p.key (shownCount p.tx)) peers.peers ∅ ∅
    · simp only [List.mem_cons, List.not_mem_nil, or_false] at hw
      rcases hw with rfl | rfl | rfl
      · exact peers.words p hp
      · exact isWord_toDigits _
      · exact isWord_toDigits _
  constructor
  · rw [count, readings, hRead, lookup_foldl_insert peers.keys]
    simp [PeerList.stat, AList.lookup_empty]
  · rw [count, readings, hRead, lookup_foldl_insert peers.keys]
    simp [PeerList.stat, AList.lookup_empty]

/-- A command that fails prints nothing. -/
theorem count_nothing (hand transfer key : String) :
    count (readings "" transfer).h key = 0 ∧ count (readings hand "").rx key = 0 ∧
      count (readings hand "").tx key = 0 := ⟨rfl, rfl, rfl⟩

/-! ### What the other requests do to the counters -/

/-- What names a device, and what probes write. -/
structure DeviceTally where
  id : String
  publicKey : String
  handshake : Int
  rx : Int
  tx : Int
  healthy : Bool
  message : String
deriving DecidableEq

def Device.tally (d : Device) : DeviceTally :=
  ⟨d.id, d.publicKey, d.handshake, d.rx, d.tx, d.proxyHealthy, d.proxyError⟩

def State.tallies (st : State) : List DeviceTally := st.devices.map Device.tally

/-- The list of tallies stays, or a device that no probe has seen comes to it. -/
def Extends (old new : List DeviceTally) : Prop :=
  new = old ∨ ∃ id key, (∀ t ∈ old, t.id ≠ id) ∧ new = old ++ [⟨id, key, 0, 0, 0, false, ""⟩]

theorem tallies_setDevice (s : Server) (id : String) {f : Device → Device}
    (hf : ∀ d, (f d).tally = d.tally) : (s.setDevice id f).state.tallies = s.state.tallies :=
  FirstMatch.map_update hf s.state.devices

/-- All but the write-back of a probe leave the tallies alone. -/
def Op.writes : Op → Bool
  | .writeProbe .. => true
  | _ => false

theorem Extends.of_devices {s t : Server} (h : t.state.devices = s.state.devices) :
    Extends s.state.tallies t.state.tallies :=
  .inl (by simp only [State.tallies, h])

/-- A join adds a device with nothing counted. -/
theorem join_tallies (env : Env) (body : Decoded Server.JoinRequest) (s : Server)
    (hNew : ∀ i ∈ s.identities, i.id ≠ idOf env.token) :
    (s.join env body).Holds (fun t => Extends s.state.tallies t.state.tallies)
      (fun t => Extends s.state.tallies t.state.tallies) := by
  rcases Server.join_cases env body s with ⟨status, e, wg, hJoin⟩ | ⟨req, plan, rfl, hPlan, hJoin⟩
  · rw [hJoin]
    exact .inl rfl
  · have hAdded : Extends s.state.tallies
        (s.addDevice env (Server.joinedDevice req env plan.ip)).state.tallies := by
      refine .inr ⟨idOf env.token, req.publicKey, fun t ht => ?_, ?_⟩
      · obtain ⟨d, hd, rfl⟩ := List.mem_map.mp ht
        exact hNew d.identity (List.mem_map_of_mem hd)
      · simp [State.tallies, Device.tally, Server.joinedDevice, Device.zero]
    rw [hJoin]
    exact ⟨hAdded, hAdded, .of_devices (by simp)⟩

theorem heartbeat_tallies (env : Env) (authorization : String)
    (body : Decoded Server.HeartbeatRequest) (s : Server) :
    (s.heartbeat env authorization body).Holds (fun t => Extends s.state.tallies t.state.tallies)
      (fun t => Extends s.state.tallies t.state.tallies) := by
  rcases Server.heartbeat_cases env authorization body s with ⟨status, e, hBeat⟩ |
    ⟨v, d, ans, -, -, -, -, ⟨-, hBeat⟩ | ⟨-, hBeat⟩⟩
  · rw [hBeat]
    exact .inl rfl
  · rw [hBeat]
    exact ⟨.inl (tallies_setDevice _ _ fun _ => rfl), .inl (tallies_setDevice _ _ fun _ => rfl),
      .inl (tallies_setDevice _ _ fun _ => rfl)⟩
  · rw [hBeat]
    exact .inl (tallies_setDevice _ _ fun _ => rfl)

theorem updateDevice_tallies (env : Env) (id : String) (body : Decoded Server.DeviceSettings)
    (s : Server) :
    (s.updateDevice env id body).Holds (fun t => Extends s.state.tallies t.state.tallies)
      (fun t => Extends s.state.tallies t.state.tallies) := by
  rcases Server.updateDevice_cases env id body s with ⟨status, e, hUpdate⟩ |
    ⟨v, old, -, -, hOld, hUpdate⟩
  · rw [hUpdate]
    exact .inl rfl
  · have hNew : (s.withSettings env id v).state.tallies = s.state.tallies := by
      simp only [Server.withSettings, State.tallies, Server.audit_devices]
      exact tallies_setDevice _ _ fun _ => rfl
    have hBack : ((s.withSettings env id v).setDevice id fun _ => old).state.devices =
        s.state.devices := by
      have hRestored := Server.setDevice_restore (f := Server.applySettings v) hOld fun _ => rfl
      simpa only [Server.withSettings, Server.setDevice, Server.audit] using hRestored
    rw [hUpdate]
    exact ⟨.inl hNew, .inl hNew, .of_devices hBack⟩

/-- Nothing but the end of a probe changes a counter. -/
theorem exec_tallies {p : Process} {op : Op} {sec : Section Process Answer}
    (hOp : op.writes = false) (hFresh : FreshTokens p op) (hSec : p.exec op = some sec) :
    sec.Holds (fun q => Extends p.server.state.tallies q.server.state.tallies)
      (fun q => Extends p.server.state.tallies q.server.state.tallies) := by
  by_cases hForwarding : op.forwarding = true
  · exact (Process.forwarding_devices hForwarding hSec).mono (fun q hq => .of_devices hq)
      fun q hq => .of_devices hq
  cases op with
  | createCode env body =>
      obtain ⟨codes, hResult, -⟩ := Server.createCode_cases env body p.server
      obtain rfl := Option.some.inj hSec
      rw [Section.holds_map, hResult]
      exact .inl rfl
  | join env body =>
      obtain rfl := Option.some.inj hSec
      exact (Section.holds_map ..).mpr (join_tallies env body p.server hFresh.2)
  | heartbeat env authorization body =>
      obtain rfl := Option.some.inj hSec
      exact (Section.holds_map ..).mpr (heartbeat_tallies env authorization body p.server)
  | updateDevice env id body =>
      obtain rfl := Option.some.inj hSec
      exact (Section.holds_map ..).mpr (updateDevice_tallies env id body p.server)
  | putPolicy env id body =>
      obtain rfl := Option.some.inj hSec
      rw [Section.holds_map]
      rcases Server.putPolicy_cases env id body p.server with ⟨status, e, hPut⟩ |
        ⟨v, -, -, -, -, -, hPut⟩ <;> rw [hPut]
      · exact .inl rfl
      · exact ⟨.inl (by simp [Server.withPolicy, State.tallies]),
          .inl (by simp [Server.withPolicy, State.tallies]),
          .inl (by simp [Server.withPolicy, State.tallies])⟩
  | setActive id active =>
      obtain rfl := Option.some.inj hSec
      exact .inl rfl
  | saveProbe =>
      obtain rfl := Option.some.inj hSec
      exact ⟨.inl rfl, .inl rfl, .inl rfl⟩
  | auditSession env action detail =>
      obtain rfl := Option.some.inj hSec
      exact ⟨.inl (by simp [State.tallies]), .inl (by simp [State.tallies]),
        .inl (by simp [State.tallies])⟩
  | writeProbe id result => simp [Op.writes] at hOp
  | putMapping | openMapping | commitMapping | deleteMapping | restoreMappings | restoreNext
  | restoreMark => exact absurd rfl hForwarding

/-! ### Probes among the requests -/

/-- What a probe has read, and once it has copied the device list, the devices
whose goroutine has not written back yet. -/
structure Probe where
  readings : Readings
  todo : Option (List Device)

/-- The server with its probes. `printed` keeps every peer list that `wg` has
printed for one of them. -/
structure Probing where
  machine : Machine Process State Op Answer
  probes : List Probe
  printed : List PeerList

inductive ProbeLabel where
  | server (l : Label Op)
  -- a command that fails prints nothing
  | read (hand transfer : Option PeerList)
  | copy (i : Nat)
  | write (i : Nat) (d : Device) (check : HealthCheck)

def output (print : List PeerStats → String) (peers : Option PeerList) : String :=
  (peers.map fun T => print T.peers).getD ""

namespace Probing

/-- The process takes its goroutines with it when it dies. -/
def step (cfg : ServerConfig) (s : Probing) : ProbeLabel → Option Probing
  | .server l => ((service cfg).step s.machine l).map fun m =>
      { s with machine := m, probes := if m.mem.isSome then s.probes else [] }
  | .read hand transfer =>
      if s.machine.mem.isSome then
        some { s with
          probes := s.probes ++
            [⟨readings (output showHandshakes hand) (output showTransfer transfer), none⟩]
          printed := s.printed ++ (hand.toList ++ transfer.toList) }
      else none
  | .copy i =>
      match s.machine.mem, s.probes[i]? with
      | some p, some ⟨r, none⟩ =>
          some { s with probes := s.probes.set i ⟨r, some p.server.state.devices⟩ }
      | _, _ => none
  | .write i d check =>
      match s.probes[i]? with
      | some ⟨r, some todo⟩ =>
          if d ∈ todo then
            ((service cfg).step s.machine
              (.run (.writeProbe d.id (probeResult r d check)) true)).map fun m =>
                { s with machine := m, probes := s.probes.set i ⟨r, some (todo.erase d)⟩ }
          else none
      | _ => none

/-- The counters are written by the probes of the list only. -/
def Allowed (s : Probing) : ProbeLabel → Prop
  | .server l =>
      match s.machine.mem, l.op with
      | some p, some op => FreshTokens p op ∧ op.writes = false
      | _, _ => True
  | _ => True

instance (s : Probing) (l : ProbeLabel) : Decidable (s.Allowed l) := by
  unfold Allowed
  split
  · split <;> infer_instance
  · infer_instance

def start (cfg : ServerConfig) (token : String) : Probing :=
  ⟨⟨some (firstProcess cfg token), firstState cfg token, []⟩, [], []⟩

def system (cfg : ServerConfig) (token : String) : System Probing ProbeLabel where
  initial s := s = start cfg token
  step s l t := s.Allowed l ∧ s.step cfg l = some t

end Probing

/-! ### Whose counters they are -/

/-- The counters are those of the key in a list that was printed, or 0, and a
proxy that counts as healthy has brought an answer below 500. -/
structure Own (printed : List PeerList) (t : DeviceTally) : Prop where
  handshake : t.handshake = 0 ∨
    ∃ T ∈ printed, t.handshake = T.stat PeerStats.handshake t.publicKey
  transfer : t.rx = 0 ∧ t.tx = 0 ∨ ∃ T ∈ printed, t.rx = T.stat PeerStats.rx t.publicKey ∧
    t.tx = T.stat PeerStats.tx t.publicKey
  healthy : t.healthy = true → ∃ code, code < 500 ∧ t.message = "HTTP " ++ toString code

/-- A later print does no harm. -/
theorem Own.mono {printed printed' : List PeerList} (hSub : ∀ T ∈ printed, T ∈ printed') {t : DeviceTally}
    (h : Own printed t) : Own printed' t := by
  refine ⟨h.handshake.imp_right ?_, h.transfer.imp_right ?_, h.healthy⟩
  · exact fun ⟨T, hT, hStat⟩ => ⟨T, hSub T hT, hStat⟩
  · exact fun ⟨T, hT, hStat⟩ => ⟨T, hSub T hT, hStat⟩

/-- A device is healthy only by an answer of its own with a status below 500. -/
theorem verdict_healthy {d : Device} {check : HealthCheck} (h : (verdict d check).1 = true) :
    ∃ code, code < 500 ∧ (verdict d check).2 = "HTTP " ++ toString code := by
  unfold verdict at h ⊢
  split at h
  · next hPort =>
      cases check with
      | notBuilt => cases h
      | failed => cases h
      | status code =>
          rw [if_pos hPort]
          exact ⟨code, of_decide_eq_true h, rfl⟩
  · cases h

/-- What a probe has read for a key, as the tally of a device with it. -/
def Readings.tally (r : Readings) (id key : String) (d : Device) (check : HealthCheck) : DeviceTally :=
  ⟨id, key, count r.h key, count r.rx key, count r.tx key, (verdict d check).1, (verdict d check).2⟩

/-- What is read for a device was printed for its key. -/
theorem own_readings (hand transfer : Option PeerList) (id key : String) (d : Device)
    (check : HealthCheck) : Own (hand.toList ++ transfer.toList)
      ((readings (output showHandshakes hand) (output showTransfer transfer)).tally id key d check) := by
  let h := output showHandshakes hand
  let tr := output showTransfer transfer
  have hHandshake : count (readings h tr).h key = 0 ∨ ∃ T ∈ hand.toList ++ transfer.toList,
      count (readings h tr).h key = T.stat PeerStats.handshake key := by
    cases hand with
    | none => exact .inl (count_nothing "" tr key).1
    | some T => exact .inr ⟨T, by simp, count_handshakes T tr key⟩
  have hTransfer : (count (readings h tr).rx key = 0 ∧ count (readings h tr).tx key = 0) ∨
      ∃ T ∈ hand.toList ++ transfer.toList, count (readings h tr).rx key = T.stat PeerStats.rx key ∧
        count (readings h tr).tx key = T.stat PeerStats.tx key := by
    cases transfer with
    | none => exact .inl (count_nothing h "" key).2
    | some T => exact .inr ⟨T, by simp, count_transfers T h key⟩
  exact ⟨hHandshake, hTransfer, verdict_healthy⟩

/-- Every device has an id of its own, and its own counters. -/
structure Truthful (printed : List PeerList) (ts : List DeviceTally) : Prop where
  ids : (ts.map DeviceTally.id).Nodup
  own : ∀ t ∈ ts, Own printed t

theorem Truthful.mono {printed printed' : List PeerList} (hSub : ∀ T ∈ printed, T ∈ printed')
    {ts : List DeviceTally} (h : Truthful printed ts) : Truthful printed' ts :=
  ⟨h.ids, fun t ht => (h.own t ht).mono hSub⟩

/-- Devices that join are no reason to doubt the others. -/
theorem Truthful.extends {printed : List PeerList} {old new : List DeviceTally}
    (h : Truthful printed old) (hExtends : Extends old new) : Truthful printed new := by
  rcases hExtends with rfl | ⟨id, key, hNew, rfl⟩
  · exact h
  · refine ⟨?_, fun t ht => ?_⟩
    · rw [List.map_append, List.nodup_append]
      refine ⟨h.ids, by simp, fun i hi j hj hSame => ?_⟩
      obtain ⟨t, ht, rfl⟩ := List.mem_map.mp hi
      obtain rfl : j = id := by simpa using hj
      exact hNew t ht hSame
    · rcases List.mem_append.mp ht with ht | ht
      · exact h.own t ht
      · obtain rfl := List.mem_singleton.mp ht
        exact ⟨.inl rfl, .inl ⟨rfl, rfl⟩, fun hHealthy => by cases hHealthy⟩

theorem Extends.sub {old new : List DeviceTally} (h : Extends old new) : ∀ t ∈ old, t ∈ new := by
  rcases h with rfl | ⟨id, key, -, rfl⟩
  · exact fun t ht => ht
  · exact fun t ht => List.mem_append_left _ ht

/-- The write-back of a device that is on record under its id and key. -/
theorem Truthful.write {printed : List PeerList} {s : Server} {r : Readings} {d : Device}
    (h : Truthful printed s.state.tallies)
    (hReadings : ∀ id key d check, Own printed (r.tally id key d check))
    (hThere : ∃ t ∈ s.state.tallies, t.id = d.id ∧ t.publicKey = d.publicKey) (check : HealthCheck) :
    Truthful printed (s.writeProbe d.id (probeResult r d check)).state.tallies := by
  have hIds : (s.writeProbe d.id (probeResult r d check)).state.tallies.map DeviceTally.id =
      s.state.tallies.map DeviceTally.id := by
    simp only [State.tallies, List.map_map]
    exact FirstMatch.map_update (f := Server.recordProbe (probeResult r d check)) (fun _ => rfl)
      s.state.devices
  refine ⟨hIds ▸ h.ids, fun t ht => ?_⟩
  obtain ⟨e, he, rfl⟩ := List.mem_map.mp ht
  rcases FirstMatch.mem_update_find he with hOld | ⟨found, hFound, rfl⟩
  · exact h.own _ (List.mem_map_of_mem hOld)
  · obtain ⟨hMem, hId⟩ := Server.device_mem hFound
    obtain ⟨t, ht, hSameId, hSameKey⟩ := hThere
    have hFoundTally : found.tally ∈ s.state.tallies := List.mem_map_of_mem hMem
    have hSame : found.tally = t :=
      List.inj_on_of_nodup_map h.ids hFoundTally ht (hId.trans hSameId.symm)
    have hKey : found.publicKey = d.publicKey := by rw [← hSameKey, ← hSame]; rfl
    have hTally : (Server.recordProbe (probeResult r d check) found).tally =
        r.tally found.id found.publicKey d check := by
      rw [Readings.tally, hKey]
      simp only [Device.tally, Server.recordProbe, probeResult, hKey]
    rw [hTally]
    exact hReadings _ _ d check

/-! ### Runs -/

namespace Probing

/-- Memory and file are truthful, every probe has read what was printed, and
the devices it has copied are still on record. -/
structure Sound (s : Probing) : Prop where
  mem : ∀ p, s.machine.mem = some p → Truthful s.printed p.server.state.tallies
  disk : Truthful s.printed s.machine.disk.tallies
  down : s.machine.mem = none → s.probes = []
  readings : ∀ probe ∈ s.probes, ∀ id key d check,
    Own s.printed (probe.readings.tally id key d check)
  copied : ∀ probe ∈ s.probes, ∀ todo, probe.todo = some todo → ∀ d ∈ todo, ∀ p,
    s.machine.mem = some p → ∃ t ∈ p.server.state.tallies, t.id = d.id ∧ t.publicKey = d.publicKey

variable {cfg : ServerConfig} {token : String} {s t : Probing}

/-- Memory and file after a step that is no write-back. -/
theorem Sound.machine (h : s.Sound) {l : Label Op} {m : Machine Process State Op Answer}
    (hAllowed : s.Allowed (.server l)) (hStep : (service cfg).step s.machine l = some m) :
    (∀ q, m.mem = some q → Truthful s.printed q.server.state.tallies ∧
      ∀ p, s.machine.mem = some p → ∀ t ∈ p.server.state.tallies, t ∈ q.server.state.tallies) ∧
    Truthful s.printed m.disk.tallies := by
  have hSection : ∀ {op p sec}, l.op = some op → s.machine.mem = some p → p.exec op = some sec →
      sec.Holds (fun q => Extends p.server.state.tallies q.server.state.tallies)
        (fun q => Extends p.server.state.tallies q.server.state.tallies) := by
    intro op p sec hOp hMem hSec
    simp only [Allowed, hMem, hOp] at hAllowed
    exact exec_tallies hAllowed.2 hAllowed.1 hSec
  have hWritten : ∀ {op p sec}, l.op = some op → s.machine.mem = some p → p.exec op = some sec →
      ∀ ok, Truthful s.printed (sec.written (service cfg).content ok s.machine.disk).tallies := by
    intro op p sec hOp hMem hSec ok
    exact (hSection hOp hMem hSec).written (K := fun st : State => Truthful s.printed st.tallies)
      (fun q hq => (h.mem p hMem).extends hq) h.disk ok
  rcases Service.step_cases hStep with ⟨op, saved, p, sec, rfl, hMem, hSec, rfl⟩ |
    ⟨p, rfl, hMem, rfl⟩ | ⟨op, renamed, p, sec, rfl, hMem, hSec, rfl⟩ | ⟨rfl, hMem, rfl⟩
  · refine ⟨fun q hq => ?_, hWritten rfl hMem hSec saved⟩
    obtain rfl := Option.some.inj hq
    have hExtends := (hSection rfl hMem hSec).result saved
    refine ⟨(h.mem p hMem).extends hExtends, fun p' hp' => ?_⟩
    obtain rfl := Option.some.inj (hMem.symm.trans hp')
    exact hExtends.sub
  · exact ⟨by simp, h.disk⟩
  · exact ⟨by simp, hWritten rfl hMem hSec renamed⟩
  · refine ⟨fun q hq => ?_, h.disk⟩
    obtain rfl := Option.some.inj hq
    exact ⟨h.disk, fun p hp => by rw [hMem] at hp; cases hp⟩

/-- The server goes on beside the probes. -/
theorem Sound.server (h : s.Sound) {l : Label Op} {m : Machine Process State Op Answer}
    (hAllowed : s.Allowed (.server l)) (hStep : (service cfg).step s.machine l = some m) :
    Sound { s with machine := m, probes := if m.mem.isSome then s.probes else [] } := by
  obtain ⟨hMem, hDisk⟩ := h.machine hAllowed hStep
  have hProbes : ∀ probe ∈ (if m.mem.isSome then s.probes else []), probe ∈ s.probes := by
    intro probe hProbe
    split at hProbe
    · exact hProbe
    · cases hProbe
  refine ⟨fun q hq => (hMem q hq).1, hDisk, fun hDown => ?_, fun probe hProbe =>
    h.readings probe (hProbes probe hProbe), fun probe hProbe todo hTodo d hd q hq => ?_⟩
  · rw [show m.mem = none from hDown]
    rfl
  cases hUp : s.machine.mem with
  | none =>
      have hNone := hProbes probe hProbe
      rw [h.down hUp] at hNone
      cases hNone
  | some p =>
      obtain ⟨t, ht, hSame⟩ := h.copied probe (hProbes probe hProbe) todo hTodo d hd p hUp
      exact ⟨t, (hMem q hq).2 p hUp t ht, hSame⟩

/-- A probe reads what was printed. -/
theorem Sound.read (h : s.Sound) (hUp : s.machine.mem.isSome = true)
    (hand transfer : Option PeerList) :
    Sound { s with
      probes := s.probes ++
        [⟨NetConductor.readings (output showHandshakes hand) (output showTransfer transfer), none⟩]
      printed := s.printed ++ (hand.toList ++ transfer.toList) } where
  mem p hp := (h.mem p hp).mono fun T hT => List.mem_append_left _ hT
  disk := h.disk.mono fun T hT => List.mem_append_left _ hT
  down hDown := by
    replace hDown : s.machine.mem = none := hDown
    simp [hDown] at hUp
  readings probe hProbe id key d check := by
    rcases List.mem_append.mp hProbe with hOld | hNew
    · exact (h.readings probe hOld id key d check).mono fun T hT => List.mem_append_left _ hT
    · obtain rfl := List.mem_singleton.mp hNew
      exact (own_readings hand transfer id key d check).mono fun T hT => List.mem_append_right _ hT
  copied probe hProbe todo hTodo := by
    rcases List.mem_append.mp hProbe with hOld | hNew
    · exact h.copied probe hOld todo hTodo
    · obtain rfl := List.mem_singleton.mp hNew
      cases hTodo

/-- It copies the devices under the mutex. -/
theorem Sound.copy (h : s.Sound) {i : Nat} {r : Readings} {p : Process}
    (hProbe : s.probes[i]? = some ⟨r, none⟩) (hUp : s.machine.mem = some p) :
    Sound { s with probes := s.probes.set i ⟨r, some p.server.state.devices⟩ } where
  mem := h.mem
  disk := h.disk
  down hDown := by
    rw [show s.machine.mem = none from hDown] at hUp
    cases hUp
  readings probe hMem := by
    rcases List.mem_or_eq_of_mem_set hMem with hOld | rfl
    · exact h.readings probe hOld
    · exact h.readings ⟨r, none⟩ (List.mem_of_getElem? hProbe)
  copied probe hMem todo hTodo d hd q hq := by
    rcases List.mem_or_eq_of_mem_set hMem with hOld | rfl
    · exact h.copied probe hOld todo hTodo d hd q hq
    · obtain rfl := Option.some.inj hTodo
      obtain rfl := Option.some.inj (hUp.symm.trans hq)
      exact ⟨d.tally, List.mem_map_of_mem hd, rfl, rfl⟩

/-- It writes to each what was read for its key. -/
theorem Sound.write (h : s.Sound) {i : Nat} {r : Readings} {todo : List Device} {d : Device}
    {check : HealthCheck} (hProbe : s.probes[i]? = some ⟨r, some todo⟩) (hd : d ∈ todo)
    {m : Machine Process State Op Answer}
    (hStep : (service cfg).step s.machine (.run (.writeProbe d.id (probeResult r d check)) true) =
      some m) :
    Sound { s with machine := m, probes := s.probes.set i ⟨r, some (todo.erase d)⟩ } := by
  have hProbeMem := List.mem_of_getElem? hProbe
  rcases Service.step_cases hStep with ⟨op, saved, p, sec, hLabel, hUp, hSec, rfl⟩ |
    ⟨p, hLabel, -⟩ | ⟨op, renamed, p, sec, hLabel, -⟩ | ⟨hLabel, -⟩
  · obtain ⟨rfl, rfl⟩ := Label.run.inj hLabel
    obtain rfl := Option.some.inj hSec
    have hWritten := (h.mem p hUp).write (h.readings _ hProbeMem)
      (h.copied _ hProbeMem todo rfl d hd p hUp) check
    have hKeys : ∀ e : Device, (∃ t ∈ p.server.state.tallies, t.id = e.id ∧ t.publicKey = e.publicKey) →
        ∃ t ∈ (p.server.writeProbe d.id (probeResult r d check)).state.tallies,
          t.id = e.id ∧ t.publicKey = e.publicKey := by
      rintro e ⟨t, ht, hSame⟩
      have hNames : (p.server.writeProbe d.id (probeResult r d check)).state.tallies.map
          (fun t => (t.id, t.publicKey)) = p.server.state.tallies.map fun t => (t.id, t.publicKey) := by
        simp only [State.tallies, List.map_map]
        exact FirstMatch.map_update (f := Server.recordProbe (probeResult r d check)) (fun _ => rfl)
          p.server.state.devices
      have hName : (t.id, t.publicKey) ∈
          (p.server.writeProbe d.id (probeResult r d check)).state.tallies.map
            fun t => (t.id, t.publicKey) := hNames ▸ List.mem_map_of_mem ht
      obtain ⟨u, hu, hEq⟩ := List.mem_map.mp hName
      exact ⟨u, hu, (Prod.mk.inj hEq).1.trans hSame.1, (Prod.mk.inj hEq).2.trans hSame.2⟩
    refine ⟨fun q hq => ?_, h.disk, by simp, fun probe hMem => ?_, fun probe hMem todo' hTodo e he q hq => ?_⟩
    · obtain rfl := Option.some.inj hq
      exact hWritten
    · rcases List.mem_or_eq_of_mem_set hMem with hOld | rfl
      · exact h.readings probe hOld
      · exact h.readings ⟨r, some todo⟩ hProbeMem
    · obtain rfl := Option.some.inj hq
      refine hKeys e ?_
      rcases List.mem_or_eq_of_mem_set hMem with hOld | rfl
      · exact h.copied probe hOld todo' hTodo e he p hUp
      · obtain rfl := Option.some.inj hTodo
        exact h.copied _ hProbeMem todo rfl e (List.mem_of_mem_erase he) p hUp
  · cases hLabel
  · cases hLabel
  · cases hLabel

/-- In every reachable state. -/
theorem sound_reachable (h : Reachable (system cfg token) s) : s.Sound := by
  refine Reachable.invariant (I := Sound) ?_ ?_ h
  · rintro _ rfl
    have hFirst : Truthful [] (firstState cfg token).tallies := by
      refine ⟨by simp [State.tallies, firstState_devices], fun t ht => ?_⟩
      obtain rfl := List.mem_singleton.mp ht
      exact ⟨.inl rfl, .inl ⟨rfl, rfl⟩, fun hHealthy => by cases hHealthy⟩
    exact ⟨fun p hp => by obtain rfl := Option.some.inj hp; exact hFirst, hFirst, by simp [start],
      by simp [start], by simp [start]⟩
  · rintro s l t hSound ⟨hAllowed, hStep⟩
    cases l with
    | server l =>
        obtain ⟨m, hm, rfl⟩ := Option.map_eq_some_iff.mp hStep
        exact hSound.server hAllowed hm
    | read hand transfer =>
        simp only [step] at hStep
        split at hStep
        · next hUp =>
            obtain rfl := Option.some.inj hStep
            exact hSound.read hUp hand transfer
        · cases hStep
    | copy i =>
        simp only [step] at hStep
        split at hStep
        · next p r hUp hProbe =>
            obtain rfl := Option.some.inj hStep
            exact hSound.copy hProbe hUp
        · cases hStep
    | write i d check =>
        simp only [step] at hStep
        split at hStep
        · next r todo hProbe =>
            split at hStep
            · next hd =>
                obtain ⟨m, hm, rfl⟩ := Option.map_eq_some_iff.mp hStep
                exact hSound.write hProbe hd hm
            · cases hStep
        · cases hStep

/-- Whatever runs beside the probes, crashes included: the counters on record
for a device, in memory and in the file, are ones that `wg` has printed for the
key of that device, or 0, and no device is listed as a healthy exit without an
answer of the health page. -/
theorem counters_are_own (h : Reachable (system cfg token) s) :
    (∀ p, s.machine.mem = some p → ∀ d ∈ p.server.state.devices, Own s.printed d.tally) ∧
      ∀ d ∈ s.machine.disk.devices, Own s.printed d.tally := by
  have hSound := sound_reachable h
  exact ⟨fun p hp d hd => (hSound.mem p hp).own _ (List.mem_map_of_mem hd),
    fun d hd => hSound.disk.own _ (List.mem_map_of_mem hd)⟩

/-- A device joins, and a probe that began after writes back what it has read. -/
def joinAndProbe : List ProbeLabel :=
  [.server (.run (.createCode (sampleEnv 'a' 'a') (.ok "")) true),
   .server (.run (.join (sampleEnv 'c' 'b') (.ok ⟨sampleToken 'a', "laptop", sampleKey⟩)) true),
   .read (some ⟨[⟨sampleKey, 7, 8, 2 ^ 63⟩], by decide, by decide⟩)
     (some ⟨[⟨sampleKey, 7, 8, 2 ^ 63⟩], by decide, by decide⟩),
   .copy 0,
   .write 0 (Server.joinedDevice ⟨sampleToken 'a', "laptop", sampleKey⟩ (sampleEnv 'c' 'b')
     "10.77.0.2") .failed]

/-- A probe with a counter beyond the range of an `int64`. -/
theorem counters_are_own_probed : ∃ s, Reachable (system sampleConfig "secret") s ∧
    (s.machine.mem.any fun p => p.server.state.devices.any fun d => d.tx = 2 ^ 63 - 1) = true ∧
      ∀ d ∈ s.machine.disk.devices, Own s.printed d.tally := by
  let allowedStep := fun (s : Probing) l => if s.Allowed l then s.step sampleConfig l else none
  have hFollow : (follow allowedStep (start sampleConfig "secret") joinAndProbe).any (fun s =>
      s.machine.mem.any fun p => p.server.state.devices.any fun d => d.tx = 2 ^ 63 - 1) = true := by
    decide +kernel
  obtain ⟨s, hRun, hSeen⟩ := (Option.any_eq_true _ _).mp hFollow
  have hReach : Reachable (system sampleConfig "secret") s := by
    refine ⟨_, joinAndProbe, rfl, runs_of_follow (fun s l t hStep => ?_) hRun⟩
    simp only [allowedStep] at hStep
    split at hStep
    · next hAllowed => exact ⟨hAllowed, hStep⟩
    · cases hStep
  exact ⟨s, hReach, hSeen, (counters_are_own hReach).2⟩

end Probing

end NetConductor
