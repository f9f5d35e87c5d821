import NetConductor.Agent.Join
import NetConductor.Server.Peers

/-! An agent and its server as the two parties of a join. A request may be lost,
come late or fail at the server, the server may die in the middle of it, and the
answer may be lost or not saved. What a failed attempt leaves at the server
stays there, and decides what becomes of the next one. -/
namespace NetConductor
open GoNet Durable Transition Routes

/-! ### A join at the server -/

/-- The peer that a list of commands leaves behind. -/
def standing (commands : List (WGCommand × Bool)) : Option String :=
  commands.foldl (fun kept c =>
    match c with
    | (.set key _, true) => some key
    | (.remove _, true) => none
    | (_, false) => kept) none

/-- The device of an answer, if it is saved. -/
def keptDevice (saved : Bool) : Reply → Option Identity
  | .json (.joined d ..) => if saved then some d.identity else none
  | _ => none

/-- An answer as the agent reads it. -/
def joinResponse : Reply → Fetched
  | .json (.joined d key endpoint network proxy _) =>
      .answered 200 true ⟨d.id, d.ip, d.token, key, endpoint, network, proxy, ""⟩
  | .fail status e => .answered status true ⟨"", "", "", "", "", "", "", e⟩
  | _ => .failed

/-- What a server did with a request: the address preset in its code, the reply
unless the server died before it, and the device and the peer that stay. -/
structure Handled where
  preset : String
  reply : Option Reply
  device : Option Identity
  peer : Option String
deriving DecidableEq

structure Attempt where
  prepared : PreparedJoin
  handled : Option Handled
deriving DecidableEq

/-- `waiting` is the attempt whose answer `join` waits for. -/
structure Enrolling where
  settings : AgentSettings
  waiting : Option Nat
  attempts : List Attempt
  machine : Machine Process State Op Answer
  peers : PeerTable

/-- A request arrives at most once, but at any time, also after the agent has
given up on it. `server` is anything else that happens at the server, and
`wireguard` at its peer table. -/
inductive EnrollingLabel where
  | start (o : JoinSources) (body : Decoded JoinForm)
  | arrive (i : Nat) (env : Env) (died saved : Bool)
  | respond (saved : Bool)
  | giveUp
  | server (l : Label Op)
  | wireguard (T : PeerTable)

namespace Enrolling

def start (o : JoinSources) (body : Decoded JoinForm) (w : Enrolling) : Option Enrolling :=
  match w.waiting, Agent.prepareJoin o body w.settings with
  | none, .ok p => some { w with
      waiting := some w.attempts.length
      attempts := w.attempts ++ [⟨p, none⟩] }
  | _, _ => none

/-- What comes of a request at a server that lives on or dies at the save. -/
def handling (p : Process) (req : Server.JoinRequest) (env : Env) (died saved : Bool) : Handled :=
  let sec := p.server.join env (.ok req)
  let out := (sec.result (died || saved)).2
  { preset := ((p.server.codes.lookup req.code).map Enrollment.ip).getD ""
    reply := if died then none else some out.reply
    device := keptDevice saved (sec.result true).2.reply
    peer := standing out.wg }

/-- The server runs `join`, to its end or to the save in it. -/
def arrive (cfg : ServerConfig) (i : Nat) (env : Env) (died saved : Bool) (w : Enrolling) :
    Option Enrolling :=
  match w.attempts[i]?, w.machine.mem with
  | some ⟨prepared, none⟩, some p =>
      let op := Op.join env (.ok prepared.request)
      let commands := ((p.server.join env (.ok prepared.request)).result (died || saved)).2.wg
      ((service cfg).step w.machine (if died then .crashDuring op saved else .run op saved)).map
        fun m => { w with
          machine := m
          peers := commands.foldl issue w.peers
          attempts := w.attempts.set i ⟨prepared, some (handling p prepared.request env died saved)⟩ }
  | _, _ => none

/-- What `join` makes of an answer; `saved` is the outcome of its save. -/
def takenOver (p : PreparedJoin) (reply : Reply) (saved : Bool) (c : AgentSettings) : AgentSettings :=
  match Agent.readJoin (joinResponse reply) with
  | .error _ => c
  | .ok r => if saved then Agent.joinedSettings p r c else c

/-- The answer reaches the agent in time. -/
def respond (saved : Bool) (w : Enrolling) : Option Enrolling :=
  (w.waiting.bind fun i => w.attempts[i]?).bind fun a => (a.handled.bind Handled.reply).map fun reply =>
    { w with settings := takenOver a.prepared reply saved w.settings, waiting := none }

def next (cfg : ServerConfig) (w : Enrolling) : EnrollingLabel → Option Enrolling
  | .start o body => w.start o body
  | .arrive i env died saved => w.arrive cfg i env died saved
  | .respond saved => w.respond saved
  | .giveUp => w.waiting.map fun _ => { w with waiting := none }
  | .server l => ((service cfg).step w.machine l).map fun m => { w with machine := m }
  | .wireguard T => some { w with peers := T }

/-- All runs of an agent that has not joined a network, with any server; the
peer table is always one that `wg` can print. -/
def system (cfg : ServerConfig) : System Enrolling EnrollingLabel where
  initial w := w.settings = freshSettings ∧ w.waiting = none ∧ w.attempts = [] ∧ Printable w.peers
  step w l v := w.next cfg l = some v ∧ Printable v.peers

/-! ### What is left of the attempts -/

def left (w : Enrolling) : List Identity :=
  w.attempts.filterMap fun a => a.handled.bind Handled.device

def leftPeers (w : Enrolling) : List String :=
  w.attempts.filterMap fun a => a.handled.bind Handled.peer

end Enrolling

/-- The table without some of its peers. -/
def withoutPeers (keys : List String) (T : PeerTable) : PeerTable := keys.foldr AList.erase T

namespace Server

/-- The server without some of its devices. -/
def withoutDevices (left : List Identity) (s : Server) : Server :=
  { s with state.devices := s.state.devices.filter fun d => d.identity ∉ left }

/-- A request that the server answers with a device, if its save succeeds. -/
def Accepts (s : Server) (env : Env) (req : JoinRequest) : Prop :=
  ∃ d key endpoint network proxy adopted, ((s.join env (.ok req)).result true).2.reply =
    .json (.joined d key endpoint network proxy adopted)

end Server

/-- The commands of `wg` all succeed, on a table of peers. -/
def Env.reading (env : Env) (serverKey : String) (T : PeerTable) : Env :=
  { env with wg := ⟨some serverKey, .ok (showAllowedIPs T), true, true⟩ }

namespace Enrolling

/-- A request comes into conflict with what earlier attempts left: a device with
its key; a device at the address preset in its code, or a peer that has that
address under another key; or, if there is no such address, no address is free. -/
def Blocked (w : Enrolling) (s : Server) (req : Server.JoinRequest) (preset : String) : Prop :=
  (∃ i ∈ w.left, i.publicKey = req.publicKey) ∨
  (preset ≠ "" ∧ ((∃ i ∈ w.left, i.ip = preset) ∨ ∃ key ∈ w.leftPeers, key ≠ req.publicKey ∧
    key ∈ Server.peerHits (showAllowedIPs w.peers) preset)) ∨
  (preset = "" ∧ s.allocate (showAllowedIPs w.peers) = some "")

/-- A join in which nothing fails, from its start to its end. -/
def retried (cfg : ServerConfig) (o : JoinSources) (body : Decoded JoinForm) (env : Env)
    (serverKey : String) (w : Enrolling) : Option Enrolling :=
  follow (next cfg) w [.start o body, .arrive w.attempts.length (env.reading serverKey w.peers) false true,
    .respond true]

end Enrolling

/-! ### When a request is accepted -/

namespace Server

/-- What a request has to meet, once `wg` answers. -/
structure Admits (s : Server) (req : JoinRequest) (code : Enrollment) (existing : String) (now : Time) :
    Prop where
  formed : 1 ≤ req.name.utf8ByteSize ∧ req.name.utf8ByteSize ≤ 80 ∧ validKey req.publicKey = true
  inTime : now ≤ code.expires
  unknown : ∀ d ∈ s.state.devices, d.publicKey ≠ req.publicKey ∧ (code.ip ≠ "" → d.ip ≠ code.ip)
  addressed : ∃ ip, s.assigned code existing = some ip ∧ ip ≠ "" ∧
    ∀ hit ∈ peerHits existing ip, hit = req.publicKey

/-- With a `wg set` that succeeds, `join` accepts exactly where it finds a plan. -/
theorem accepts_iff_plan {s : Server} {env : Env} {req : JoinRequest} (hSet : env.wg.set = true) :
    s.Accepts env req ↔ ∃ plan, s.joinPlan req env = .ok plan := by
  unfold Accepts
  cases hPlan : s.joinPlan req env with
  | error e =>
      have hJoin : s.join env (.ok req) = .answer s ⟨.fail e.status e.error, []⟩ := by
        simp only [join, hPlan]
      simp [hJoin, Section.result]
  | ok plan =>
      have hJoin : s.join env (.ok req) = s.commitJoin req env plan := by simp only [join, hPlan]
      simp [hJoin, commitJoin, hSet, Section.result]

/-- An adoption is planned when the address is known and every peer that has it is the
joining one. -/
theorem adoptionPlan_iff {req : JoinRequest} {existing key ip : String} :
    (∃ plan, adoptionPlan req existing key ip = .ok plan) ↔
      ip ≠ "" ∧ ∀ hit ∈ peerHits existing ip, hit = req.publicKey := by
  constructor
  · rintro ⟨plan, hPlan⟩
    exact (adoptionPlan_ok hPlan).2
  · rintro ⟨hIP, hHits⟩
    refine ⟨⟨ip, key, decide (peerHits existing ip ≠ [])⟩, ?_⟩
    rw [adoptionPlan, if_neg hIP, if_neg (by simpa using hHits)]

/-- An address is planned when one is assigned and no peer has it. -/
theorem addressPlan_iff {s : Server} {req : JoinRequest} {code : Enrollment} {env : Env}
    {key existing : String} (hKey : env.wg.publicKey = some key)
    (hShow : env.wg.allowedIPs = .ok existing) :
    (∃ plan, s.addressPlan req env code = .ok plan) ↔ ∃ ip, s.assigned code existing = some ip ∧
      ip ≠ "" ∧ ∀ hit ∈ peerHits existing ip, hit = req.publicKey := by
  simp only [addressPlan, hKey, hShow]
  cases hAssigned : s.assigned code existing with
  | none => simp
  | some ip => simpa using adoptionPlan_iff

/-- There is a plan exactly where the request is well formed and in time, its key and
address are unknown, and no other peer has the address. -/
theorem joinPlan_iff {s : Server} {req : JoinRequest} {code : Enrollment} {env : Env}
    {key existing : String} (hCode : s.codes.lookup req.code = some code)
    (hKey : env.wg.publicKey = some key) (hShow : env.wg.allowedIPs = .ok existing) :
    (∃ plan, s.joinPlan req env = .ok plan) ↔ s.Admits req code existing env.now := by
  unfold joinPlan
  simp only [hCode]
  split_ifs with hForm hExpired hKnown
  · refine iff_of_false (by simp) fun h => ?_
    obtain ⟨hShort, hLong, hKey⟩ := h.formed
    simp only [hKey, Bool.true_eq_false, or_false] at hForm
    omega
  · exact iff_of_false (by simp) fun h => absurd h.inTime (not_le.mpr hExpired)
  · refine iff_of_false (by simp) fun h => ?_
    obtain ⟨d, hd, hMatch⟩ := List.any_eq_true.mp hKnown
    obtain ⟨hOther, hFree⟩ := h.unknown d hd
    simp only [Bool.or_eq_true, Bool.and_eq_true, decide_eq_true_eq] at hMatch
    rcases hMatch with hSame | ⟨hIP, hSame⟩
    · exact hOther hSame
    · exact hFree hIP hSame
  · rw [addressPlan_iff hKey hShow]
    constructor
    · intro hAddress
      refine ⟨?_, not_lt.mp hExpired, fun d hd => ?_, hAddress⟩
      · simp only [not_or, Bool.not_eq_false] at hForm
        exact ⟨by omega, by omega, hForm.2.2⟩
      · have hNone := hKnown
        simp only [List.any_eq_true, not_exists, not_and, Bool.or_eq_true, Bool.and_eq_true,
          decide_eq_true_eq, not_or] at hNone
        exact hNone d hd
    · exact fun h => h.addressed

/-- A request with fresh answers from `wg`. -/
theorem accepts_iff {s : Server} {req : JoinRequest} {code : Enrollment} {env : Env}
    {serverKey : String} {T : PeerTable} (hCode : s.codes.lookup req.code = some code) :
    s.Accepts (env.reading serverKey T) req ↔ s.Admits req code (showAllowedIPs T) env.now := by
  have hPlan : (∃ plan, s.joinPlan req (env.reading serverKey T) = .ok plan) ↔
      s.Admits req code (showAllowedIPs T) env.now := joinPlan_iff hCode rfl rfl
  rw [accepts_iff_plan rfl, hPlan]

/-- The loop gives up an address only for a reason that also counts without
hits: an address that it finds has none. -/
theorem allocated_unhit {s : Server} {existing ip : String} (h : s.allocate existing = some ip)
    (hIP : ip ≠ "") : peerHits existing ip = [] := by
  obtain ⟨base, network, -, -, hText, -⟩ := allocate_some h hIP
  refine List.eq_nil_iff_forall_not_mem.mpr fun key hHit => ?_
  rw [contains_of_hit hHit] at hText
  cases hText

/-- Whether the network can be used at all depends on the configuration only. -/
theorem allocate_isSome {s t : Server} (hCfg : s.cfg = t.cfg) {existing existing' : String}
    (h : (s.allocate existing).isSome) : (t.allocate existing').isSome := by
  unfold allocate at h ⊢
  rw [← hCfg]
  cases hNetwork : parseCIDR s.cfg.network.toList with
  | none => simp [hNetwork] at h
  | some parsed =>
      obtain ⟨base, network⟩ := parsed
      by_cases hOther : to4 base = none
      · simp [hNetwork, hOther] at h
      · simp [hOther]

end Server

/-- Without some peers their routes are gone and the others as before. -/
theorem routes_withoutPeers {keys : List String} {T : PeerTable} {k : String} :
    routes (withoutPeers keys T) k = if k ∈ keys then [] else routes T k := by
  induction keys with
  | nil => rfl
  | cons key keys ih =>
      rw [withoutPeers, List.foldr_cons, ← withoutPeers]
      by_cases hKey : k = key
      · rw [hKey, routes_erase_self, if_pos List.mem_cons_self]
      · rw [routes_erase_ne hKey, ih]
        simp [hKey]

/-- A table that `wg show` can print can be printed without some of its peers. -/
theorem Printable.withoutPeers {keys : List String} {T : PeerTable} (h : Printable T) :
    Printable (withoutPeers keys T) := by
  induction keys with
  | nil => exact h
  | cons key keys ih =>
      intro e he
      exact ih e ((List.kerase_sublist _ _).subset he)

/-- The peers that are left hit what they hit before. -/
theorem mem_peerHits_without {keys : List String} {T : PeerTable} (hT : Printable T)
    {ip key : String} : key ∈ Server.peerHits (showAllowedIPs (withoutPeers keys T)) ip ↔
      key ∉ keys ∧ key ∈ Server.peerHits (showAllowedIPs T) ip := by
  rw [mem_peerHits hT.withoutPeers, mem_peerHits hT, routes_withoutPeers]
  by_cases hKey : key ∈ keys <;> simp [hKey]

/-! ### What an attempt leaves, it leaves for good -/

/-- The device is in the server's memory, while there is one, and in its file. -/
structure KeptIn (i : Identity) (m : Machine Process State Op Answer) : Prop where
  mem : ∀ p, m.mem = some p → i ∈ p.server.identities
  file : i ∈ m.disk.devices.map Device.identity

/-- No step of the server takes back an enrolment that it has acknowledged. -/
theorem KeptIn.step {cfg : ServerConfig} {i : Identity} {m m' : Machine Process State Op Answer}
    {l : Label Op} (h : KeptIn i m) (hStep : (service cfg).step m l = some m') : KeptIn i m' := by
  have hBoth := Service.step_invariant (I := fun p : Process => i ∈ p.server.identities)
    (K := fun st : State => i ∈ st.devices.map Device.identity)
    (fun st hFile => by simpa [service, Process.ofServer, newServer, Server.identities] using hFile)
    hStep (fun p op sec _ _ hMem hSec => exec_identity hMem hSec) ⟨h.mem, h.file⟩
  exact ⟨hBoth.1, hBoth.2⟩

/-- A device whose save went through is kept, whether the server lives on or not. -/
theorem kept_arrived {cfg : ServerConfig} {p : Process} {m m' : Machine Process State Op Answer}
    {env : Env} {req : Server.JoinRequest} {died saved : Bool} {i : Identity} (hUp : m.mem = some p)
    (hDevice : keptDevice saved ((p.server.join env (.ok req)).result true).2.reply = some i)
    (hStep : (service cfg).step m (if died then .crashDuring (.join env (.ok req)) saved
      else .run (.join env (.ok req)) saved) = some m') : KeptIn i m' := by
  rcases Server.join_cases env (.ok req) p.server with ⟨status, e, wg, hJoin⟩ |
    ⟨req', plan, -, -, hJoin⟩
  · simp [hJoin, Section.result, keptDevice] at hDevice
  · cases saved with
    | false => simp [hJoin, Section.result, keptDevice] at hDevice
    | true =>
        have hAdded : i ∈ (p.server.addDevice env (Server.joinedDevice req' env plan.ip)).identities := by
          rw [Server.identities_addDevice]
          simp only [hJoin, Section.result, keptDevice, if_true, Option.some.injEq] at hDevice
          exact List.mem_append_right _ (List.mem_singleton.mpr hDevice.symm)
        have hExec : (service cfg).exec p (.join env (.ok req)) =
            some ((p.server.join env (.ok req)).map fun s => { p with server := s }) := rfl
        cases died with
        | true =>
            simp only [if_true, Service.step, hUp, Option.bind_some, hExec, hJoin, Section.map,
              Section.written, Option.some.injEq] at hStep
            subst hStep
            exact ⟨by simp, hAdded⟩
        | false =>
            simp only [Bool.false_eq_true, if_false, Service.step, hUp, Option.bind_some, hExec, hJoin,
              Section.map, Section.written, Section.result, Option.some.injEq] at hStep
            subst hStep
            refine ⟨fun q hq => ?_, hAdded⟩
            obtain rfl := Option.some.inj hq
            exact hAdded

namespace Enrolling

variable {cfg : ServerConfig} {w v : Enrolling}

/-- What the attempts left is there. -/
def Kept (w : Enrolling) : Prop := ∀ i ∈ w.left, KeptIn i w.machine

/-- A join starts when none is waiting. -/
theorem start_cases {o : JoinSources} {body : Decoded JoinForm} (h : w.start o body = some v) :
    ∃ p, w.waiting = none ∧ Agent.prepareJoin o body w.settings = .ok p ∧
      v = { w with
        waiting := some w.attempts.length
        attempts := w.attempts ++ [⟨p, none⟩] } := by
  unfold start at h
  split at h
  · next p hIdle hPrepared => exact ⟨p, hIdle, hPrepared, (Option.some.inj h).symm⟩
  · cases h

/-- A request that arrives. -/
theorem arrive_cases {i : Nat} {env : Env} {died saved : Bool}
    (h : w.arrive cfg i env died saved = some v) :
    ∃ prepared p handled m, w.attempts[i]? = some ⟨prepared, none⟩ ∧ w.machine.mem = some p ∧
      handled = handling p prepared.request env died saved ∧
      (service cfg).step w.machine (if died then .crashDuring (.join env (.ok prepared.request)) saved
        else .run (.join env (.ok prepared.request)) saved) = some m ∧
      v.machine = m ∧ v.settings = w.settings ∧
      v.attempts = w.attempts.set i ⟨prepared, some handled⟩ := by
  unfold arrive at h
  split at h
  · next prepared p hAttempt hUp =>
      obtain ⟨m, hStep, rfl⟩ := Option.map_eq_some_iff.mp h
      exact ⟨prepared, p, _, m, hAttempt, hUp, rfl, hStep, rfl, rfl, rfl⟩
  · cases h

/-- The response of the agent leaves the server and the attempts alone. -/
theorem respond_cases {saved : Bool} (h : w.respond saved = some v) :
    v.machine = w.machine ∧ v.attempts = w.attempts := by
  unfold respond at h
  obtain ⟨a, -, h⟩ := Option.bind_eq_some_iff.mp h
  obtain ⟨reply, -, rfl⟩ := Option.map_eq_some_iff.mp h
  exact ⟨rfl, rfl⟩

/-- No step takes away a device that an attempt left. -/
theorem Kept.next {l : EnrollingLabel} (h : w.Kept) (hNext : w.next cfg l = some v) : v.Kept := by
  cases l with
  | start o body =>
      obtain ⟨p, -, -, rfl⟩ := start_cases hNext
      intro i hi
      exact h i (by simpa [left] using hi)
  | arrive n env died saved =>
      obtain ⟨prepared, p, handled, m, hAttempt, hUp, hDevice, hStep, hMachine, -, hAttempts⟩ :=
        arrive_cases hNext
      intro i hi
      rw [hMachine]
      obtain ⟨a, ha, hLeft⟩ := List.mem_filterMap.mp hi
      rw [hAttempts] at ha
      rcases List.mem_or_eq_of_mem_set ha with hOld | rfl
      · exact (h i (List.mem_filterMap.mpr ⟨a, hOld, hLeft⟩)).step hStep
      · subst hDevice
        exact kept_arrived hUp hLeft hStep
  | respond saved =>
      obtain ⟨hMachine, hAttempts⟩ := respond_cases hNext
      intro i hi
      rw [hMachine]
      exact h i (by rwa [left, hAttempts] at hi)
  | giveUp =>
      obtain ⟨n, -, rfl⟩ := Option.map_eq_some_iff.mp hNext
      exact h
  | server l =>
      obtain ⟨m, hStep, rfl⟩ := Option.map_eq_some_iff.mp hNext
      exact fun i hi => (h i hi).step hStep
  | wireguard T =>
      cases hNext
      exact h

/-- Both invariants in every reachable state. -/
theorem kept_and_printable (h : Reachable (system cfg) w) : w.Kept ∧ Printable w.peers := by
  refine h.invariant (I := fun w => w.Kept ∧ Printable w.peers) ?_ ?_
  · rintro w ⟨-, -, hNone, hPrintable⟩
    exact ⟨fun i hi => by simp [left, hNone] at hi, hPrintable⟩
  · rintro w l v ⟨hKept, -⟩ ⟨hNext, hPrintable⟩
    exact ⟨hKept.next hNext, hPrintable⟩

/-- On a server that would take the request without what is left of the
attempts, what is left decides. -/
theorem accepts_iff_clear {s : Server} {env : Env} {serverKey : String} {req : Server.JoinRequest}
    {code : Enrollment} (hKept : ∀ i ∈ w.left, i ∈ s.identities) (hPrintable : Printable w.peers)
    (hCode : s.codes.lookup req.code = some code)
    (hClean : (s.withoutDevices w.left).Accepts
      (env.reading serverKey (withoutPeers w.leftPeers w.peers)) req) :
    s.Accepts (env.reading serverKey w.peers) req ↔ ¬w.Blocked s req code.ip := by
  have hClean := (Server.accepts_iff (s := s.withoutDevices w.left) hCode).mp hClean
  rw [Server.accepts_iff hCode]
  constructor
  · rintro ⟨-, -, hUnknown, ip, hAssigned, hIP, hHits⟩ hBlocked
    have hLeft : ∀ i ∈ w.left, i.publicKey ≠ req.publicKey ∧ (code.ip ≠ "" → i.ip ≠ code.ip) := by
      intro i hi
      obtain ⟨d, hd, rfl⟩ := List.mem_map.mp (hKept i hi)
      exact hUnknown d hd
    rcases hBlocked with ⟨i, hi, hKey⟩ | ⟨hPreset, ⟨i, hi, hAddress⟩ | ⟨key, hKey, hOther, hHit⟩⟩ |
      ⟨hPreset, hNone⟩
    · exact (hLeft i hi).1 hKey
    · exact (hLeft i hi).2 hPreset hAddress
    · rw [Server.assigned, if_pos hPreset, Option.some.injEq] at hAssigned
      exact hOther (hHits key (hAssigned ▸ hHit))
    · rw [Server.assigned, if_neg (not_not.mpr hPreset), hNone, Option.some.injEq] at hAssigned
      exact hIP hAssigned.symm
  · intro hClear
    simp only [Blocked, not_or, not_and, not_exists] at hClear
    obtain ⟨hKeys, hPreset, hFree⟩ := hClear
    refine ⟨hClean.formed, hClean.inTime, fun d hd => ?_, ?_⟩
    · by_cases hLeft : d.identity ∈ w.left
      · exact ⟨hKeys d.identity hLeft, fun hIP hSame => (hPreset hIP).1 d.identity hLeft hSame⟩
      · exact hClean.unknown d (List.mem_filter.mpr ⟨hd, by simpa using hLeft⟩)
    · obtain ⟨ip, hAssigned, hIP, hHits⟩ := hClean.addressed
      by_cases hCodeIP : code.ip = ""
      · rw [Server.assigned, if_neg (not_not.mpr hCodeIP)] at hAssigned ⊢
        obtain ⟨ip', hAllocated⟩ := Option.isSome_iff_exists.mp (Server.allocate_isSome
          (s := s.withoutDevices w.left) (t := s) rfl (Option.isSome_of_eq_some hAssigned))
        have hSome : ip' ≠ "" := by
          rintro rfl
          exact hFree hCodeIP hAllocated
        refine ⟨ip', hAllocated, hSome, fun hit hHit => ?_⟩
        rw [Server.allocated_unhit hAllocated hSome] at hHit
        cases hHit
      · rw [Server.assigned, if_pos hCodeIP, Option.some.injEq] at hAssigned
        refine ⟨code.ip, by rw [Server.assigned, if_pos hCodeIP], hCodeIP, fun hit hHit => ?_⟩
        by_contra hOther
        have hRest : hit ∉ w.leftPeers := fun hLeft => (hPreset hCodeIP).2 hit hLeft hOther hHit
        refine hOther (hHits hit ?_)
        rw [← hAssigned]
        exact (mem_peerHits_without hPrintable).mpr ⟨hRest, hHit⟩

/-- The server has answered an attempt with an error. -/
def Refused (w : Enrolling) (n : Nat) : Prop :=
  ∃ a h status e, w.attempts[n]? = some a ∧ a.handled = some h ∧ h.reply = some (.fail status e)

/-- The agent works with a device that the server has. -/
def Joins (w v : Enrolling) (r : PreparedJoin) : Prop :=
  ∃ q d reply, v.machine.mem = some q ∧ d ∈ q.server.state.devices ∧ reply.id = d.id ∧
    reply.token = d.token ∧ v.settings = Agent.joinedSettings r reply w.settings

/-- A request that arrives at a server that lives on and can save. -/
theorem arrive_run (cfg : ServerConfig) (env : Env) {i : Nat} {prepared : PreparedJoin} {p : Process}
    (hAttempt : w.attempts[i]? = some ⟨prepared, none⟩) (hUp : w.machine.mem = some p) :
    ∃ m peers, w.arrive cfg i env false true = some { w with
        machine := m
        peers := peers
        attempts := w.attempts.set i ⟨prepared, some (handling p prepared.request env false true)⟩ } ∧
      m.mem = some { p with server := ((p.server.join env (.ok prepared.request)).result true).1 } := by
  have hExec : (service cfg).exec p (.join env (.ok prepared.request)) =
      some ((p.server.join env (.ok prepared.request)).map fun s => { p with server := s }) := rfl
  have hStep : ∃ m, (service cfg).step w.machine (.run (.join env (.ok prepared.request)) true) = some m ∧
      m.mem = some { p with server := ((p.server.join env (.ok prepared.request)).result true).1 } := by
    simp only [Service.step, hUp, Option.bind_some, hExec, Section.result_map]
    exact ⟨_, rfl, rfl⟩
  obtain ⟨m, hStep, hMem⟩ := hStep
  refine ⟨m, ((p.server.join env (.ok prepared.request)).result true).2.wg.foldl issue w.peers, ?_, hMem⟩
  simp only [arrive, hAttempt, hUp, Bool.false_eq_true, if_false, hStep, Option.map_some]
  rfl

/-- The agent takes the reply of its own attempt. -/
theorem respond_some (saved : Bool) {n : Nat} {a : Attempt} {h : Handled} {reply : Reply}
    (hWaiting : w.waiting = some n) (hAttempt : w.attempts[n]? = some a) (hHandled : a.handled = some h)
    (hReply : h.reply = some reply) :
    w.respond saved = some { w with
      settings := takenOver a.prepared reply saved w.settings, waiting := none } := by
  simp only [respond, hWaiting, Option.bind_some, hAttempt, hHandled, hReply, Option.map_some]

/-- What a join without faults comes to. -/
theorem retried_some (cfg : ServerConfig) (env : Env) (serverKey : String) {o : JoinSources}
    {body : Decoded JoinForm} {r : PreparedJoin} {p : Process} (hIdle : w.waiting = none) (hUp : w.machine.mem = some p)
    (hPrepared : Agent.prepareJoin o body w.settings = .ok r) :
    ∃ v, w.retried cfg o body env serverKey = some v ∧
      v.attempts[w.attempts.length]? =
        some ⟨r, some (handling p r.request (env.reading serverKey w.peers) false true)⟩ ∧
      v.machine.mem = some { p with server :=
        ((p.server.join (env.reading serverKey w.peers) (.ok r.request)).result true).1 } ∧
      v.settings = takenOver r
        ((p.server.join (env.reading serverKey w.peers) (.ok r.request)).result true).2.reply true
        w.settings := by
  let started : Enrolling := { w with
    waiting := some w.attempts.length
    attempts := w.attempts ++ [⟨r, none⟩] }
  have hStart : w.start o body = some started := by simp only [start, hIdle, hPrepared, started]
  have hAttempt : started.attempts[w.attempts.length]? = some ⟨r, none⟩ := by simp [started]
  obtain ⟨m, peers, hArrive, hMem⟩ :=
    arrive_run cfg (env.reading serverKey w.peers) hAttempt hUp
  let arrived : Enrolling := { started with
    machine := m
    peers := peers
    attempts := started.attempts.set w.attempts.length
      ⟨r, some (handling p r.request (env.reading serverKey w.peers) false true)⟩ }
  have hHandled : arrived.attempts[w.attempts.length]? =
      some ⟨r, some (handling p r.request (env.reading serverKey w.peers) false true)⟩ := by
    simp [arrived, started]
  have hRespond := respond_some true (w := arrived) rfl hHandled rfl rfl
  refine ⟨{ arrived with
    settings := takenOver r
      ((p.server.join (env.reading serverKey w.peers) (.ok r.request)).result true).2.reply true w.settings
    waiting := none }, ?_, hHandled, hMem, rfl⟩
  rw [retried, follow, next, hStart, Option.bind_some, follow, next, hArrive, Option.bind_some, follow,
    next]
  exact congrArg (fun t => t.bind fun t => follow (next cfg) t []) hRespond

/-- An attempt is refused when it is answered with an error. -/
theorem refused_iff {n : Nat} {a : Attempt} {h : Handled} (hAttempt : w.attempts[n]? = some a)
    (hHandled : a.handled = some h) :
    w.Refused n ↔ ∃ status e, h.reply = some (.fail status e) := by
  constructor
  · rintro ⟨b, g, status, e, hb, hg, hReply⟩
    obtain rfl := Option.some.inj (hAttempt.symm.trans hb)
    obtain rfl := Option.some.inj (hHandled.symm.trans hg)
    exact ⟨status, e, hReply⟩
  · rintro ⟨status, e, hReply⟩
    exact ⟨a, h, status, e, hAttempt, hHandled, hReply⟩

/-- In a join without faults the server accepts the request and the agent
joins, or the request is refused. -/
theorem retried_cases (cfg : ServerConfig) (env : Env) (serverKey : String) {o : JoinSources}
    {body : Decoded JoinForm} {r : PreparedJoin} {p : Process} (hIdle : w.waiting = none) (hUp : w.machine.mem = some p)
    (hPrepared : Agent.prepareJoin o body w.settings = .ok r) :
    ∃ v, w.retried cfg o body env serverKey = some v ∧
      (v.Refused w.attempts.length ↔ ¬p.server.Accepts (env.reading serverKey w.peers) r.request) ∧
      (p.server.Accepts (env.reading serverKey w.peers) r.request → w.Joins v r) := by
  obtain ⟨v, hRetried, hAttempt, hMem, hSettings⟩ :=
    retried_some cfg env serverKey hIdle hUp hPrepared
  refine ⟨v, hRetried, ?_, ?_⟩
  · rw [refused_iff hAttempt rfl]
    rcases Server.join_cases (env.reading serverKey w.peers) (.ok r.request) p.server with
      ⟨status, e, wg, hJoin⟩ | ⟨req, plan, -, -, hJoin⟩
    · simp [handling, Server.Accepts, hJoin, Section.result]
    · simp [handling, Server.Accepts, hJoin, Section.result]
  · rintro ⟨d, key, endpoint, network, proxy, adopted, hReply⟩
    rcases Server.join_cases (env.reading serverKey w.peers) (.ok r.request) p.server with
      ⟨status, e, wg, hJoin⟩ | ⟨req, plan, -, -, hJoin⟩
    · simp [hJoin, Section.result] at hReply
    · refine ⟨_, d, ⟨d.id, d.ip, d.token, key, endpoint, network, proxy, ""⟩, hMem, ?_, rfl, rfl, ?_⟩
      · simp only [hJoin, Section.result, Reply.json.injEq, Body.joined.injEq] at hReply ⊢
        simp [hReply.1]
      · rw [hSettings, hReply]
        rfl

/-- In every run: a join without faults that the server would accept if nothing
were left of the earlier attempts is refused exactly when it comes into conflict
with what is left. -/
theorem retry_refused_iff (h : Reachable (system cfg) w) (hIdle : w.waiting = none) {p : Process}
    (hUp : w.machine.mem = some p) {o : JoinSources} {body : Decoded JoinForm} {r : PreparedJoin}
    (hPrepared : Agent.prepareJoin o body w.settings = .ok r) {code : Enrollment}
    (hCode : p.server.codes.lookup r.request.code = some code) {env : Env} {serverKey : String}
    (hClean : (p.server.withoutDevices w.left).Accepts
      (env.reading serverKey (withoutPeers w.leftPeers w.peers)) r.request) :
    ∃ v, w.retried cfg o body env serverKey = some v ∧
      (v.Refused w.attempts.length ↔ w.Blocked p.server r.request code.ip) ∧
      (¬w.Blocked p.server r.request code.ip → w.Joins v r) := by
  obtain ⟨hKept, hPrintable⟩ := kept_and_printable h
  have hAccepts := accepts_iff_clear (fun i hi => (hKept i hi).mem p hUp) hPrintable hCode hClean
  obtain ⟨v, hRetried, hRefused, hJoins⟩ :=
    retried_cases cfg env serverKey hIdle hUp hPrepared
  exact ⟨v, hRetried, by rw [hRefused, hAccepts, not_not], fun hClear => hJoins (hAccepts.mpr hClear)⟩

/-! ### A lost answer -/

instance (w : Enrolling) (s : Server) (req : Server.JoinRequest) (preset : String) :
    Decidable (w.Blocked s req preset) := by
  unfold Blocked
  infer_instance

/-- The agent before its first join, and a server with a code. -/
def first : Enrolling :=
  ⟨freshSettings, none, [], ⟨some (.ofServer (codeServer "")), firstState sampleConfig "", []⟩, ∅⟩

/-- Where `join` gets its keys. -/
def sources (key : String) : JoinSources :=
  ⟨some ⟨"https", "hub.example", false, "", "", ""⟩, true, some key, some ("private", key)⟩

def form (code : Char) (adopt : Bool) : Decoded JoinForm :=
  .ok ⟨"https://hub.example", "", sampleToken code, "laptop", "nc-wg", adopt⟩

/-- The server adds a device, but its answer is lost; then there is a new code. -/
def answerLost (adopt : Bool) : List EnrollingLabel :=
  [.start (sources sampleKey) (form 'c' adopt), .arrive 0 (sampleEnv 'a' 'b') false true, .giveUp,
    .server (.run (.createCode (sampleEnv 'd' 'd') (.ok "")) true)]

def printableNext (cfg : ServerConfig) (w : Enrolling) (l : EnrollingLabel) : Option Enrolling :=
  (w.next cfg l).bind fun v => if Printable v.peers then some v else none

theorem reachable_of_follow {labels : List EnrollingLabel} {w : Enrolling}
    (h : follow (printableNext sampleConfig) first labels = some w) :
    Reachable (system sampleConfig) w := by
  refine ⟨first, labels, ⟨rfl, rfl, rfl, by decide⟩, runs_of_follow (fun s l t hStep => ?_) h⟩
  obtain ⟨v, hNext, hPrintable⟩ := Option.bind_eq_some_iff.mp hStep
  split_ifs at hPrintable with hTable
  obtain rfl := Option.some.inj hPrintable
  exact ⟨hNext, hTable⟩

/-- A second join, prepared in the state that a list of steps leads to, with
its code. -/
def ready (labels : List EnrollingLabel) (key : String) (adopt : Bool) :
    Option (Enrolling × Process × PreparedJoin × Enrollment) :=
  (follow (printableNext sampleConfig) first labels).bind fun w => w.machine.mem.bind fun p =>
    (Agent.prepareJoin (sources key) (form 'd' adopt) w.settings).toOption.bind fun r =>
      (p.server.codes.lookup r.request.code).map fun code => (w, p, r, code)

theorem exists_of_any {α : Type} {P : α → Prop} [DecidablePred P] {x : Option α}
    (h : (x.any fun y => decide (P y)) = true) : ∃ y, x = some y ∧ P y := by
  obtain ⟨y, hSome, hP⟩ := (Option.any_eq_true _ x).mp h
  exact ⟨y, hSome, of_decide_eq_true hP⟩

/-- What the run up to a prepared join has led to. -/
theorem ready_some {labels : List EnrollingLabel} {key : String} {adopt : Bool}
    {x : Enrolling × Process × PreparedJoin × Enrollment} (h : ready labels key adopt = some x) :
    Reachable (system sampleConfig) x.1 ∧ x.1.machine.mem = some x.2.1 ∧
      Agent.prepareJoin (sources key) (form 'd' adopt) x.1.settings = .ok x.2.2.1 ∧
      x.2.1.server.codes.lookup x.2.2.1.request.code = some x.2.2.2 := by
  obtain ⟨w, hFollow, h⟩ := Option.bind_eq_some_iff.mp h
  obtain ⟨p, hUp, h⟩ := Option.bind_eq_some_iff.mp h
  obtain ⟨r, hPrepared, h⟩ := Option.bind_eq_some_iff.mp h
  obtain ⟨code, hCode, rfl⟩ := Option.map_eq_some_iff.mp h
  refine ⟨reachable_of_follow hFollow, hUp, ?_, hCode⟩
  cases hResult : Agent.prepareJoin (sources key) (form 'd' adopt) w.settings with
  | error e => simp [hResult, Except.toOption] at hPrepared
  | ok r' =>
      rw [hResult] at hPrepared
      exact congrArg Except.ok (Option.some.inj hPrepared)

/-- The plan that the server would make for the second join, were nothing left. -/
def cleanPlan (w : Enrolling) (s : Server) (req : Server.JoinRequest) : Bool :=
  ((s.withoutDevices w.left).joinPlan req
    ((sampleEnv 'e' 'f').reading "server key" (withoutPeers w.leftPeers w.peers))).isOk

theorem accepts_of_cleanPlan {s : Server} {req : Server.JoinRequest} (h : w.cleanPlan s req = true) :
    (s.withoutDevices w.left).Accepts
      ((sampleEnv 'e' 'f').reading "server key" (withoutPeers w.leftPeers w.peers)) req := by
  refine (Server.accepts_iff_plan rfl).mpr ?_
  unfold cleanPlan at h
  cases hPlan : (s.withoutDevices w.left).joinPlan req
    ((sampleEnv 'e' 'f').reading "server key" (withoutPeers w.leftPeers w.peers)) with
  | error e => simp [hPlan, Except.isOk, Except.toBool] at h
  | ok plan => exact ⟨plan, rfl⟩

def otherKey : String := "AQAAAAAAAAAAAAAAAAAAAAAAAAAAAAAAAAAAAAAAAAA="

/-- With a new key and no address asked for, the join after the lost answer goes
through. -/
theorem retry_joins : ∃ (w v : Enrolling) (r : PreparedJoin), w.left ≠ [] ∧ w.Joins v r := by
  have hRun : ∃ x, ready (answerLost false) otherKey false = some x ∧ x.1.left ≠ [] ∧
      x.1.waiting = none ∧ x.1.cleanPlan x.2.1.server x.2.2.1.request = true ∧
      ¬x.1.Blocked x.2.1.server x.2.2.1.request x.2.2.2.ip :=
    exists_of_any (by decide +kernel)
  obtain ⟨⟨w, p, r, code⟩, hReady, hLeft, hIdle, hClean, hClear⟩ := hRun
  obtain ⟨hReach, hUp, hPrepared, hCode⟩ := ready_some hReady
  obtain ⟨v, -, -, hJoins⟩ :=
    retry_refused_iff hReach hIdle hUp hPrepared hCode (accepts_of_cleanPlan hClean)
  exact ⟨w, v, r, hLeft, hJoins hClear⟩

/-- A tunnel is adopted again after the answer was lost: the key is one that the
server already has. -/
theorem retry_refused : ¬∀ (cfg : ServerConfig) (w v : Enrolling) (p : Process) (o : JoinSources)
    (body : Decoded JoinForm) (r : PreparedJoin) (code : Enrollment) (env : Env) (serverKey : String)
    (a : Attempt) (h : Handled), Reachable (system cfg) w → w.waiting = none →
    w.machine.mem = some p → Agent.prepareJoin o body w.settings = .ok r →
    p.server.codes.lookup r.request.code = some code → a ∈ w.attempts → a.handled = some h →
    h.preset = code.ip → a.prepared.form.iface = r.form.iface → a.prepared.form.adopt = r.form.adopt →
    (p.server.withoutDevices w.left).Accepts
      (env.reading serverKey (withoutPeers w.leftPeers w.peers)) r.request →
    w.retried cfg o body env serverKey = some v → ¬v.Refused w.attempts.length := by
  intro hAll
  have hRun : ∃ x, ready (answerLost true) sampleKey true = some x ∧ x.1.waiting = none ∧
      x.1.cleanPlan x.2.1.server x.2.2.1.request = true ∧
      x.1.Blocked x.2.1.server x.2.2.1.request x.2.2.2.ip ∧
      ∃ a ∈ x.1.attempts, ∃ h ∈ a.handled, h.preset = x.2.2.2.ip ∧
        a.prepared.form.iface = x.2.2.1.form.iface ∧ a.prepared.form.adopt = x.2.2.1.form.adopt :=
    exists_of_any (by decide +kernel)
  obtain ⟨⟨w, p, r, code⟩, hReady, hIdle, hClean, hBlocked, a, ha, h, hHandled, hPreset, hIface,
    hAdopt⟩ := hRun
  obtain ⟨hReach, hUp, hPrepared, hCode⟩ := ready_some hReady
  have hAccepts := accepts_of_cleanPlan hClean
  obtain ⟨hKept, hPrintable⟩ := kept_and_printable hReach
  have hConflict := accepts_iff_clear (fun i hi => (hKept i hi).mem p hUp) hPrintable hCode hAccepts
  obtain ⟨v, hRetried, hRefused, -⟩ := retried_cases sampleConfig (sampleEnv 'e' 'f') "server key"
    hIdle hUp hPrepared
  refine hAll sampleConfig w v p _ _ r code _ _ a h hReach hIdle hUp hPrepared hCode ha hHandled
    hPreset hIface hAdopt hAccepts hRetried (hRefused.mpr fun hTaken => ?_)
  exact hConflict.mp hTaken hBlocked

end Enrolling
end NetConductor
