import Mathlib.Data.List.Chain
import NetConductor.Semantics.Slots
import NetConductor.Server.Secrecy

/-! `sync` of an agent, beside the server it reports to: one request after the
other over a network that may lose or hold up a request and its answer, and
what the agent shows of the answers. -/
namespace NetConductor
open Durable Transition

inductive LinkStatus where
  | disconnected
  | connected
deriving DecidableEq

/-- The fields of `Agent` and its configuration that `sync` reads and writes. -/
structure AgentView where
  id : String
  token : String
  sshUser : String
  sshHostFingerprint : String
  status : LinkStatus
  lastError : String
  lastSync : Time
  latency : Int
  checks : List Check
  events : List LogEvent
  policy : Policy
  rx : Int
  tx : Int
  handshake : Int
  exitName : String

namespace AgentView

/-- The agent keeps its last 100 events. -/
def event (a : AgentView) (now : Time) (action detail : String) : AgentView :=
  let events := a.events ++ [⟨now, action, detail⟩]
  { a with events := events.drop (events.length - 100) }

/-- `New` on a stored configuration. -/
def new (id token sshUser sshHostFingerprint : String) : AgentView where
  id := id
  token := token
  sshUser := sshUser
  sshHostFingerprint := sshHostFingerprint
  status := .disconnected
  lastError := ""
  lastSync := 0
  latency := 0
  checks := []
  events := []
  policy := ⟨"", [], "", ""⟩
  rx := 0
  tx := 0
  handshake := 0
  exitName := ""

/-- The body of the request of `sync`. -/
def request (version : String) (a : AgentView) : Server.HeartbeatRequest where
  sshUser := a.sshUser
  sshFingerprint := a.sshHostFingerprint
  id := a.id
  version := version
  latencyMs := a.latency
  diagnostics := a.checks

def authorization (a : AgentView) : String := "Bearer " ++ a.token

/-- What `sync` decodes from a reply with status 200. -/
structure Data where
  policy : Policy
  rx : Int
  tx : Int
  handshake : Int
  exitName : String

def Data.decode : Reply → Option Data
  | .json (.heartbeat policy _ rx tx handshake exitName) =>
      some ⟨policy, rx, tx, handshake, exitName⟩
  | _ => none

/-- The end of `sync` on an error. -/
def failed (now : Time) (a : AgentView) : AgentView :=
  let a' := if a.status ≠ .disconnected then
    a.event now "connection.lost" "服务器连接断开，正在自动重试" else a
  { a' with status := .disconnected, lastError := "服务器连接失败，请检查网络、证书和服务状态" }

/-- The end of `sync` on a reply, which took `elapsed` milliseconds. -/
def synced (now : Time) (elapsed : Int) (data : Data) (a : AgentView) : AgentView :=
  let a' := if a.status ≠ .connected then a.event now "connection.ready" "服务器已连接" else a
  { a' with
    status := .connected
    lastError := ""
    lastSync := now
    latency := elapsed
    policy := data.policy
    rx := data.rx
    tx := data.tx
    handshake := data.handshake
    exitName := data.exitName }

end AgentView

/-! ### The agent and its server -/

/-- How the server handled a heartbeat: its memory afterwards, its reply, and
how many requests it had answered before. -/
structure HandledBeat where
  server : Server
  reply : Reply
  position : Nat

/-- A heartbeat that was sent; the server handles it once at most. -/
structure Heartbeat where
  authorization : String
  body : Server.HeartbeatRequest
  handled : Option HandledBeat

/-- `current` is the heartbeat that `sync` waits for. `shown` keeps how the
server handled the one whose reply came last. -/
structure Syncing where
  agent : AgentView
  beats : List Heartbeat
  current : Option Nat
  shown : Option HandledBeat
  machine : Machine Process State Op Answer

inductive SyncLabel where
  | server (l : Label Op)
  | begin (version : String)
  | handle (i : Nat) (env : Env) (saved : Bool)
  | reply (now : Time) (elapsed : Int)
  -- no connection, no answer in time, a status other than 200
  | fail (now : Time)
  -- the other writers of the agent's memory: `join`, `diagnose`, the events
  | join (now : Time) (id token : String)
  | diagnose (checks : List Check)
  | event (now : Time) (action detail : String)
  | restart

namespace Syncing

def isLink (e : LogEvent) : Bool := e.action = "connection.lost" || e.action = "connection.ready"

def step (cfg : ServerConfig) (s : Syncing) : SyncLabel → Option Syncing
  | .server l => ((service cfg).step s.machine l).map fun m => { s with machine := m }
  | .begin version =>
      if s.current = none ∧ s.agent.id ≠ "" then
        some { s with
          beats := s.beats ++ [⟨s.agent.authorization, s.agent.request version, none⟩]
          current := some s.beats.length }
      else none
  | .handle i env saved =>
      match s.machine.mem, s.beats[i]? with
      | some p, some ⟨authorization, body, none⟩ =>
          let sec := p.server.heartbeat env authorization (.ok body)
          let handled : HandledBeat := ⟨(sec.result saved).1, (sec.result saved).2.reply,
            s.machine.history.length⟩
          ((service cfg).step s.machine (.run (.heartbeat env authorization (.ok body)) saved)).map
            fun m => { s with
              machine := m, beats := s.beats.set i ⟨authorization, body, some handled⟩ }
      | _, _ => none
  | .reply now elapsed =>
      match s.current.bind fun i => s.beats[i]? with
      | some ⟨_, _, some handled⟩ =>
          (AgentView.Data.decode handled.reply).map fun data =>
            { s with
              agent := s.agent.synced now elapsed data, current := none, shown := some handled }
      | _ => none
  | .fail now =>
      if s.current.isSome then some { s with agent := s.agent.failed now, current := none } else none
  | .join now id token =>
      -- an agent that has an id refuses
      if s.agent.id = "" then
        some { s with
          agent := ({ s.agent with id := id, token := token }).event now "device.join" "已加入网络" }
      else none
  | .diagnose checks => some { s with agent := { s.agent with checks := checks } }
  | .event now action detail =>
      if isLink ⟨now, action, detail⟩ then none
      else some { s with agent := s.agent.event now action detail }
  | .restart =>
      some { s with
        agent := .new s.agent.id s.agent.token s.agent.sshUser s.agent.sshHostFingerprint
        current := none }

def start (cfg : ServerConfig) (token : String) (agent : AgentView) : Syncing :=
  ⟨agent, [], none, none, ⟨some (firstProcess cfg token), firstState cfg token, []⟩⟩

/-- The agent starts with any configuration. -/
def system (cfg : ServerConfig) (token : String) : System Syncing SyncLabel where
  initial s := ∃ id secret sshUser fingerprint,
    s = start cfg token (.new id secret sshUser fingerprint)
  step s l t := s.step cfg l = some t

end Syncing

/-! ### What the agent shows -/

/-- The agent shows what the server had on record for it when it handled that
heartbeat, under a token of the device: the policy stored for it, the name of
its exit, and the counters of its peer with received and sent exchanged. -/
structure AgentView.Shows (a : AgentView) (handled : HandledBeat) (d : Device) : Prop where
  device : handled.server.device a.id = some d
  token : d.token = a.token
  policy : a.policy = handled.server.policyFor a.id ⟨a.id, [], "block", ""⟩
  rx : a.rx = d.tx
  tx : a.tx = d.rx
  handshake : a.handshake = d.handshake
  exitName : a.exitName = handled.server.exitName a.policy.active

/-- What the agent decodes from an answer is what the server has of this device. -/
theorem heartbeatReply_shows {s : Server} {id : String} {d : Device} (h : s.device id = some d)
    (env : Env) {data : AgentView.Data}
    (hData : AgentView.Data.decode (s.heartbeatReply env id) = some data) :
    data.policy = s.policyFor id ⟨id, [], "block", ""⟩ ∧ data.rx = d.tx ∧ data.tx = d.rx ∧
      data.handshake = d.handshake ∧ data.exitName = s.exitName data.policy.active := by
  simp only [Server.heartbeatReply, h, AgentView.Data.decode, Option.getD_some,
    Option.some.injEq] at hData
  subst hData
  exact ⟨rfl, rfl, rfl, rfl, rfl⟩

/-- The record that `setDevice` changes, looked up again. -/
theorem device_setDevice {s : Server} {id : String} {d : Device} (h : s.device id = some d)
    {f : Device → Device} (hf : ∀ d, (f d).id = d.id) : (s.setDevice id f).device id = some (f d) := by
  have hKey : (FirstMatch.update (fun d => d.id = id) f s.state.devices).find? (fun d => d.id = id) =
      if id = id then (s.device id).map f else s.device id :=
    FirstMatch.find?_update_key hf id id s.state.devices
  rw [if_pos rfl, h] at hKey
  exact hKey

/-- What a heartbeat that is answered tells of the server's memory. -/
theorem heartbeat_shows {s : Server} {env : Env} {authorization : String}
    {v : Server.HeartbeatRequest} {saved : Bool} {data : AgentView.Data}
    (hData : AgentView.Data.decode
      ((s.heartbeat env authorization (.ok v)).result saved).2.reply = some data) :
    ∃ d, ((s.heartbeat env authorization (.ok v)).result saved).1.device v.id = some d ∧
      d.token = bearer authorization ∧
      data.policy = ((s.heartbeat env authorization (.ok v)).result saved).1.policyFor v.id
        ⟨v.id, [], "block", ""⟩ ∧
      data.rx = d.tx ∧ data.tx = d.rx ∧ data.handshake = d.handshake ∧
      data.exitName = ((s.heartbeat env authorization (.ok v)).result saved).1.exitName
        data.policy.active := by
  have hToken : ∀ {a b : String}, equal a b = true → a = b := fun h => by
    simp only [equal, Bool.and_eq_true, decide_eq_true_eq] at h
    exact h.2
  cases hDevice : s.device v.id with
  | none => simp [Server.heartbeat, hDevice, Section.result, AgentView.Data.decode] at hData
  | some d =>
      have hSeen := device_setDevice hDevice (f := Server.markSeen env.now) fun _ => rfl
      unfold Server.heartbeat at hData ⊢
      simp only [hDevice] at hData ⊢
      split_ifs at hData ⊢ with hAuth hMany hFills
      · simp [Section.result, AgentView.Data.decode] at hData
      · simp [Section.result, AgentView.Data.decode] at hData
      · have hSame : d.token = bearer authorization := hToken (by simpa using hAuth)
        have hFilled := device_setDevice hSeen (f := Server.fillSSH v) fun _ => rfl
        have hReported := device_setDevice hFilled (f := Server.report v) fun _ => rfl
        cases saved with
        | true =>
            exact ⟨_, hReported, hSame, heartbeatReply_shows hReported env hData⟩
        | false =>
            exact ⟨_, hReported, hSame, heartbeatReply_shows hReported env hData⟩
      · have hSame : d.token = bearer authorization := hToken (by simpa using hAuth)
        have hReported := device_setDevice hSeen (f := Server.report v) fun _ => rfl
        exact ⟨_, hReported, hSame, heartbeatReply_shows hReported env hData⟩

/-! ### The log of the connection -/

theorem getLast?_of_suffix {α : Type} {l l' : List α} (h : l' <:+ l) {x : α}
    (hx : l'.getLast? = some x) : l.getLast? = some x := by
  obtain ⟨before, rfl⟩ := h
  rw [List.getLast?_append, hx]
  rfl

namespace AgentView

/-- What the log says of the connection agrees with the status. -/
structure Logged (a : AgentView) : Prop where
  short : a.events.length ≤ 100
  last : ∀ e, (a.events.filter Syncing.isLink).getLast? = some e →
    (e.action = "connection.ready" ↔ a.status = .connected)
  alternate : (a.events.filter Syncing.isLink).IsChain fun e e' => e.action ≠ e'.action
  error : a.status = .connected → a.lastError = ""

theorem logged_new (id token sshUser fingerprint : String) :
    (new id token sshUser fingerprint).Logged :=
  ⟨by simp [new], by simp [new], by simp [new], by simp [new]⟩

/-- A new event drops at most the oldest ones. -/
theorem event_events (a : AgentView) (now : Time) (action detail : String) :
    ∃ kept, kept <:+ a.events ∧ kept.length ≤ 99 ∧
      (a.event now action detail).events = kept ++ [⟨now, action, detail⟩] := by
  refine ⟨a.events.drop (a.events.length - 99), List.drop_suffix .., by simp; omega, ?_⟩
  simp only [event, List.length_append, List.length_singleton]
  rw [List.drop_append_of_le_length (by omega)]
  congr 2

/-- Other events leave what is known of the connection. -/
theorem Logged.event {a : AgentView} (h : a.Logged) {now : Time} {action detail : String}
    (hOther : Syncing.isLink ⟨now, action, detail⟩ = false) : (a.event now action detail).Logged := by
  obtain ⟨kept, hKept, hLength, hEvents⟩ := a.event_events now action detail
  have hFilter : (a.event now action detail).events.filter Syncing.isLink =
      kept.filter Syncing.isLink := by
    rw [hEvents, List.filter_append]
    simp [hOther]
  have hSuffix : kept.filter Syncing.isLink <:+ a.events.filter Syncing.isLink := hKept.filter _
  refine ⟨by rw [hEvents]; simp; omega, fun e he => ?_, ?_, h.error⟩
  · rw [hFilter] at he
    exact h.last e (getLast?_of_suffix hSuffix he)
  · rw [hFilter]
    exact h.alternate.suffix hSuffix

/-- An event of the connection comes with a change of the status. -/
theorem Logged.link {a : AgentView} (h : a.Logged) {now : Time} {action detail : String}
    (hLink : Syncing.isLink ⟨now, action, detail⟩ = true)
    (hChange : action = "connection.ready" ↔ a.status ≠ .connected) {b : AgentView}
    (hEvents : b.events = (a.event now action detail).events) (hStatus : b.status ≠ a.status)
    (hError : b.status = .connected → b.lastError = "") : b.Logged := by
  obtain ⟨kept, hKept, hLength, hKeptEvents⟩ := a.event_events now action detail
  have hFilter : b.events.filter Syncing.isLink =
      kept.filter Syncing.isLink ++ [⟨now, action, detail⟩] := by
    rw [hEvents, hKeptEvents, List.filter_append]
    simp [hLink]
  have hSuffix : kept.filter Syncing.isLink <:+ a.events.filter Syncing.isLink := hKept.filter _
  have hNow : action = "connection.ready" ↔ b.status = .connected := by
    rw [hChange]
    cases hb : b.status <;> cases ha : a.status <;> simp_all
  refine ⟨by rw [hEvents, hKeptEvents]; simp; omega, fun e he => ?_, ?_, hError⟩
  · rw [hFilter, List.getLast?_concat] at he
    obtain rfl := Option.some.inj he
    exact hNow
  · rw [hFilter, List.isChain_append]
    refine ⟨h.alternate.suffix hSuffix, List.isChain_singleton _, fun e he e' he' hSame => ?_⟩
    obtain rfl : e' = ⟨now, action, detail⟩ := by simpa using he'.symm
    have hOld := h.last e (getLast?_of_suffix hSuffix he)
    have hSame : e.action = action := hSame
    rw [hSame, hChange] at hOld
    tauto

/-- A failure is logged as the end of the connection, once. -/
theorem Logged.failed {a : AgentView} (h : a.Logged) (now : Time) : (a.failed now).Logged := by
  unfold AgentView.failed
  split
  · next hUp =>
      have hLink : Syncing.isLink ⟨now, "connection.lost", "服务器连接断开，正在自动重试"⟩ = true := rfl
      refine h.link hLink ?_ rfl (Ne.symm hUp) (by simp)
      cases hStatus : a.status <;> simp_all
  · next hDown =>
      have hStatus : a.status = .disconnected := by simpa using hDown
      exact ⟨h.short, fun e he => by simpa [hStatus] using h.last e he, h.alternate, by simp⟩

/-- A reply is logged as the begin of the connection, once. -/
theorem Logged.synced {a : AgentView} (h : a.Logged) (now : Time) (elapsed : Int) (data : Data) :
    (a.synced now elapsed data).Logged := by
  unfold AgentView.synced
  split
  · next hDown =>
      have hLink : Syncing.isLink ⟨now, "connection.ready", "服务器已连接"⟩ = true := rfl
      exact h.link hLink (by simpa using hDown) rfl (Ne.symm hDown) (by simp)
  · next hUp =>
      have hStatus : a.status = .connected := by simpa using hUp
      exact ⟨h.short, fun e he => by simpa [hStatus] using h.last e he, h.alternate, by simp⟩

end AgentView

/-! ### Runs -/

/-- What the reply to a heartbeat tells, if the agent can read it. -/
def HandledBeat.Tells (handled : HandledBeat) (id token : String) : Prop :=
  ∀ data, AgentView.Data.decode handled.reply = some data →
    ∃ d, handled.server.device id = some d ∧ d.token = token ∧
      data.policy = handled.server.policyFor id ⟨id, [], "block", ""⟩ ∧ data.rx = d.tx ∧
      data.tx = d.rx ∧ data.handshake = d.handshake ∧
      data.exitName = handled.server.exitName data.policy.active

namespace Syncing

/-- The heartbeat that `sync` waits for is one of the agent, and the server
handles it after the one that is shown. -/
structure Waits (s : Syncing) (b : Heartbeat) : Prop where
  enrolled : s.agent.id ≠ ""
  id : b.body.id = s.agent.id
  token : bearer b.authorization = s.agent.token
  later : ∀ handled earlier, b.handled = some handled → s.shown = some earlier →
    earlier.position < handled.position

structure Sound (s : Syncing) : Prop where
  logged : s.agent.Logged
  tells : ∀ (i : Nat) b handled, s.beats[i]? = some b → b.handled = some handled →
    handled.Tells b.body.id (bearer b.authorization)
  current : ∀ i, s.current = some i → ∃ b, s.beats[i]? = some b ∧ s.Waits b
  handled : ∀ (i : Nat) b handled, s.beats[i]? = some b → b.handled = some handled →
    handled.position < s.machine.history.length
  past : ∀ handled, s.shown = some handled → handled.position < s.machine.history.length
  shows : s.agent.status = .connected →
    s.agent.id ≠ "" ∧ ∃ handled d, s.shown = some handled ∧ s.agent.Shows handled d

variable {cfg : ServerConfig} {token : String} {s t : Syncing}

theorem history_grows {m m' : Machine Process State Op Answer} {l : Label Op}
    (h : (service cfg).step m l = some m') : m.history.length ≤ m'.history.length := by
  rcases Service.step_cases h with ⟨op, saved, p, sec, -, -, -, rfl⟩ | ⟨p, -, -, rfl⟩ |
    ⟨op, renamed, p, sec, -, -, -, rfl⟩ | ⟨-, -, rfl⟩ <;> simp

/-- The server goes on with others; what it has handled stays in the past. -/
theorem Sound.server (h : s.Sound) {m : Machine Process State Op Answer}
    (hGrows : s.machine.history.length ≤ m.history.length) : Sound { s with machine := m } where
  logged := h.logged
  tells := h.tells
  current i hi := by
    obtain ⟨b, hb, hWaits⟩ := h.current i hi
    exact ⟨b, hb, hWaits.enrolled, hWaits.id, hWaits.token, hWaits.later⟩
  handled i b handled hb hHandled := Nat.lt_of_lt_of_le (h.handled i b handled hb hHandled) hGrows
  past handled hShown := Nat.lt_of_lt_of_le (h.past handled hShown) hGrows
  shows := h.shows

/-- A heartbeat is sent with the id and the token that the agent has now. -/
theorem Sound.begin (h : s.Sound) (hEnrolled : s.agent.id ≠ "") (version : String) :
    Sound { s with
      beats := s.beats ++ [⟨s.agent.authorization, s.agent.request version, none⟩]
      current := some s.beats.length } where
  logged := h.logged
  tells i b handled hb hHandled := by
    rcases Slots.getElem?_concat.mp hb with hOld | ⟨-, rfl⟩
    · exact h.tells i b handled hOld hHandled
    · cases hHandled
  current i hi := by
    obtain rfl := Option.some.inj hi
    refine ⟨_, Slots.getElem?_concat.mpr (.inr ⟨rfl, rfl⟩), hEnrolled, rfl, ?_, fun _ _ hNone => ?_⟩
    · simp only [AgentView.authorization, bearer, String.toList_append, trimPrefix_append,
        String.ofList_toList]
    · cases hNone
  handled i b handled hb hHandled := by
    rcases Slots.getElem?_concat.mp hb with hOld | ⟨-, rfl⟩
    · exact h.handled i b handled hOld hHandled
    · cases hHandled
  past := h.past
  shows := h.shows

/-- The server handles a heartbeat later than all that the agent has been shown. -/
theorem Sound.handle (h : s.Sound) {i : Nat} {authorization : String}
    {body : Server.HeartbeatRequest} (hBeat : s.beats[i]? = some ⟨authorization, body, none⟩)
    {p : Process} {env : Env} {saved : Bool} {handled : HandledBeat}
    (hHandled : handled = ⟨((p.server.heartbeat env authorization (.ok body)).result saved).1,
      ((p.server.heartbeat env authorization (.ok body)).result saved).2.reply,
      s.machine.history.length⟩) {m : Machine Process State Op Answer}
    (hGrows : s.machine.history.length < m.history.length) :
    Sound { s with machine := m, beats := s.beats.set i ⟨authorization, body, some handled⟩ } where
  logged := h.logged
  tells j b handled' hb hHandled' := by
    rcases (Slots.getElem?_set hBeat).mp hb with ⟨-, rfl⟩ | ⟨-, hOld⟩
    · obtain rfl := Option.some.inj hHandled'
      subst hHandled
      exact fun data hData => heartbeat_shows hData
    · exact h.tells j b handled' hOld hHandled'
  current j hj := by
    obtain ⟨b, hb, hWaits⟩ := h.current j hj
    by_cases hSame : j = i
    · subst hSame
      obtain rfl := Option.some.inj (hBeat.symm.trans hb)
      refine ⟨_, (Slots.getElem?_set hBeat).mpr (.inl ⟨rfl, rfl⟩), hWaits.enrolled, hWaits.id,
        hWaits.token, fun handled' earlier hNew hShown => ?_⟩
      obtain rfl := Option.some.inj hNew
      subst hHandled
      exact h.past earlier hShown
    · exact ⟨b, (Slots.getElem?_set hBeat).mpr (.inr ⟨hSame, hb⟩), hWaits.enrolled, hWaits.id,
        hWaits.token, hWaits.later⟩
  handled j b handled' hb hHandled' := by
    rcases (Slots.getElem?_set hBeat).mp hb with ⟨-, rfl⟩ | ⟨-, hOld⟩
    · obtain rfl := Option.some.inj hHandled'
      subst hHandled
      exact hGrows
    · exact (h.handled j b handled' hOld hHandled').trans hGrows
  past handled' hShown := (h.past handled' hShown).trans hGrows
  shows := h.shows

/-- A reply shows what the server had on record when it handled the heartbeat. -/
theorem Sound.reply (h : s.Sound) {i : Nat} (hCurrent : s.current = some i) {b : Heartbeat}
    (hBeat : s.beats[i]? = some b) {handled : HandledBeat} (hHandled : b.handled = some handled)
    {data : AgentView.Data} (hData : AgentView.Data.decode handled.reply = some data) (now : Time)
    (elapsed : Int) :
    Sound { s with
      agent := s.agent.synced now elapsed data, current := none, shown := some handled } := by
  obtain ⟨b', hb', hWaits⟩ := h.current i hCurrent
  obtain rfl := Option.some.inj (hBeat.symm.trans hb')
  have hSame : (s.agent.synced now elapsed data).id = s.agent.id ∧
      (s.agent.synced now elapsed data).token = s.agent.token := by
    unfold AgentView.synced
    split <;> exact ⟨rfl, rfl⟩
  refine ⟨h.logged.synced now elapsed data, h.tells, fun j hj => (by cases hj), h.handled,
    fun later hLater => ?_, fun _ => ?_⟩
  · obtain rfl := Option.some.inj hLater
    exact h.handled i b handled hBeat hHandled
  · obtain ⟨d, hDevice, hToken, hPolicy, hRx, hTx, hHandshake, hExit⟩ :=
      h.tells i b handled hBeat hHandled data hData
    rw [hWaits.id] at hDevice hPolicy
    rw [hWaits.token] at hToken
    refine ⟨hSame.1 ▸ hWaits.enrolled, handled, d, rfl, ?_, ?_, ?_, hRx, hTx, hHandshake, hExit⟩
    · exact hSame.1 ▸ hDevice
    · exact hSame.2 ▸ hToken
    · exact hSame.1 ▸ hPolicy

/-- What does not touch the agent's name, its status and what it shows. -/
theorem Sound.agent (h : s.Sound) {a : AgentView} (hLogged : a.Logged)
    (hId : a.id = s.agent.id) (hToken : a.token = s.agent.token)
    (hStatus : a.status = .connected → s.agent.status = .connected ∧
      ∀ handled d, s.agent.Shows handled d → a.Shows handled d) {current : Option Nat}
    (hCurrent : current = s.current ∨ current = none) :
    Sound { s with agent := a, current := current } where
  logged := hLogged
  tells := h.tells
  current i hi := by
    rcases hCurrent with rfl | rfl
    · obtain ⟨b, hb, hWaits⟩ := h.current i hi
      exact ⟨b, hb, fun hNone => hWaits.enrolled (hId.symm.trans hNone), hWaits.id.trans hId.symm,
        hWaits.token.trans hToken.symm, hWaits.later⟩
    · cases hi
  handled := h.handled
  past := h.past
  shows hUp := by
    obtain ⟨hOld, hShows⟩ := hStatus hUp
    obtain ⟨hEnrolled, handled, d, hShown, hDevice⟩ := h.shows hOld
    exact ⟨fun hNone => hEnrolled (hId.symm.trans hNone), handled, d, hShown,
      hShows handled d hDevice⟩

/-- An event of another kind changes nothing that is shown of the link. -/
theorem Sound.event (h : s.Sound) {now : Time} {action detail : String}
    (hOther : isLink ⟨now, action, detail⟩ = false) :
    Sound { s with agent := s.agent.event now action detail } :=
  h.agent (h.logged.event hOther) rfl rfl (fun hUp => ⟨hUp, fun _ _ hShows =>
    ⟨hShows.device, hShows.token, hShows.policy, hShows.rx, hShows.tx, hShows.handshake,
      hShows.exitName⟩⟩) (.inl rfl)

/-- A heartbeat that fails changes nothing that is shown of the server's data. -/
theorem Sound.fail (h : s.Sound) (now : Time) :
    Sound { s with agent := s.agent.failed now, current := none } := by
  refine h.agent (h.logged.failed now) ?_ ?_ (fun hUp => ?_) (.inr rfl)
  · unfold AgentView.failed
    split <;> rfl
  · unfold AgentView.failed
    split <;> rfl
  · cases hUp

/-- An agent without an id shows nothing, so that a join changes nothing shown. -/
theorem Sound.join (h : s.Sound) (hNew : s.agent.id = "") (now : Time) (id secret : String) :
    Sound { s with
      agent := ({ s.agent with id := id, token := secret }).event now "device.join" "已加入网络" } := by
  have hDown : s.agent.status ≠ .connected := fun hUp => (h.shows hUp).1 hNew
  have hNamed : ({ s.agent with id := id, token := secret } : AgentView).Logged :=
    ⟨h.logged.short, h.logged.last, h.logged.alternate, h.logged.error⟩
  refine ⟨hNamed.event rfl, h.tells, fun i hi => ?_, h.handled, h.past,
    fun hUp => absurd hUp hDown⟩
  obtain ⟨b, -, hWaits⟩ := h.current i hi
  exact absurd hNew hWaits.enrolled

/-- Every step keeps the agent, the network and the server together. -/
theorem Sound.step (h : s.Sound) {l : SyncLabel} (hStep : s.step cfg l = some t) : t.Sound := by
  cases l with
  | server l =>
      obtain ⟨m, hm, rfl⟩ := Option.map_eq_some_iff.mp hStep
      exact h.server (history_grows hm)
  | begin version =>
      simp only [Syncing.step] at hStep
      split at hStep
      · next hReady =>
          obtain rfl := Option.some.inj hStep
          exact h.begin hReady.2 version
      · cases hStep
  | handle i env saved =>
      simp only [Syncing.step] at hStep
      split at hStep
      · next p authorization body hUp hBeat =>
          obtain ⟨m, hm, rfl⟩ := Option.map_eq_some_iff.mp hStep
          refine h.handle hBeat rfl ?_
          rcases Service.step_cases hm with ⟨op, saved', p', sec, -, -, -, rfl⟩ | ⟨p', hLabel, -⟩ |
            ⟨op, renamed, p', sec, hLabel, -⟩ | ⟨hLabel, -⟩
          · simp
          · cases hLabel
          · cases hLabel
          · cases hLabel
      · cases hStep
  | reply now elapsed =>
      simp only [Syncing.step] at hStep
      split at hStep
      · next authorization body handled hFound =>
          obtain ⟨data, hData, rfl⟩ := Option.map_eq_some_iff.mp hStep
          obtain ⟨i, hCurrent, hBeat⟩ := Option.bind_eq_some_iff.mp hFound
          exact h.reply hCurrent hBeat rfl hData now elapsed
      · cases hStep
  | fail now =>
      simp only [Syncing.step] at hStep
      split at hStep
      · obtain rfl := Option.some.inj hStep
        exact h.fail now
      · cases hStep
  | join now id secret =>
      simp only [Syncing.step] at hStep
      split at hStep
      · next hNew =>
          obtain rfl := Option.some.inj hStep
          exact h.join hNew now id secret
      · cases hStep
  | diagnose checks =>
      obtain rfl := Option.some.inj hStep
      have hLogged : ({ s.agent with checks := checks } : AgentView).Logged :=
        ⟨h.logged.short, h.logged.last, h.logged.alternate, h.logged.error⟩
      exact h.agent hLogged rfl rfl
        (fun hUp => ⟨hUp, fun _ _ hShows => ⟨hShows.device, hShows.token, hShows.policy, hShows.rx,
          hShows.tx, hShows.handshake, hShows.exitName⟩⟩) (.inl rfl)
  | event now action detail =>
      simp only [Syncing.step] at hStep
      split at hStep
      · cases hStep
      · next hOther =>
          obtain rfl := Option.some.inj hStep
          exact h.event (by simpa using hOther)
  | restart =>
      obtain rfl := Option.some.inj hStep
      exact h.agent (AgentView.logged_new ..) rfl rfl (fun hUp => by cases hUp) (.inr rfl)

/-- The invariant in every reachable state. -/
theorem sound_reachable (h : Reachable (system cfg token) s) : s.Sound := by
  refine Reachable.invariant (I := Sound) ?_ (fun s l t hs hStep => hs.step hStep) h
  rintro _ ⟨id, secret, sshUser, fingerprint, rfl⟩
  exact ⟨AgentView.logged_new .., by simp [start], by simp [start], by simp [start], by simp [start],
    fun hUp => by cases hUp⟩

/-- No older answer takes the place of a newer one. -/
theorem shown_step (h : s.Sound) {l : SyncLabel} (hStep : s.step cfg l = some t) {earlier : HandledBeat}
    (hShown : s.shown = some earlier) :
    ∃ handled, t.shown = some handled ∧ earlier.position ≤ handled.position := by
  cases l with
  | reply now elapsed =>
      simp only [Syncing.step] at hStep
      split at hStep
      · next authorization body handled hFound =>
          obtain ⟨data, hData, rfl⟩ := Option.map_eq_some_iff.mp hStep
          obtain ⟨i, hCurrent, hBeat⟩ := Option.bind_eq_some_iff.mp hFound
          obtain ⟨b, hb, hWaits⟩ := h.current i hCurrent
          obtain rfl := Option.some.inj (hBeat.symm.trans hb)
          exact ⟨handled, rfl, Nat.le_of_lt (hWaits.later handled earlier rfl hShown)⟩
      · cases hStep
  | server l =>
      obtain ⟨m, -, rfl⟩ := Option.map_eq_some_iff.mp hStep
      exact ⟨earlier, hShown, Nat.le_refl _⟩
  | handle i env saved =>
      simp only [Syncing.step] at hStep
      split at hStep
      · obtain ⟨m, -, rfl⟩ := Option.map_eq_some_iff.mp hStep
        exact ⟨earlier, hShown, Nat.le_refl _⟩
      · cases hStep
  | begin | fail | join | event =>
      simp only [Syncing.step] at hStep
      split at hStep <;> cases hStep
      exact ⟨earlier, hShown, Nat.le_refl _⟩
  | diagnose | restart =>
      cases hStep
      exact ⟨earlier, hShown, Nat.le_refl _⟩

/-- Over a run what is shown is never replaced by something older. -/
theorem shown_runs (h : s.Sound) {labels : List SyncLabel}
    (run : Runs (system cfg token) s labels t) :
    ∀ earlier, s.shown = some earlier →
      ∃ handled, t.shown = some handled ∧ earlier.position ≤ handled.position := by
  have hBoth := run.preserves (I := fun u => u.Sound ∧ ∀ earlier, s.shown = some earlier →
      ∃ handled, u.shown = some handled ∧ earlier.position ≤ handled.position)
    (fun u l v hu hStep => ⟨hu.1.step hStep, fun earlier hEarlier => by
      obtain ⟨handled, hHandled, hLe⟩ := hu.2 earlier hEarlier
      obtain ⟨next, hNext, hLe'⟩ := shown_step hu.1 hStep hHandled
      exact ⟨next, hNext, hLe.trans hLe'⟩⟩)
    ⟨h, fun earlier hEarlier => ⟨earlier, hEarlier, Nat.le_refl _⟩⟩
  exact hBoth.2

/-- Over a network that loses and holds up what it likes, with a server that
crashes and serves others in between: a connected agent shows what the server
had on record for it when it handled one of its heartbeats, never an older
state than it has shown before, and its log and its error agree with the status. -/
theorem agent_follows_server (h : Reachable (system cfg token) s) {labels : List SyncLabel}
    (run : Runs (system cfg token) s labels t) :
    t.agent.Logged ∧ (t.agent.status = .connected → ∃ handled d, t.shown = some handled ∧
      t.agent.Shows handled d ∧
        ∀ earlier, s.shown = some earlier → earlier.position ≤ handled.position) := by
  have hSound := sound_reachable (h.runs run)
  refine ⟨hSound.logged, fun hUp => ?_⟩
  obtain ⟨-, handled, d, hShown, hShows⟩ := hSound.shows hUp
  refine ⟨handled, d, hShown, hShows, fun earlier hEarlier => ?_⟩
  obtain ⟨later, hLater, hLe⟩ := shown_runs (sound_reachable h) run earlier hEarlier
  obtain rfl := Option.some.inj (hShown.symm.trans hLater)
  exact hLe

/-- A device joins and sends one heartbeat. -/
def firstBeat : List SyncLabel :=
  [.server (.run (.createCode (sampleEnv 'a' 'a') (.ok "")) true),
   .server (.run (.join (sampleEnv 'c' 'b') (.ok ⟨sampleToken 'a', "laptop", sampleKey⟩)) true),
   .join 1 (idOf (sampleToken 'c')) (sampleToken 'b'), .begin "0.2.0",
   .handle 0 (sampleEnv 'd' 'd') true, .reply 2 15]

/-- Another code is made, and the device sends a second heartbeat. -/
def secondBeat : List SyncLabel :=
  [.server (.run (.createCode (sampleEnv 'e' 'e') (.ok "")) true), .begin "0.2.0",
   .handle 1 (sampleEnv 'f' 'f') true, .reply 3 12]

/-- What is shown after the second heartbeat is later than what was shown before. -/
theorem agent_follows_server_joined : ∃ s t earlier handled d,
    Reachable (system sampleConfig "secret") s ∧ s.shown = some earlier ∧
      Runs (system sampleConfig "secret") s secondBeat t ∧ t.shown = some handled ∧
      t.agent.Shows handled d ∧ earlier.position ≤ handled.position := by
  let first := start sampleConfig "secret" (.new "" "" "" "")
  have hFollow : ((follow (step sampleConfig) first firstBeat).any fun s => s.shown.isSome &&
      (follow (step sampleConfig) s secondBeat).any fun t => t.agent.status = .connected) = true := by
    decide +kernel
  obtain ⟨s, hFirstRun, hBoth⟩ := (Option.any_eq_true _ _).mp hFollow
  obtain ⟨hShown, hSecond⟩ := Bool.and_eq_true_iff.mp hBoth
  obtain ⟨earlier, hEarlier⟩ := Option.isSome_iff_exists.mp hShown
  obtain ⟨t, hSecondRun, hUp⟩ := (Option.any_eq_true _ _).mp hSecond
  have hFirst : Reachable (system sampleConfig "secret") first :=
    Reachable.initial ⟨"", "", "", "", rfl⟩
  have hReach : Reachable (system sampleConfig "secret") s :=
    hFirst.runs (runs_of_follow (fun _ _ _ hStep => hStep) hFirstRun)
  have run : Runs (system sampleConfig "secret") s secondBeat t :=
    runs_of_follow (fun _ _ _ hStep => hStep) hSecondRun
  obtain ⟨handled, d, hHandled, hShows, hLater⟩ :=
    (agent_follows_server hReach run).2 (of_decide_eq_true hUp)
  exact ⟨s, t, earlier, handled, d, hReach, hEarlier, run, hHandled, hShows, hLater earlier hEarlier⟩

end Syncing

end NetConductor
