import NetConductor.Remote.Isolation
import NetConductor.Server.ActiveExit
import NetConductor.Server.Store

/-! The whole server at work: the requests to its process, the policy dials on
their way, and the remote hub, all on one memory. -/
namespace NetConductor
open Durable Transition

variable {S : Type} {C : SDPCodec S}

namespace Server

/-- `agentSSHKey`: `file` is the key file, if it can be read, and `publicKey`
what it parses to. -/
def agentSSHKey (file : Option (List UInt8)) (publicKey : List UInt8 → Option String)
    (id authorization : String) (s : Server) : Server × Except Failure String :=
  if (s.device id).any fun d => equal (bearer authorization) d.token then
    match file with
    | none => (s, .error ⟨503, "SSH key unavailable"⟩)
    | some b =>
        match publicKey b with
        | none => (s, .error ⟨503, "SSH key invalid"⟩)
        | some key => (s, .ok key)
  else (s, .error ⟨401, "unauthorized"⟩)

end Server

/-- `dials` are the policy dials on their way, each with the credential of the
connection it is made for; the entry for local programs asks for none. `carried`
are those of the connections that were made: their bytes go where the dial went.
The server's memory is the process's. -/
structure Site where
  process : Process
  dials : List (Option String × Dial)
  carried : List (Option String)
  remote : Hub

/-- What a policy dial does next. -/
inductive DialMove where
  | attempt (ok : Bool)
  | direct (ok : Bool)
  | block
  | report

/-- The move of a dial that is looked at alone. -/
def DialMove.label : DialMove → DialLabel
  | .attempt ok => .attempt 0 ok
  | .direct ok => .direct 0 ok
  | .block => .block 0
  | .report => .report 0

/-- What reaches the entry for local programs are the bytes of a program on the
server, or those of a connection that was dialed to it. -/
inductive SiteLabel where
  | request (op : Op) (saved : Bool)
  | proxy (r : ProxyRequest)
  | localProxy (through : Option Nat)
  | dial (i : Nat) (m : DialMove)
  | sshKey (file : Option (List UInt8)) (publicKey : List UInt8 → Option String)
      (id authorization : String)
  | hub (l : HubLabel)

namespace Site

def server (w : Site) : Server := w.process.server

def withServer (s : Server) (w : Site) : Site := { w with process := { w.process with server := s } }

/-- The hub, with the memory that it shares. -/
def hub (w : Site) : Hub := { w.remote with server := w.server }

def withHub (h : Hub) (w : Site) : Site := { w.withServer h.server with remote := h }

/-- The snapshot of a policy dial. -/
def startDial (credential : Option String) (id : String) (w : Site) : Site :=
  { w with dials := w.dials ++
      ((Dialing.start id ⟨w.process, [], []⟩).dials.map fun d => (credential, d)) }

/-- One move of a dial; it is off the list when it returns, and then its connection
is there, unless it has failed. -/
def moveDial (i : Nat) (m : DialMove) (w : Site) : Option Site :=
  w.dials[i]?.bind fun e => (Dialing.step ⟨w.process, [e.2], []⟩ m.label).map fun v =>
    { w with
      process := v.process
      dials := match v.dials with
        | [] => w.dials.eraseIdx i
        | d :: _ => w.dials.set i (e.1, d)
      carried := match m with
        | .report => w.carried ++ [e.1]
        | _ => w.carried }

/-- Whose bytes come to the entry for local programs. -/
def through (w : Site) : Option Nat → Option (Option String)
  | none => some none
  | some i => w.carried[i]?

def step (C : SDPCodec S) (w : Site) : SiteLabel → Option Site
  | .request (.setActive _ _) _ => none
  | .request op saved => (w.process.exec op).map fun sec => { w with process := (sec.result saved).1 }
  | .proxy r =>
      match w.server.proxySource r with
      | none => some w
      | some id => some (w.startDial ((proxyCredentials r).map Prod.snd) id)
  | .localProxy through =>
      if w.server.cfg.localProxyListen = "" then none
      else (w.through through).map fun credential => w.startDial credential "cloud"
  | .dial i m => w.moveDial i m
  | .sshKey file publicKey id authorization =>
      some (w.withServer (w.server.agentSSHKey file publicKey id authorization).1)
  | .hub (.server _) => none
  | .hub l => (w.hub.step C l).map fun h => w.withHub h

/-- A process without dials and remote connections. -/
def ofProcess (p : Process) : Site := ⟨p, [], [], Hub.start p.server⟩

end Site

/-- The secret of a new device is nobody else's. -/
def FreshSecrets (p : Process) : Op → Prop
  | .join env _ => ∀ d ∈ p.server.state.devices, d.token ≠ env.token'
  | _ => True

instance (p : Process) (op : Op) : Decidable (FreshSecrets p op) :=
  match op with
  | .join env _ => inferInstanceAs (Decidable (∀ d ∈ p.server.state.devices, d.token ≠ env.token'))
  | .createCode .. | .heartbeat .. | .updateDevice .. | .putPolicy .. | .setActive .. | .writeProbe ..
  | .saveProbe | .auditSession .. | .putMapping .. | .openMapping .. | .commitMapping .. | .deleteMapping ..
  | .restoreMappings | .restoreNext .. | .restoreMark => instDecidableTrue

/-- All runs of the server, from the memory that any earlier run of its process
has led to, restarts included. -/
def Site.system (C : SDPCodec S) (cfg : ServerConfig) (token : String) : System Site SiteLabel where
  initial w := ∃ s p, Reachable (runsWhere cfg token FreshSecrets) s ∧ s.mem = some p ∧
    w = Site.ofProcess p
  step w l v := (∀ op saved, l = .request op saved → FreshTokens w.process op ∧ FreshSecrets w.process op) ∧
    w.step C l = some v

/-! ### Credentials -/

/-- The ids of the devices, each with its secret. -/
def Config.keys (c : Config) : List (String × String) := c.devices.map fun d => (d.id, d.token)

def Server.keys (s : Server) : List (String × String) := s.state.config.keys

/-- Only a join adds a token, the one that it hands out. -/
theorem keys_effect (op : Op) (ans : Answer) (c : Config) :
    (effect op ans c).keys = c.keys ∨
      ∃ env body d serverKey endpoint network proxy adopted, op = .join env body ∧
        ans.reply = .json (.joined d serverKey endpoint network proxy adopted) ∧
        (effect op ans c).keys = c.keys ++ [(d.id, d.token)] := by
  unfold effect
  split
  · next env body d serverKey endpoint network proxy adopted hReply =>
      exact .inr ⟨env, body, d, serverKey, endpoint, network, proxy, adopted, rfl, hReply, by
        simp [Config.keys, Device.config]⟩
  · next env id v hReply =>
      refine .inl ?_
      apply FirstMatch.map_update
      exact fun d => rfl
  all_goals exact .inl rfl

/-- The device of an answer of `join` carries the new secret. -/
theorem joined_token {env : Env} {body : Decoded Server.JoinRequest} {s : Server} {saved : Bool}
    {d : Device} {serverKey endpoint network proxy : String} {adopted : Bool}
    (h : ((s.join env body).result saved).2.reply =
      .json (.joined d serverKey endpoint network proxy adopted)) : d.token = env.token' := by
  rcases Server.join_cases env body s with ⟨status, e, wg, hJoin⟩ | ⟨req, plan, rfl, -, hJoin⟩
  · rw [hJoin] at h
    cases h
  · rw [hJoin] at h
    cases saved with
    | true =>
        cases h
        rfl
    | false => cases h

/-- Every device has a secret of its own. -/
def Config.SecretsDistinct (c : Config) : Prop := (c.keys.map Prod.snd).Nodup

/-- With fresh tokens no two devices have one in common. -/
theorem secrets_effect {p : Process} {op : Op} {sec : Section Process Answer}
    (hFresh : FreshSecrets p op) (h : p.server.state.config.SecretsDistinct)
    (hSec : p.exec op = some sec) :
    (effect op (sec.result true).2 p.server.state.config).SecretsDistinct := by
  rcases keys_effect op (sec.result true).2 p.server.state.config with hSame |
    ⟨env, body, d, serverKey, endpoint, network, proxy, adopted, rfl, hReply, hKeys⟩
  · rw [Config.SecretsDistinct, hSame]
    exact h
  · obtain rfl := Option.some.inj hSec
    rw [Section.result_map] at hReply
    rw [Config.SecretsDistinct, hKeys, List.map_append, List.nodup_append]
    refine ⟨h, by simp, ?_⟩
    intro t ht u hu
    obtain rfl : u = d.token := by simpa using hu
    obtain ⟨k, hk, rfl⟩ := List.mem_map.mp ht
    obtain ⟨e, he, rfl⟩ := List.mem_map.mp hk
    obtain ⟨e', he', rfl⟩ := List.mem_map.mp he
    rw [joined_token hReply]
    exact hFresh e' he'

theorem secrets_exec {p : Process} {op : Op} {sec : Section Process Answer}
    (hFresh : FreshSecrets p op) (h : p.server.state.config.SecretsDistinct)
    (hSec : p.exec op = some sec) :
    sec.Holds (fun q => q.server.state.config.SecretsDistinct)
      (fun q => q.server.state.config.SecretsDistinct) :=
  (Process.exec_implements hSec).holds h (secrets_effect hFresh h hSec)

/-- In every run with fresh tokens. -/
theorem secrets_reachable {cfg : ServerConfig} {token : String}
    {s : Machine Process State Op Answer} (h : Reachable (runsWhere cfg token FreshSecrets) s)
    {p : Process} (hUp : s.mem = some p) : p.server.state.config.SecretsDistinct := by
  have hFirst : (firstState cfg token).config.SecretsDistinct := by
    simp [Config.SecretsDistinct, Config.keys, State.config]
  have hInvariant := Service.invariant
    (I := fun p : Process => p.server.state.config.SecretsDistinct)
    (K := fun st : State => st.config.SecretsDistinct) hFirst hFirst (fun _ hDisk => hDisk)
    (fun _ _ _ hAllowed hMem hSec => secrets_exec hAllowed.2 hMem hSec) h
  exact hInvariant.1 p hUp

/-- A known id and secret stay known. -/
theorem keys_exec {p : Process} {op : Op} {sec : Section Process Answer} {saved : Bool}
    (hSec : p.exec op = some sec) {k : String × String} (hk : k ∈ p.server.keys) :
    k ∈ (sec.result saved).1.server.keys := by
  have hConfig := (Process.exec_implements hSec).result saved
  rw [Server.keys, hConfig]
  rcases keys_effect op (sec.result saved).2 p.server.state.config with hSame |
    ⟨env, body, d, serverKey, endpoint, network, proxy, adopted, -, -, hKeys⟩
  · rw [hSame]
    exact hk
  · rw [hKeys]
    exact List.mem_append_left _ hk

theorem mem_keys {s : Server} {d : Device} (h : d ∈ s.state.devices) : (d.id, d.token) ∈ s.keys :=
  List.mem_map_of_mem (f := fun d : DeviceConfig => (d.id, d.token)) (List.mem_map_of_mem h)

/-- One secret names one id. -/
theorem id_of_secret {c : Config} (h : c.SecretsDistinct) {id id' token : String}
    (hk : (id, token) ∈ c.keys) (hk' : (id', token) ∈ c.keys) : id = id' := by
  have hSame := List.inj_on_of_nodup_map h hk hk' rfl
  exact (Prod.mk.inj hSame).1

end NetConductor
