import NetConductor.Semantics.CriticalSection
import NetConductor.Server.State

/-! Enrollment: `createCode` hands out a code, `join` redeems it for a device,
with the WireGuard commands it issues on the way. -/
namespace NetConductor
open GoText GoNet Durable

/-- What the `wg` command answers in the course of one request. -/
structure WGAnswers where
  publicKey : Option String
  allowedIPs : Except String String
  set : Bool
  remove : Bool
deriving DecidableEq

/-- Everything a handler reads from outside: the clock, the values of `Token()`
in the order of the calls, the answers of `wg`, and the error text of a save
that fails. -/
structure Env where
  now : Time
  token : String
  token' : String
  wg : WGAnswers
  saveError : String
deriving DecidableEq

inductive WGCommand where
  | set (key allowedIPs : String)
  | remove (key : String)
deriving DecidableEq

/-- A reply together with the changing `wg` commands issued before it, each
with its success. -/
structure Answer where
  reply : Reply
  wg : List (WGCommand × Bool)

namespace Server

/-! ### Enrollment codes -/

/-- A preset address has to lie in the network and must not be spelled as the
server's address is. -/
def presetAllowed (cfg : ServerConfig) (ip : String) : Bool :=
  match parseCIDR cfg.network.toList with
  | none => false
  | some (_, network) => network.contains (parseIPString ip) && ip ≠ cfg.serverIP

def createCode (env : Env) (body : Decoded String) (s : Server) : Server × Reply :=
  match body with
  | .error e => (s, .fail 400 e)
  | .ok ip =>
      if ip ≠ "" ∧ presetAllowed s.cfg ip = false then
        (s, .fail 400 "地址必须属于私网且不能是服务器地址")
      else
        let codes := deleteIf s.codes fun e => e.expires < env.now
        if 100 ≤ codes.entries.length then ({ s with codes := codes }, .fail 429 "待使用入网码过多")
        else
          ({ s with codes := codes.insert env.token ⟨env.now + 10 * minute, ip⟩ },
            .json (.code env.token 600))

/-! ### Joining -/

structure JoinRequest where
  code : String
  name : String
  publicKey : String
deriving DecidableEq

/-- Base64 of 32 bytes; every 32 bytes are an X25519 public key. -/
def validKey (k : String) : Bool :=
  match Base64.decodeString k.toList with
  | some b => b.length = 32
  | none => false

/-- The prefix that a device address is routed by. -/
def hostPrefix (ip : String) : String := ip ++ "/32"

/-- `strings.Contains`. -/
def containsText (s sub : String) : Bool := decide (sub.toList <:+: s.toList)

/-- The key of a line whose second word contains the address with `/32` as a
piece of text. -/
def peerHit (ip : String) : List Chars → Option String
  | key :: first :: _ =>
      if (hostPrefix ip).toList <:+: first then some (String.ofList key) else none
  | _ => none

/-- `join` and `reconcilePeers` both look through the lines of `wg show
allowed-ips` this way. -/
def peerHits (existing ip : String) : List String :=
  (lines existing.toList).filterMap fun line => peerHit ip (fields line)

/-- A hit is found in the whole text as well. -/
theorem contains_of_hit {existing ip key : String} (h : key ∈ peerHits existing ip) :
    containsText existing (hostPrefix ip) = true := by
  obtain ⟨line, hLine, hHit⟩ := List.mem_filterMap.mp h
  have hWord : ∃ w ∈ fields line, (hostPrefix ip).toList <:+: w := by
    unfold peerHit at hHit
    split at hHit
    · next k first rest hFields =>
        split_ifs at hHit with hText
        exact ⟨first, by simp [hFields], hText⟩
    · cases hHit
  obtain ⟨w, hw, hText⟩ := hWord
  have hInLine : w <:+: line := (splitOnP_within line).1 w (List.mem_filter.mp hw).1
  have hInText : line <:+: existing.toList := (splitOnP_within existing.toList).1 line hLine
  exact decide_eq_true ((hText.trans hInLine).trans hInText)

/-- The addresses the allocation loop goes through. -/
def candidates (base : IP) : List String :=
  match to4 base with
  | some [a, b, c, _] => (List.range' 2 253).map fun n => String.ofList (dotted a b c (.ofNat n))
  | _ => []

def addressUsed (s : Server) (existing candidate : String) : Bool :=
  containsText existing (hostPrefix candidate) || candidate = s.cfg.serverIP ||
    s.state.devices.any fun d => d.ip = candidate

/-- The allocation loop; `none` when the network is not IPv4, the empty text
when no address is free. -/
def allocate (s : Server) (existing : String) : Option String :=
  match parseCIDR s.cfg.network.toList with
  | none => none
  | some (base, network) =>
      if to4 base = none then none
      else
        some (((candidates base).find? fun c =>
          !s.addressUsed existing c && network.contains (parseIPString c)).getD "")

/-- The address for a code: the one preset in it, or the loop's pick. -/
def assigned (s : Server) (code : Enrollment) (existing : String) : Option String :=
  if code.ip ≠ "" then some code.ip else s.allocate existing

/-- What `join` has decided when its checks are through. -/
structure JoinPlan where
  ip : String
  serverKey : String
  adopted : Bool
deriving DecidableEq

/-- An error answer, before it is written. -/
structure Failure where
  status : Nat
  error : String
deriving DecidableEq

/-- The adoption check on the address chosen. -/
def adoptionPlan (req : JoinRequest) (existing key ip : String) : Except Failure JoinPlan :=
  if ip = "" then .error ⟨409, "没有可用地址"⟩
  else if (peerHits existing ip).any (· ≠ req.publicKey) then
    .error ⟨409, "现有 WireGuard 公钥不匹配"⟩
  else .ok ⟨ip, key, decide (peerHits existing ip ≠ [])⟩

/-- The address for a redeemed code, and the adoption check on it. -/
def addressPlan (req : JoinRequest) (env : Env) (code : Enrollment) (s : Server) :
    Except Failure JoinPlan :=
  match env.wg.publicKey with
  | none => .error ⟨503, "服务器 WireGuard 不可用"⟩
  | some key =>
      match env.wg.allowedIPs with
      | .error e => .error ⟨503, e⟩
      | .ok existing =>
          match s.assigned code existing with
          | none => .error ⟨500, "仅支持 IPv4 私网"⟩
          | some ip => adoptionPlan req existing key ip

/-- All checks of `join` before its first change. -/
def joinPlan (req : JoinRequest) (env : Env) (s : Server) : Except Failure JoinPlan :=
  if req.name.utf8ByteSize < 1 ∨ 80 < req.name.utf8ByteSize ∨ validKey req.publicKey = false then
    .error ⟨400, "设备名称或公钥不合法"⟩
  else match s.codes.lookup req.code with
    | none => .error ⟨403, "入网码无效或已过期"⟩
    | some code =>
        if code.expires < env.now then .error ⟨403, "入网码无效或已过期"⟩
        else if s.state.devices.any fun d =>
            d.publicKey = req.publicKey || (code.ip ≠ "" && d.ip = code.ip) then
          .error ⟨409, "设备已存在，请使用原设备配置"⟩
        else addressPlan req env code s

def joinedDevice (req : JoinRequest) (env : Env) (ip : String) : Device :=
  { Device.zero with
    id := idOf env.token, name := req.name, ip := ip, publicKey := req.publicKey,
    token := env.token', os := "windows", sshPort := 22, proxyType := "socks5" }

/-- The in-place change that `join` saves. -/
def addDevice (env : Env) (d : Device) (s : Server) : Server :=
  ({ s with state.devices := s.state.devices ++ [d] }).audit env.now "device.join" d.name

/-- An adopted peer stays as it is. -/
def setPeer (req : JoinRequest) (env : Env) (plan : JoinPlan) : List (WGCommand × Bool) :=
  if plan.adopted then [] else [(.set req.publicKey (hostPrefix plan.ip), env.wg.set)]

def removePeer (req : JoinRequest) (env : Env) (plan : JoinPlan) : List (WGCommand × Bool) :=
  if plan.adopted then [] else [(.remove req.publicKey, env.wg.remove)]

/-- From the plan to the answer. A save that fails takes the device off the
list again, but not the audit line. -/
def commitJoin (req : JoinRequest) (env : Env) (plan : JoinPlan) (s : Server) :
    Section Server Answer :=
  if plan.adopted = false ∧ env.wg.set = false then
    .answer s ⟨.fail 500 "创建 WireGuard 节点失败", setPeer req env plan⟩
  else
    let d := joinedDevice req env plan.ip
    let s' := s.addDevice env d
    .persist s'
      ({ s' with codes := s'.codes.erase req.code },
        ⟨.json (.joined d plan.serverKey s.cfg.publicEndpoint s.cfg.network s.cfg.proxyListen
          plan.adopted), setPeer req env plan⟩)
      ({ s' with state.devices := s'.state.devices.dropLast },
        ⟨.fail 500 env.saveError, setPeer req env plan ++ removePeer req env plan⟩)

def join (env : Env) (body : Decoded JoinRequest) (s : Server) : Section Server Answer :=
  match body with
  | .error e => .answer s ⟨.fail 400 e, []⟩
  | .ok req =>
      match s.joinPlan req env with
      | .error e => .answer s ⟨.fail e.status e.error, []⟩
      | .ok plan => s.commitJoin req env plan

/-! ### What the two handlers can do -/

/-- `createCode` changes the table of codes only, and every code in it was there
before or is the new one, with an address that passed the check. -/
theorem createCode_cases (env : Env) (body : Decoded String) (s : Server) :
    ∃ codes, (s.createCode env body).1 = { s with codes := codes } ∧
      ∀ key code, codes.lookup key = some code → s.codes.lookup key = some code ∨
        (key = env.token ∧ (code.ip = "" ∨ presetAllowed s.cfg code.ip = true)) := by
  unfold createCode
  cases body with
  | error e => exact ⟨s.codes, rfl, fun key code h => .inl h⟩
  | ok ip =>
      dsimp only
      split_ifs with hPreset hMany
      · exact ⟨s.codes, rfl, fun key code h => .inl h⟩
      · exact ⟨_, rfl, fun key code h => .inl (lookup_deleteIf.mp h).1⟩
      · refine ⟨_, rfl, fun key code h => ?_⟩
        by_cases hKey : key = env.token
        · subst hKey
          simp only [AList.lookup_insert, Option.some.injEq] at h
          subst h
          exact .inr ⟨rfl, by
            by_cases hIP : ip = ""
            · exact .inl hIP
            · exact .inr (by simpa [hIP] using hPreset)⟩
        · rw [AList.lookup_insert_ne hKey] at h
          exact .inl (lookup_deleteIf.mp h).1

/-- An address that the allocation loop finds. -/
theorem allocate_some {s : Server} {existing ip : String} (h : s.allocate existing = some ip)
    (hIP : ip ≠ "") :
    ∃ base network, parseCIDR s.cfg.network.toList = some (base, network) ∧
      ip ∈ candidates base ∧ containsText existing (hostPrefix ip) = false ∧ ip ≠ s.cfg.serverIP ∧
      (∀ d ∈ s.state.devices, d.ip ≠ ip) ∧ network.contains (parseIPString ip) = true := by
  unfold allocate at h
  split at h
  · cases h
  · next base network hNetwork =>
      split at h
      · cases h
      · simp only [Option.some.injEq] at h
        cases hFound : (candidates base).find? fun c =>
            !s.addressUsed existing c && network.contains (parseIPString c) with
        | none => exact absurd (by simpa [hFound] using h.symm) hIP
        | some c =>
            obtain rfl : c = ip := by simpa [hFound] using h
            have hGood := List.find?_some hFound
            simp only [addressUsed, Bool.and_eq_true, Bool.not_eq_true', Bool.or_eq_false_iff,
              decide_eq_false_iff_not, List.any_eq_false, decide_eq_true_eq] at hGood
            obtain ⟨⟨⟨hText, hServer⟩, hDevices⟩, hContains⟩ := hGood
            exact ⟨base, network, hNetwork, List.mem_of_find?_eq_some hFound, hText, hServer, hDevices,
              hContains⟩

/-- What an adoption plan says. -/
theorem adoptionPlan_ok {req : JoinRequest} {existing key ip : String} {plan : JoinPlan}
    (h : adoptionPlan req existing key ip = .ok plan) :
    plan = ⟨ip, key, decide (peerHits existing ip ≠ [])⟩ ∧ ip ≠ "" ∧
      ∀ hit ∈ peerHits existing ip, hit = req.publicKey := by
  unfold adoptionPlan at h
  split_ifs at h with hIP hHits
  exact ⟨(Except.ok.inj h).symm, hIP, by simpa using hHits⟩

/-- What the checks of `join` establish before its first change. -/
theorem joinPlan_ok {req : JoinRequest} {env : Env} {s : Server} {plan : JoinPlan}
    (h : s.joinPlan req env = .ok plan) :
    validKey req.publicKey = true ∧ (∀ d ∈ s.state.devices, d.publicKey ≠ req.publicKey) ∧
    ∃ code existing, s.codes.lookup req.code = some code ∧ env.now ≤ code.expires ∧
      env.wg.allowedIPs = .ok existing ∧
      (code.ip ≠ "" → ∀ d ∈ s.state.devices, d.ip ≠ code.ip) ∧
      s.assigned code existing = some plan.ip ∧ plan.ip ≠ "" ∧
      (∀ hit ∈ peerHits existing plan.ip, hit = req.publicKey) ∧
      plan.adopted = decide (peerHits existing plan.ip ≠ []) := by
  unfold joinPlan at h
  split_ifs at h with hName
  split at h
  · cases h
  · next code hCode =>
      split_ifs at h with hExpired hKnown
      simp only [List.any_eq_true, Bool.or_eq_true, Bool.and_eq_true, decide_eq_true_eq,
        not_exists, not_and, not_or] at hKnown
      unfold addressPlan at h
      split at h
      · cases h
      · next key hKey =>
          split at h
          · cases h
          · next existing hExisting =>
              refine ⟨by simpa using (not_or.mp (not_or.mp hName).2).2, fun d hd => (hKnown d hd).1,
                code, existing, hCode, not_lt.mp hExpired, hExisting, fun hIP d hd => (hKnown d hd).2 hIP, ?_⟩
              split at h
              · cases h
              · next ip hAssigned =>
                  obtain ⟨rfl, hNe, hHits⟩ := adoptionPlan_ok h
                  exact ⟨hAssigned, hNe, hHits, rfl⟩

@[simp] theorem addDevice_devices (env : Env) (d : Device) (s : Server) :
    (s.addDevice env d).state.devices = s.state.devices ++ [d] := by simp [addDevice]
@[simp] theorem addDevice_policies (env : Env) (d : Device) (s : Server) :
    (s.addDevice env d).state.policies = s.state.policies := by simp [addDevice]
@[simp] theorem addDevice_mappings (env : Env) (d : Device) (s : Server) :
    (s.addDevice env d).state.mappings = s.state.mappings := by simp [addDevice]
@[simp] theorem addDevice_cfg (env : Env) (d : Device) (s : Server) :
    (s.addDevice env d).cfg = s.cfg := by simp [addDevice]
@[simp] theorem addDevice_codes (env : Env) (d : Device) (s : Server) :
    (s.addDevice env d).codes = s.codes := by simp [addDevice]
@[simp] theorem addDevice_forwards (env : Env) (d : Device) (s : Server) :
    (s.addDevice env d).forwards = s.forwards := by simp [addDevice]

/-- `join` answers with an error and changes nothing, or it adds the device of
its plan and saves; then `wg` has taken the peer or had it already. -/
theorem join_steps (env : Env) (body : Decoded JoinRequest) (s : Server) :
    (∃ status e wg, s.join env body = .answer s ⟨.fail status e, wg⟩) ∨
    ∃ req plan, body = .ok req ∧ s.joinPlan req env = .ok plan ∧
      ¬(plan.adopted = false ∧ env.wg.set = false) ∧
      s.join env body = .persist (s.addDevice env (joinedDevice req env plan.ip))
        ({ s.addDevice env (joinedDevice req env plan.ip) with
            codes := (s.addDevice env (joinedDevice req env plan.ip)).codes.erase req.code },
          ⟨.json (.joined (joinedDevice req env plan.ip) plan.serverKey s.cfg.publicEndpoint
            s.cfg.network s.cfg.proxyListen plan.adopted), setPeer req env plan⟩)
        ({ s.addDevice env (joinedDevice req env plan.ip) with
            state.devices :=
              (s.addDevice env (joinedDevice req env plan.ip)).state.devices.dropLast },
          ⟨.fail 500 env.saveError, setPeer req env plan ++ removePeer req env plan⟩) := by
  cases body with
  | error e => exact .inl ⟨400, e, [], rfl⟩
  | ok req =>
      cases hPlan : s.joinPlan req env with
      | error e => exact .inl ⟨e.status, e.error, [], by simp only [join, hPlan]⟩
      | ok plan =>
          by_cases hSet : plan.adopted = false ∧ env.wg.set = false
          · exact .inl ⟨500, "创建 WireGuard 节点失败", setPeer req env plan, by
              simp only [join, hPlan, commitJoin, if_pos hSet]⟩
          · exact .inr ⟨req, plan, rfl, hPlan, hSet, by
              simp only [join, hPlan, commitJoin, if_neg hSet]⟩

/-- The same without what `wg` has done. -/
theorem join_cases (env : Env) (body : Decoded JoinRequest) (s : Server) :
    (∃ status e wg, s.join env body = .answer s ⟨.fail status e, wg⟩) ∨
    ∃ req plan, body = .ok req ∧ s.joinPlan req env = .ok plan ∧
      s.join env body = .persist (s.addDevice env (joinedDevice req env plan.ip))
        ({ s.addDevice env (joinedDevice req env plan.ip) with
            codes := (s.addDevice env (joinedDevice req env plan.ip)).codes.erase req.code },
          ⟨.json (.joined (joinedDevice req env plan.ip) plan.serverKey s.cfg.publicEndpoint
            s.cfg.network s.cfg.proxyListen plan.adopted), setPeer req env plan⟩)
        ({ s.addDevice env (joinedDevice req env plan.ip) with
            state.devices :=
              (s.addDevice env (joinedDevice req env plan.ip)).state.devices.dropLast },
          ⟨.fail 500 env.saveError, setPeer req env plan ++ removePeer req env plan⟩) := by
  rcases join_steps env body s with hError | ⟨req, plan, hBody, hPlan, -, hJoin⟩
  · exact .inl hError
  · exact .inr ⟨req, plan, hBody, hPlan, hJoin⟩

end Server
end NetConductor
