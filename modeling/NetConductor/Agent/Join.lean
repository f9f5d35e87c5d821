import NetConductor.Server.Runs

/-! `Agent.join`: what the agent asks the server for, and what it makes of the
answer. -/
namespace NetConductor
open GoText

/-- The configuration, as far as joining and repairing a tunnel go. -/
structure AgentSettings extends AgentConfig where
  server : String
  certificate : String
  name : String
  ip : String
  iface : String
  privateKey : String
  tunnelConfig : String
deriving DecidableEq

/-- The body of a request to join. -/
structure JoinForm where
  server : String
  certificate : String
  code : String
  name : String
  iface : String
  adopt : Bool
deriving DecidableEq

/-- What `url.Parse` finds in an address. -/
structure ServerURL where
  scheme : String
  host : String
  user : Bool
  rawQuery : String
  fragment : String
  path : String
deriving DecidableEq

/-- What `join` reads from outside before it asks the server: the address
parsed, whether the certificate is PEM, the key of the tunnel to adopt, and a
pair of new keys, the private one first. -/
structure JoinSources where
  url : Option ServerURL
  pem : Bool
  tunnelKey : Option String
  newKeys : Option (String × String)
deriving DecidableEq

/-- The fields of the server's answer that `join` decodes. -/
structure JoinReply where
  id : String
  ip : String
  token : String
  serverPublicKey : String
  endpoint : String
  network : String
  proxy : String
  error : String
deriving DecidableEq

/-- What comes of the request: no answer in time, or one, with its status and
what the decoder made of its body. -/
inductive Fetched where
  | failed
  | answered (status : Nat) (decoded : Bool) (result : JoinReply)
deriving DecidableEq

/-- A request for the server, and the private key that goes with it. -/
structure PreparedJoin where
  form : JoinForm
  privateKey : String
  request : Server.JoinRequest
deriving DecidableEq

namespace Agent

/-- `strings.TrimRight(s, "/")`. -/
def trimSlashes (s : String) : String := String.ofList (s.toList.rdropWhile (· = '/'))

def validServer (url : Option ServerURL) : Bool :=
  match url with
  | none => false
  | some u => u.scheme = "https" && u.host ≠ "" && !u.user && u.rawQuery = "" && u.fragment = "" &&
      (u.path = "" || u.path = "/")

/-- The key to register, and the private key if it is new. -/
def joinKeys (o : JoinSources) (adopt : Bool) : Except Server.Failure (String × String) :=
  if adopt then
    match o.tunnelKey with
    | none => .error ⟨400, "无法读取现有 WireGuard 隧道"⟩
    | some key => .ok ("", String.ofList (trimSpace key.toList))
  else
    match o.newKeys with
    | none => .error ⟨500, "key generation failed"⟩
    | some keys => .ok keys

/-- `join` up to its request. -/
def prepareJoin (o : JoinSources) (body : Decoded JoinForm) (c : AgentSettings) :
    Except Server.Failure PreparedJoin :=
  match body with
  | .error e => .error ⟨400, e⟩
  | .ok v =>
      if c.id ≠ "" then .error ⟨409, "设备已入网"⟩
      else if validServer o.url = false ∨ safeName v.iface = false then
        .error ⟨400, "请填写 HTTPS 服务器地址和合法隧道名称"⟩
      else if v.certificate ≠ "" ∧ o.pem = false then .error ⟨400, "服务器证书格式错误"⟩
      else
        match joinKeys o v.adopt with
        | .error e => .error e
        | .ok (privateKey, publicKey) => .ok ⟨v, privateKey, ⟨v.code, v.name, publicKey⟩⟩

/-- The answer, if it is one to go on with. -/
def readJoin : Fetched → Except Server.Failure JoinReply
  | .failed => .error ⟨502, "无法连接服务器，请核对地址和证书"⟩
  | .answered status decoded result =>
      if decoded = false ∨ status ≠ 200 then .error ⟨400, "入网失败：" ++ result.error⟩ else .ok result

def tunnelText (privateKey : String) (r : JoinReply) : String :=
  "[Interface]\nPrivateKey = " ++ privateKey ++ "\nAddress = " ++ r.ip ++
    "/32\n\n[Peer]\nPublicKey = " ++ r.serverPublicKey ++ "\nEndpoint = " ++ r.endpoint ++
    "\nAllowedIPs = " ++ r.network ++ "\nPersistentKeepalive = 25\n"

/-- The configuration that `join` saves and then works with. -/
def joinedSettings (p : PreparedJoin) (r : JoinReply) (c : AgentSettings) : AgentSettings where
  server := trimSlashes p.form.server
  certificate := p.form.certificate
  id := r.id
  ip := r.ip
  name := p.form.name
  token := r.token
  iface := p.form.iface
  hubProxy := r.proxy
  privateKey := p.privateKey
  tunnelConfig := if p.form.adopt then c.tunnelConfig else tunnelText p.privateKey r

end Agent

/-- The configuration of an agent that has not joined a network. -/
def freshSettings : AgentSettings :=
  { id := "", token := "", hubProxy := "", server := "", certificate := "", name := "", ip := "",
    iface := "nc-wg", privateKey := "", tunnelConfig := "" }

end NetConductor
