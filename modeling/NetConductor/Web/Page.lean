import NetConductor.Semantics.Markup
import NetConductor.Server.Secrecy

/-! What the web page writes into itself: the templates of the administrator's
page, its dialogs and the file table, as functions of the snapshot that the
server sends. -/
namespace NetConductor
namespace WebPage
open Markup

/-- What stands in a hole: escaped text, an id written as it is, or anything
else written as it is. -/
inductive Kind where
  | text
  | id
  | word
deriving DecidableEq

abbrev Html := List (Piece (Hole Kind))

def lit (s : String) : Html := [.lit s.toList]

/-- `esc`; the remote sessions' page has the same function. -/
def esc (s : String) : Html := [.hole ⟨.text, escape s.toList, s.toList⟩]

def ident (s : String) : Html := [.hole ⟨.id, s.toList, s.toList⟩]

def word (s : String) : Html := [.hole ⟨.word, s.toList, s.toList⟩]

def number (n : Int) : Html := word (fmtInt n)

/-- Written between tags and in values as it is. -/
def Plain (s : String) : Prop := ∀ c ∈ s.toList, c ∉ ['&', '<', '"', '\'', '\x00']

instance (s : String) : Decidable (Plain s) := List.decidableBAll _ s.toList

/-- What the page computes with the browser's dates and numbers. -/
structure Browser where
  dateTime : Time → String
  unixTime : Int → String
  clock : String
  bytes : Int → String
  grouped : Int → String
  canRemote : Device → Bool
  plain_dateTime : ∀ t, Plain (dateTime t)
  plain_unixTime : ∀ t, Plain (unixTime t)
  plain_clock : Plain clock
  plain_bytes : ∀ n, Plain (bytes n)
  plain_grouped : ∀ n, Plain (grouped n)

variable (b : Browser) (s : Snapshot)

def date (t : Time) : String := if t = 0 then "尚无记录" else b.dateTime t

def device (id : String) : Option Device := s.state.devices.find? fun d => d.id = id

def deviceName (id : Option String) : String :=
  if id = some "DIRECT" then "直接连接"
  else match (id.bind (device s)).map Device.name with
    | some "" | none => match id with
        | some "" | none => "暂无"
        | some id => id
    | some name => name

def icon (name : String) : Html :=
  match name with
  | "home" => lit "<rect x=\"3\" y=\"3\" width=\"7\" height=\"7\" rx=\"1\"/>" ++
      lit "<rect x=\"14\" y=\"3\" width=\"7\" height=\"7\" rx=\"1\"/>" ++
      lit "<rect x=\"3\" y=\"14\" width=\"7\" height=\"7\" rx=\"1\"/>" ++
      lit "<rect x=\"14\" y=\"14\" width=\"7\" height=\"7\" rx=\"1\"/>"
  | "proxy" => lit "<path d=\"M3 7h17m-4-4 4 4-4 4M21 17H4m4-4-4 4 4 4\"/>"
  | "maps" => lit "<path d=\"M8 3H3v5m0-5 7 7m6 11h5v-5m0 5-7-7\"/>" ++
      lit "<rect x=\"8\" y=\"8\" width=\"8\" height=\"8\" rx=\"2\"/>"
  | "logs" => lit "<path d=\"M8 3H4v18h16V3h-4M9 2h6v4H9zM8 11h8M8 15h6\"/>"
  | "repair" => lit "<path d=\"M14 5a6 6 0 0 0-7 8L2 18l4 4 5-5a6 6 0 0 0 8-7l-4 4-5-5z\"/>"
  | "cloud" => lit "<path d=\"M6 18a5 5 0 0 1 0-10 7 7 0 0 1 13 2 4 4 0 0 1 0 8z\"/>"
  | "ssh" => lit "<path d=\"m5 7 5 5-5 5m8 0h6\"/>"
  | "shield" => lit "<path d=\"m12 2 9 4v6c0 5-9 10-9 10S3 17 3 12V6zM8 12l3 3 5-6\"/>"
  -- "devices" and every name without an icon
  | _ => lit "<rect x=\"3\" y=\"3\" width=\"18\" height=\"13\" rx=\"2\"/>" ++
      lit "<path d=\"M8 21h8m-4-5v5\"/>"

def ico (name : String) : Html :=
  lit "<svg viewBox=\"0 0 24 24\" aria-hidden=\"true\">" ++ icon name ++ lit "</svg>"

def badge (on : Bool) (text : String) : Html :=
  lit "<span class=\"tag " ++ lit (if on then "" else "off") ++ lit "\"><i class=\"dot\"></i>" ++
    esc (if text ≠ "" then text else if on then "在线" else "离线") ++ lit "</span>"

def panel (title : String) (body action : Html) (subtitle : String) : Html :=
  lit "<section class=\"panel\"><div class=\"panel-head\"><div><h2>" ++ word title ++
    lit "</h2>" ++ (if subtitle ≠ "" then lit "<p>" ++ word subtitle ++ lit "</p>" else []) ++
    lit "</div>" ++ action ++ lit "</div>" ++ body ++ lit "</section>"

def stat (title : String) (value : Html) (sub name : String) : Html :=
  lit "<div class=\"stat\"><label>" ++ word title ++ lit "</label><strong>" ++ value ++
    lit "</strong><span>" ++ word sub ++ lit "</span><div class=\"ico\">" ++ ico name ++
    lit "</div></div>"

inductive Tab where
  | home
  | devices
  | proxy
  | maps
  | logs
deriving DecidableEq

def Tab.name : Tab → String
  | .home => "网络概览"
  | .devices => "组网设备"
  | .proxy => "代理策略"
  | .maps => "端口映射"
  | .logs => "事件日志"

def event (e : LogEvent) : Html :=
  lit "<div class=\"event\"><time>" ++ word (date b e.at_) ++ lit "</time><div><strong>" ++
    esc e.action ++ lit "</strong><small>" ++ esc e.detail ++ lit "</small></div></div>"

def events (tab : Tab) : Html :=
  if s.state.events = [] then lit "<div class=\"empty\">暂无事件记录</div>"
  else (s.state.events.reverse.take (if tab = .logs then 100 else 5)).flatMap (event b)

/-- A button that acts on a device or a mapping. -/
def button (opening id attrs label : String) : Html :=
  lit opening ++ ident id ++ lit "\"" ++ lit attrs ++ lit ">" ++ lit label ++ lit "</button>"

/-- The attribute of a button that needs a newer client. -/
def remoteAttrs (d : Device) : String :=
  if b.canRemote d then " " else " disabled title=\"请升级客户端到 v0.2.0\""

/-- The columns that the table on the first page leaves out. -/
def deviceDetails (d : Device) : Html :=
  lit "<td>" ++
    (if d.id ≠ "cloud" ∧ d.status = "online" then number d.latencyMs ++ lit " ms" else lit "—") ++
    lit "<small>" ++
    (if d.agentVersion ≠ "" then lit "v" ++ esc d.agentVersion else lit "无客户端心跳") ++
    lit "</small></td><td class=\"mono\">" ++ word (b.bytes d.tx) ++ lit " / " ++
    word (b.bytes d.rx) ++ lit "<small>" ++
    (if d.handshake ≠ 0 then lit "握手 " ++ word (b.unixTime d.handshake) else lit "暂无握手") ++
    lit "</small></td><td>" ++
    (if d.proxyPort ≠ 0 then badge d.proxyHealthy (if d.proxyHealthy then "可用" else "不可用")
      else lit "未配置") ++
    lit "<small>" ++
    (if d.proxyPort ≠ 0 then esc d.proxyType ++ lit ":" ++ number d.proxyPort else []) ++
    lit "</small></td>"

def deviceRow (compact : Bool) (d : Device) : Html :=
  lit "<tr><td><strong>" ++ esc d.name ++ lit "</strong><small class=\"mono\">" ++ esc d.ip ++
    lit " · " ++ esc d.os ++ lit "</small></td><td>" ++ badge (d.status = "online") "" ++
    lit "</td>" ++ (if compact then [] else deviceDetails b d) ++
    lit "<td><div class=\"toolbar\">" ++
    button "<button data-action=\"ssh\" data-id=\"" d.id
      (if d.sshUser ≠ "" ∧ d.sshFingerprint ≠ "" then " " else " disabled") "SSH" ++
    button "<button data-action=\"files\" data-id=\"" d.id (remoteAttrs b d) "文件" ++
    (if d.os = "windows" then
      button "<button data-action=\"desktop\" data-id=\"" d.id (remoteAttrs b d) "桌面" else []) ++
    (if compact then [] else button "<button data-action=\"device\" data-id=\"" d.id "" "设置") ++
    lit "</div></td></tr>"

def deviceTable (compact : Bool) : Html :=
  lit "<div class=\"table-wrap\"><table><thead><tr><th>设备</th><th>状态</th>" ++
    (if compact then [] else lit "<th>往返延迟</th><th>隧道流量 ↓ / ↑</th><th>代理出口</th>") ++
    lit "<th>操作</th></tr></thead><tbody>" ++ s.state.devices.flatMap (deviceRow b compact) ++
    lit "</tbody></table></div>"

/-! ### The pages -/

def node (d : Device) : Html :=
  lit "<div class=\"node\">" ++ ico "devices" ++ lit "<div><strong>" ++ esc d.name ++
    lit "</strong><small>" ++ esc d.ip ++ lit " · " ++
    lit (if d.status = "online" then "在线" else "离线") ++ lit "</small></div></div>"

def topology : Html :=
  lit "<div class=\"topology\"><div class=\"node\">" ++ ico "cloud" ++
    lit "<div><strong>公网服务器</strong><small>" ++ esc s.serverIP ++
    lit " · 中心节点</small></div></div><div class=\"stem\"></div><div class=\"peers\">" ++
    (match s.state.devices.filter fun d => d.id ≠ "cloud" with
      | [] => lit "<span class=\"muted\">添加第一台设备，开始组网</span>"
      | devices => devices.flatMap node) ++
    lit "</div></div>"

def count {α : Type} (l : List α) : Html := number l.length

def enroll : Html := lit "<button class=\"primary\" data-action=\"enroll\">＋ 添加设备</button>"

def home : Html :=
  lit "<div class=\"stats\">" ++
    stat "在线设备" (count (s.state.devices.filter fun d => d.status = "online") ++ lit "<span> / " ++
      count s.state.devices ++ lit "</span>") "包括公网服务器" "devices" ++
    stat "可用代理出口" (count (s.state.devices.filter fun d => d.proxyHealthy)) "真实出口请求检测"
      "proxy" ++
    stat "端口映射" (count (s.state.mappings.filter fun m => m.enabled ∧ m.error = ""))
      "正在监听的转发规则" "maps" ++
    stat "代理策略" (count s.state.policies) "按来源设备独立配置" "shield" ++
    lit "</div>" ++ panel "私网拓扑" (topology s) enroll "" ++ lit "<div class=\"split\">" ++
    panel "设备连接" (deviceTable b s true) [] "" ++ panel "最近事件" (events b s .home) [] "" ++
    lit "</div>"

/-- `join` on an array, between whose elements `sep` is written. -/
def joined (sep : Html) : List Html → Html
  | [] => []
  | [x] => x
  | x :: rest => x ++ sep ++ joined sep rest

def policyOf (id : String) : Option Policy := s.state.policies.find? fun p => p.source = id

def exits (p : Option Policy) : Html :=
  match p.map Policy.exits with
  | none | some [] => lit "<span class=\"muted\">未配置</span>"
  | some exits => joined (lit "<span class=\"arrow\">→</span>") (exits.map fun id =>
      lit "<span class=\"tag\">" ++ esc (deviceName s (some id)) ++ lit "</span>")

def policyRow (d : Device) : Html :=
  lit "<tr><td><strong>" ++ esc d.name ++ lit "</strong><small>" ++ esc d.ip ++
    lit "</small></td><td><div class=\"ordering\">" ++ exits s (policyOf s d.id) ++
    lit "</div></td><td>" ++ esc (deviceName s ((policyOf s d.id).map Policy.active)) ++
    lit "</td><td>" ++
    lit (if (policyOf s d.id).map Policy.onFailure = some "direct" then "直接连接" else "停止代理") ++
    lit "</td><td>" ++ button "<button data-action=\"policy\" data-id=\"" d.id "" "配置" ++
    lit "</td></tr>"

def proxy : Html :=
  lit "<div class=\"notice\">按顺序尝试出口，新连接在故障时切换。客户端应用使用本地 HTTP 代理 127.0.0.1:17891；" ++
    lit "未配置策略时阻止代理出站。</div>" ++
    panel "设备出口策略" (lit "<div class=\"table-wrap\"><table><thead><tr><th>来源设备</th>" ++
      lit "<th>出口优先级</th><th>最近成功出口</th><th>全部失败时</th><th></th></tr></thead><tbody>" ++
      s.state.devices.flatMap (policyRow s) ++ lit "</tbody></table></div>") [] ""

def mappingRow (m : Mapping) : Html :=
  lit "<tr><td><strong>" ++ esc m.name ++ lit "</strong><small>" ++ word m.protocol.toUpper ++
    lit "</small></td><td class=\"mono\">" ++ esc (if m.domain ≠ "" then m.domain else "*") ++
    lit ":" ++ number m.listenPort ++ lit "</td><td>" ++ esc (deviceName s (some m.device)) ++
    lit "<small>" ++ esc (((device s m.device).map Device.ip).getD "") ++ lit ":" ++
    number m.targetPort ++ lit "</small></td><td>" ++
    badge (m.enabled ∧ m.error = "")
      (if m.error ≠ "" then "启动失败" else if m.enabled then "监听中" else "未启用") ++
    (if m.error ≠ "" then lit "<small>" ++ esc m.error ++ lit "</small>" else []) ++
    lit "</td><td>" ++
    button "<button class=\"danger\" data-action=\"delete-map\" data-id=\"" m.id "" "删除" ++
    lit "</td></tr>"

def maps : Html :=
  lit "<div class=\"notice\">映射由公网服务器转发至设备私网端口。公网访问还需云安全组放行对应端口；" ++
    lit "HTTP 域名需解析到服务器。</div>" ++
    panel "公网端口映射"
      (if s.state.mappings ≠ [] then
        lit "<div class=\"table-wrap\"><table><thead><tr><th>名称 / 协议</th><th>公网入口</th>" ++
          lit "<th>目标设备</th><th>状态</th><th></th></tr></thead><tbody>" ++
          s.state.mappings.flatMap (mappingRow s) ++ lit "</tbody></table></div>"
      else lit "<div class=\"empty\">尚无映射。添加设备端口，让服务从公网可访问。</div>")
      (lit "<button class=\"primary\" data-action=\"mapping\">＋ 添加映射</button>") ""

/-- What `render` writes into the page. -/
def content (tab : Tab) : Html :=
  match tab with
  | .home => home b s
  | .devices => panel "全部设备" (deviceTable b s false) enroll
      "在线状态来自客户端心跳；隧道流量来自服务器 WireGuard"
  | .proxy => proxy s
  | .maps => maps s
  | .logs => panel "操作与连接事件" (events b s .logs) [] ""

/-! ### Around the pages -/

def Tab.key : Tab → String
  | .home => "home"
  | .devices => "devices"
  | .proxy => "proxy"
  | .maps => "maps"
  | .logs => "logs"

def navButton (tab n : Tab) : Html :=
  lit "<button data-tab=\"" ++ lit n.key ++ lit "\" class=\"" ++
    lit (if tab = n then "active" else "") ++ lit "\">" ++ ico n.key ++ lit "<span>" ++
    lit n.name ++ lit "</span></button>"

def shell (tab : Tab) : Html :=
  lit "<div class=\"shell\"><aside class=\"side\"><div class=\"brand\">" ++
    lit "<span class=\"logo\">N</span>Net Conductor</div><small>NETWORK CONTROL</small><nav>" ++
    [Tab.home, .devices, .proxy, .maps, .logs].flatMap (navButton tab) ++
    lit "</nav><footer><strong>自托管网络管理</strong><br>v0.2.0 · WireGuard 私网<br>" ++
    lit "<button data-action=\"logout\">退出登录</button></footer></aside><main class=\"main\">" ++
    lit "<header class=\"top\"><div><h1 id=\"title\">" ++
    lit tab.name ++ lit "</h1><p>一台公网服务器，连接你的所有设备</p></div>" ++
    lit "<span class=\"live\" id=\"live\">正在连接…</span></header>" ++
    lit "<div id=\"content\"></div></main></div>"

def live : Html := lit "<i class=\"dot\"></i>实时同步 · " ++ word b.clock

/-! ### Dialogs -/

/-- `extra` are more attributes. -/
def field (label name value type extra : String) : Html :=
  lit "<label class=\"field\">" ++ word label ++ lit "<input name=\"" ++ word name ++
    lit "\" type=\"" ++ word type ++ lit "\" value=\"" ++ esc value ++ lit "\" " ++ lit extra ++
    lit "></label>"

def choice (value : String) (o : String × String) : Html :=
  lit "<option value=\"" ++ esc o.1 ++ lit "\" " ++ lit (if o.1 = value then "selected" else "") ++
    lit ">" ++ esc o.2 ++ lit "</option>"

def select (label name : String) (options : List (String × String)) (value : String) : Html :=
  lit "<label class=\"field\">" ++ word label ++ lit "<select name=\"" ++ word name ++ lit "\">" ++
    options.flatMap (choice value) ++ lit "</select></label>"

def modal (title body : Html) : Html :=
  lit "<header><h2>" ++ title ++
    lit "</h2><button data-action=\"close-dialog\" type=\"button\">✕</button></header><form>" ++
    body ++ lit "<p class=\"form-error\"></p><div class=\"actions\">" ++
    lit "<button type=\"button\" data-action=\"close-dialog\">取消</button>" ++
    lit "<button class=\"primary\" type=\"submit\">保存</button></div></form>"

def fieldRow (body : Html) : Html := lit "<div class=\"field-row\">" ++ body ++ lit "</div>"

def help (text : String) : Html := lit "<p class=\"help\">" ++ word text ++ lit "</p>"

def enrollDialog : Html :=
  modal (word "添加 Windows 设备") (field "接入现有设备时填写虚拟 IP；新设备留空" "ip" "" "text" "" ++
    help "入网码单次有效，10 分钟过期。请在客户端填写服务器 HTTPS 地址，并导入服务器证书。")

def deviceDialog (d : Device) : Html :=
  modal (word "设备设置") (field "设备名称" "name" d.name "text" "required maxlength=\"80\"" ++
    fieldRow (select "共享代理协议" "proxyType" [("socks5", "SOCKS5"), ("http", "HTTP")]
        (if d.proxyType ≠ "" then d.proxyType else "socks5") ++
      field "共享代理端口，0 表示关闭" "proxyPort" (fmtInt d.proxyPort) "number"
        "min=\"0\" max=\"65535\" required") ++
    fieldRow (field "SSH 用户" "sshUser" d.sshUser "text" "" ++
      field "SSH 端口" "sshPort" (fmtInt (if d.sshPort ≠ 0 then d.sshPort else 22)) "number"
        "min=\"1\" max=\"65535\" required") ++
    field "SSH 主机指纹（在目标机核对）" "sshFingerprint" d.sshFingerprint "text" "" ++
    help "SSH 使用服务器上配置的专用密钥。主机指纹不匹配时拒绝连接。")

/-- The policy that the dialog starts from. -/
def shownPolicy (id : String) : Policy := (policyOf s id).getD ⟨id, [], "block", ""⟩

/-- What may be chosen as an exit. -/
def exitChoices : List (String × String) :=
  ("", "不设置") :: (s.state.devices.filter fun d => d.proxyPort ≠ 0).map fun d => (d.id, d.name)

/-- How many exits the dialog has room for, one more than there are. -/
def exitRows (p : Policy) : Nat := max 3 (p.exits.length + 1)

def exitRow (p : Policy) (i : Nat) : Html :=
  select ("优先级 " ++ fmtInt (i + 1)) ("exit" ++ fmtInt i) (exitChoices s) (p.exits.getD i "")

def policyDialog (id : String) : Html :=
  modal (word "配置 " ++ esc (deviceName s (some id)) ++ word " 的出口")
    ((List.range (exitRows (shownPolicy s id))).flatMap (exitRow s (shownPolicy s id)) ++
      select "所有出口失败时" "onFailure" [("block", "停止代理"), ("direct", "直接连接")]
        (shownPolicy s id).onFailure)

def mappingDialog : Html :=
  modal (word "添加端口映射") (field "映射名称" "name" "" "text" "required maxlength=\"80\"" ++
    fieldRow (select "协议" "protocol" [("tcp", "TCP"), ("udp", "UDP"), ("http", "HTTP")] "tcp" ++
      field "公网监听端口" "listenPort" "" "number" "required min=\"1024\" max=\"65535\"") ++
    select "目标设备" "device" (s.state.devices.map fun d => (d.id, d.name)) "" ++
    field "目标服务端口" "targetPort" "" "number" "required min=\"1\" max=\"65535\"" ++
    field "HTTP 域名（可选）" "domain" "" "text" "" ++
    help "HTTPS 可由现有 Caddy 转到此 HTTP 映射端口；本版本不自动修改已有 Caddy 配置。")

def deleteDialog (m : Mapping) : Html :=
  modal (word "删除映射") (lit "<p>停止并删除 " ++ esc m.name ++ lit " 的公网转发。</p>")

def terminalDialog (id : String) : Html :=
  lit "<header><h2>SSH · " ++ esc (deviceName s (some id)) ++ lit "</h2>" ++
    lit "<button data-action=\"close-dialog\">关闭终端</button></header><div id=\"terminal\"></div>"

/-! ### Remote sessions -/

inductive RemoteMode where
  | ssh
  | files
  | desktop
deriving DecidableEq

def RemoteMode.title : RemoteMode → String
  | .ssh => "SSH"
  | .files => "文件管理"
  | .desktop => "远程桌面"

def remoteDialog (mode : RemoteMode) (name : String) : Html :=
  lit "<header><h2>" ++ lit mode.title ++ lit " · " ++ esc name ++ lit "</h2>" ++
    lit "<button class=\"remote-close\">关闭</button></header>" ++
    lit "<div class=\"remote-status\">正在尝试 P2P 直连…" ++
    lit "</div><div class=\"remote-error\" role=\"alert\"></div><div class=\"remote-body\"></div>"

/-- The size that a device lists for a file. An agent sends a number; the page
takes what comes. -/
inductive FileSize where
  | number (n : Int)
  | text (s : String)
deriving DecidableEq

/-- `toLocaleString`, which leaves a string as it is. -/
def FileSize.shown : FileSize → String
  | .number n => b.grouped n
  | .text s => s

/-- An entry of a listing as the page has it. -/
structure FileEntry where
  name : String
  directory : Bool
  size : FileSize
deriving DecidableEq

def fileButton (kind : String) (i : Nat) (label : Html) : Html :=
  lit "<button class=\"" ++ lit kind ++ lit "\" data-index=\"" ++ number i ++ lit "\">" ++ label ++
    lit "</button>"

def fileRow (e : FileEntry) (i : Nat) : Html :=
  lit "<tr><td>" ++
    fileButton "entry" i (lit (if e.directory then "📁" else "📄") ++ lit " " ++ esc e.name) ++
    lit "</td><td>" ++ (if e.directory then lit "—" else word (e.size.shown b) ++ lit " B") ++
    lit "</td><td>" ++ fileButton "rename" i (lit "重命名") ++ lit " " ++
    fileButton "delete" i (lit "删除") ++ lit "</td></tr>"

def fileTable (entries : List FileEntry) : Html :=
  lit "<table><thead><tr><th>名称</th><th>大小</th><th>操作</th></tr></thead><tbody>" ++
    (entries.zipIdx.flatMap fun e => fileRow b e.1 e.2) ++ lit "</tbody></table>"

/-! ### What is written -/

/-- Everything that the page writes into itself over a snapshot; a dialog is
opened for a device, a mapping or the id on its button. -/
inductive View where
  | shell (tab : Tab)
  | live
  | content (tab : Tab)
  | enroll
  | device (id : String)
  | policy (id : String)
  | mapping
  | delete (id : String)
  | terminal (id : String)
  | remote (mode : RemoteMode) (id : String)
  | files (entries : List FileEntry)

/-- The sizes of a listing are numbers, as the agents send them. -/
def View.Measured : View → Prop
  | .files entries => ∀ e ∈ entries, ∃ n, e.size = .number n
  | _ => True

/-- Nothing where the page stops at a device or a mapping that is gone. -/
def written : View → Option Html
  | .shell tab => some (shell tab)
  | .live => some (live b)
  | .content tab => some (content b s tab)
  | .enroll => some enrollDialog
  | .device id => (device s id).map deviceDialog
  | .policy id => some (policyDialog s id)
  | .mapping => some (mappingDialog s)
  | .delete id => (s.state.mappings.find? fun m => m.id = id).map deleteDialog
  | .terminal id => some (terminalDialog s id)
  | .remote mode id => some (remoteDialog mode (deviceName s (some id)))
  | .files entries => some (fileTable b entries)

end WebPage
end NetConductor
