import Mathlib.Data.List.AList
import NetConductor.Text.Base64
import NetConductor.Text.Address

/-! The records the server keeps and the small helpers of the core package.
Times and durations are nanoseconds of one clock. -/
namespace NetConductor
open GoText GoNet

abbrev Time := Nat

def second : Time := 1000000000
def minute : Time := 60 * second
def hour : Time := 60 * minute

structure Check where
  name : String
  ok : Bool
  detail : String
deriving DecidableEq

structure Device where
  id : String
  name : String
  ip : String
  publicKey : String
  token : String
  os : String
  lastSeen : Time
  status : String
  latencyMs : Int
  rx : Int
  tx : Int
  handshake : Int
  proxyPort : Int
  proxyType : String
  proxyHealthy : Bool
  proxyError : String
  sshUser : String
  sshFingerprint : String
  sshPort : Int
  agentVersion : String
  diagnostics : List Check
deriving DecidableEq

/-- The zero value, from which composite literals set the fields they name. -/
def Device.zero : Device where
  id := ""
  name := ""
  ip := ""
  publicKey := ""
  token := ""
  os := ""
  lastSeen := 0
  status := ""
  latencyMs := 0
  rx := 0
  tx := 0
  handshake := 0
  proxyPort := 0
  proxyType := ""
  proxyHealthy := false
  proxyError := ""
  sshUser := ""
  sshFingerprint := ""
  sshPort := 0
  agentVersion := ""
  diagnostics := []

structure Policy where
  source : String
  exits : List String
  onFailure : String
  active : String
deriving DecidableEq

structure Mapping where
  id : String
  name : String
  protocol : String
  listenPort : Int
  device : String
  targetPort : Int
  domain : String
  enabled : Bool
  error : String
deriving DecidableEq

/-- One line of the audit log. -/
structure LogEvent where
  at_ : Time
  action : String
  detail : String
deriving DecidableEq

structure State where
  devices : List Device
  policies : List Policy
  mappings : List Mapping
  events : List LogEvent
deriving DecidableEq

structure ServerConfig where
  localProxyListen : String
  listen : String
  proxyListen : String
  publicEndpoint : String
  iface : String
  serverIP : String
  network : String
  adminToken : String
  sshKey : String
  healthURL : String
  mapBind : String
deriving DecidableEq

/-- The part of the agent's configuration that its proxy uses. -/
structure AgentConfig where
  id : String
  token : String
  hubProxy : String
deriving DecidableEq

/-- What `initServer` writes, for a given public address and password. -/
def initServerConfig (publicIP adminToken dir : String) : ServerConfig where
  localProxyListen := ""
  listen := "0.0.0.0:18443"
  proxyListen := "10.77.0.1:18090"
  publicEndpoint := publicIP ++ ":51820"
  iface := "wg0"
  serverIP := "10.77.0.1"
  network := "10.77.0.0/24"
  adminToken := adminToken
  sshKey := dir ++ "/ssh_ed25519"
  healthURL := "https://www.gstatic.com/generate_204"
  mapBind := "0.0.0.0"

/-! ### Helpers of the core package -/

/-- `core.Equal` compares SHA-256 digests, so two texts are equal when the
digests are; an empty first text equals nothing. -/
def equal (a b : String) : Bool := a ≠ "" && a = b

def port (p : Int) : Bool := 0 < p && p ≤ 65535

def safeName (s : String) : Bool :=
  s ≠ "" && s.utf8ByteSize ≤ 64 && s.toList.all fun c =>
    ('a' ≤ c && c ≤ 'z') || ('A' ≤ c && c ≤ 'Z') || ('0' ≤ c && c ≤ '9') || c = '-' || c = '_'

def fmtInt (n : Int) : String := toString n

def hostPort (ip : String) (port : Int) : String :=
  String.ofList (joinHostPort ip.toList (fmtInt port).toList)

/-- `net.ParseIP` on a string. -/
def parseIPString (s : String) : Option IP := parseIP s.toList

/-- `core.Token()[:12]`, the part of a token that names a device or a mapping. -/
def idOf (token : String) : String := String.ofList (token.toList.take 12)

/-- A value of `core.Token`: 32 random bytes in hexadecimal. -/
def IsToken (token : String) : Prop :=
  token.toList.length = 64 ∧ ∀ c ∈ token.toList, isDigit c = true ∨ ('a' ≤ c ∧ c ≤ 'f')

instance (token : String) : Decidable (IsToken token) :=
  @instDecidableAnd _ _ _ (List.decidableBAll _ token.toList)

theorem IsToken.id_length {token : String} (h : IsToken token) : (idOf token).toList.length = 12 := by
  simp [idOf, h.1]

theorem IsToken.id_ne_empty {token : String} (h : IsToken token) : idOf token ≠ "" := by
  intro hEmpty
  have hLength := h.id_length
  simp [hEmpty] at hLength

/-- A table of Go's `map[string]V`. -/
abbrev GoMap (V : Type) := AList fun _ : String => V

/-- What a map shows after an insertion. -/
theorem lookup_of_insert {V : Type} {m : GoMap V} {key key' : String} {v v' : V}
    (h : (m.insert key v).lookup key' = some v') :
    (key' = key ∧ v' = v) ∨ (key' ≠ key ∧ m.lookup key' = some v') := by
  by_cases hKey : key' = key
  · subst hKey
    rw [AList.lookup_insert] at h
    exact .inl ⟨rfl, (Option.some.inj h).symm⟩
  · rw [AList.lookup_insert_ne hKey] at h
    exact .inr ⟨hKey, h⟩

/-- What a map shows after a deletion. -/
theorem lookup_of_erase {V : Type} {m : GoMap V} {key key' : String} {v : V}
    (h : (m.erase key).lookup key' = some v) : key' ≠ key ∧ m.lookup key' = some v := by
  by_cases hKey : key' = key
  · subst hKey
    rw [AList.lookup_erase] at h
    cases h
  · rw [AList.lookup_erase_ne hKey] at h
    exact ⟨hKey, h⟩

/-- A `range` loop that deletes the entries that satisfy `p`. -/
def deleteIf {V : Type} (m : GoMap V) (p : V → Bool) : GoMap V :=
  ⟨m.entries.filter fun e => !p e.2, m.nodupKeys.sublist List.filter_sublist⟩

theorem lookup_deleteIf {V : Type} {m : GoMap V} {p : V → Bool} {key : String} {v : V} :
    (deleteIf m p).lookup key = some v ↔ m.lookup key = some v ∧ p v = false := by
  rw [← Option.mem_def, ← Option.mem_def, AList.mem_lookup_iff, AList.mem_lookup_iff, deleteIf,
    List.mem_filter]
  simp

end NetConductor
