import NetConductor.Semantics.Routine
import NetConductor.Text.Base64
import NetConductor.Core.Model

/-! What a session on the device does for a request. A session holds an SSH
client, an SFTP client and a terminal, opened when first needed, and its mode
says which of them a request may reach. -/
namespace NetConductor

/-- `desktop` says whether the function for desktop requests is there. -/
structure RemoteConfig where
  address : String
  user : String
  key : String
  fingerprint : String
  desktop : Bool
deriving DecidableEq

/-- A request, without what only the desktop's own function reads. -/
structure RemoteRequest where
  op : String
  path : String
  target : String
  data : String
  offset : Int
  cols : Int
  rows : Int

structure DirEntry where
  name : String
  directory : Bool
  size : Int
  modified : Time

inductive RemoteResult where
  | nil
  | ready
  | started
  | desktop (json : String)
  | directory (path : String) (entries : List DirEntry)
  | data (base64 : List Char) (eof : Bool)
  | written (n : Int)

/-- An error, with the result that is sent beside it. -/
structure Refusal where
  error : String
  result : RemoteResult

/-- What a session has others do: the operating system, the SSH server, the
SFTP server and the desktop. -/
inductive Act where
  | connect
  | readFile (path : String)
  | parsePrivateKey
  | dial (address : String)
  | newClientConn (user fingerprint : String)
  | desktop (op : String)
  | newSession
  | stdinPipe
  | requestPty (term : String) (rows cols : Int)
  | shell
  | writeStdin (b : List UInt8)
  | windowChange (rows cols : Int)
  | newSFTP
  | getwd
  | readDir (path : String)
  | openFile (path : String) (create : Bool)
  | close
  | readAt (n : Nat) (offset : Int)
  | writeAt (b : List UInt8) (offset : Int)
  | mkdir (path : String)
  | lstat (path : String)
  | rename (path target : String)
  | removeDirectory (path : String)
  | remove (path : String)
deriving DecidableEq

/-- A session's open ends, and all it had others do, in order. `crashed` says
that a nil pointer was followed. -/
structure Access where
  cfg : RemoteConfig
  mode : String
  client : Bool
  files : Bool
  terminal : Bool
  stdin : Bool
  acts : List Act
  crashed : Bool

/-- How a failing `ReadAt` ends: at the end of the file, or with an error. -/
inductive ReadError where
  | eof
  | other (e : String)

/-- How a failing `Lstat` ends. -/
inductive StatError where
  | notExist
  | other (e : String)

/-- The answers to one request from outside; `illegalBase64` is the text of the
decoder's error, `notExist` that of a missing file's. -/
structure Outside where
  readFile : Except String Unit
  parsePrivateKey : Except String Unit
  dial : Except String Unit
  newClientConn : Except String Unit
  desktop : Except Refusal RemoteResult
  newSession : Except String Unit
  stdinPipe : Except String Unit
  requestPty : Except String Unit
  shell : Except String Unit
  write : Except String Unit
  windowChange : Except String Unit
  newSFTP : Except String Unit
  getwd : Except String String
  readDir : Except String (List DirEntry)
  openFile : Except String Unit
  close : Except String Unit
  readAt : List UInt8 × Option ReadError
  writeAt : Int × Option String
  mkdir : Except String Unit
  lstat : Except StatError Bool
  rename : Except String Unit
  removeDirectory : Except String Unit
  remove : Except String Unit
  illegalBase64 : String
  notExist : String

abbrev Handling := Routine Access Refusal

namespace Access
open Routine

def refuse (error : String) : Refusal := ⟨error, .nil⟩

def new (cfg : RemoteConfig) (mode : String) : Access :=
  ⟨cfg, mode, false, false, false, false, [], false⟩

/-- An act is on record whatever its answer. -/
def perform {α : Type} (a : Act) (answer : Except String α) : Handling α := do
  modify fun s => { s with acts := s.acts ++ [a] }
  ofAnswer (answer.mapError refuse)

/-- Following a pointer. -/
def deref (present : Access → Bool) : Handling PUnit := do
  let s ← get
  if present s then pure ⟨⟩
  else do
    modify fun s => { s with crashed := true }
    throw (refuse "invalid memory address or nil pointer dereference")

def decodeString (out : Outside) (data : String) : Except String (List UInt8) :=
  match Base64.decodeString data.toList with
  | some b => .ok b
  | none => .error out.illegalBase64

def connect (out : Outside) : Handling PUnit := do
  modify fun s => { s with acts := s.acts ++ [.connect] }
  let s ← get
  if s.client then pure ⟨⟩
  else do
    perform (.readFile s.cfg.key) (out.readFile.mapError fun _ => "SSH key unavailable")
    perform .parsePrivateKey out.parsePrivateKey
    perform (.dial s.cfg.address) out.dial
    perform (.newClientConn s.cfg.user s.cfg.fingerprint) out.newClientConn
    modify fun s => { s with client := true }

/-! ### Requests of a file session -/

def openFiles (out : Outside) : Handling PUnit := do
  let s ← get
  if s.files then pure ⟨⟩
  else do
    deref client
    perform .newSFTP out.newSFTP
    modify fun s => { s with files := true }

def list (out : Outside) (path : String) : Handling RemoteResult := do
  let p ← if path = "" then perform .getwd out.getwd else pure path
  let entries ← perform (.readDir p) out.readDir
  if 10000 < entries.length then throw (refuse "directory has more than 10000 entries")
  else pure (.directory p entries)

/-- The opened file is closed afterwards, whatever that answers; the same in
`write`. -/
def read (out : Outside) (path : String) (offset : Int) : Handling RemoteResult := do
  perform (.openFile path false) out.openFile
  perform (.readAt 24000 offset) (.ok ())
  match out.readAt with
  | (b, none) => pure (.data (Base64.encode b) false)
  | (b, some .eof) => pure (.data (Base64.encode b) true)
  | (_, some (.other e)) => throw (refuse e)

def create (out : Outside) (path : String) : Handling RemoteResult := do
  perform (.openFile path true) out.openFile
  perform .close out.close
  pure .nil

def write (out : Outside) (path data : String) (offset : Int) : Handling RemoteResult := do
  match (decodeString out data).toOption.filter fun b => b.length ≤ 24000 with
  | none => throw (refuse "invalid upload chunk")
  | some b => do
      perform (.openFile path false) out.openFile
      perform (.writeAt b offset) (.ok ())
      match out.writeAt with
      | (n, none) => pure (.written n)
      | (n, some e) => throw ⟨e, .written n⟩

def rename (out : Outside) (path target : String) : Handling RemoteResult := do
  perform (.lstat target) (.ok ())
  match out.lstat with
  | .ok _ => throw (refuse "destination already exists")
  | .error (.other e) => throw (refuse e)
  | .error .notExist => do
      perform (.rename path target) out.rename
      pure .nil

def delete (out : Outside) (path : String) : Handling RemoteResult := do
  perform (.lstat path) (.ok ())
  match out.lstat with
  | .error .notExist => throw (refuse out.notExist)
  | .error (.other e) => throw (refuse e)
  | .ok true => do
      perform (.removeDirectory path) out.removeDirectory
      pure .nil
  | .ok false => do
      perform (.remove path) out.remove
      pure .nil

def fileOp (out : Outside) (r : RemoteRequest) : Handling RemoteResult :=
  match r.op with
  | "list" => list out r.path
  | "read" => read out r.path r.offset
  | "create" => create out r.path
  | "write" => write out r.path r.data r.offset
  | "mkdir" => do
      perform (.mkdir r.path) out.mkdir
      pure .nil
  | "rename" => rename out r.path r.target
  | "delete" => delete out r.path
  | _ => throw (refuse "unknown file operation")

def fileRequest (out : Outside) (r : RemoteRequest) : Handling RemoteResult :=
  if 4096 < r.path.utf8ByteSize ∨ 4096 < r.target.utf8ByteSize ∨ r.offset < 0 ∨
      1024 * 1024 * 1024 * 1024 < r.offset then throw (refuse "invalid file request")
  else do
    openFiles out
    deref files
    fileOp out r

/-! ### Requests of a terminal session -/

/-- Whatever fails after the session is there leaves it there. -/
def openTerminal (out : Outside) : Handling RemoteResult := do
  let s ← get
  if s.terminal then throw (refuse "terminal already open")
  else do
    deref client
    perform .newSession out.newSession
    modify fun s => { s with terminal := true, stdin := out.stdinPipe.isOk }
    perform .stdinPipe out.stdinPipe
    perform (.requestPty "xterm-256color" 30 110) out.requestPty
    perform .shell out.shell
    pure .started

def writeStdin (out : Outside) (data : String) : Handling RemoteResult := do
  let s ← get
  if s.stdin = false then throw (refuse "terminal not open")
  else do
    let b ← ofAnswer ((decodeString out data).mapError refuse)
    deref stdin
    perform (.writeStdin b) out.write
    pure .nil

def resize (out : Outside) (cols rows : Int) : Handling RemoteResult := do
  let s ← get
  if s.terminal = false ∨ cols < 10 ∨ 500 < cols ∨ rows < 5 ∨ 200 < rows then
    throw (refuse "invalid terminal size")
  else do
    deref terminal
    perform (.windowChange rows cols) out.windowChange
    pure .nil

def terminalRequest (out : Outside) (r : RemoteRequest) : Handling RemoteResult :=
  match r.op with
  | "terminal" => openTerminal out
  | "stdin" => writeStdin out r.data
  | "resize" => resize out r.cols r.rows
  | _ => throw (refuse "operation not allowed")

/-! ### All requests -/

def desktopRequest (out : Outside) (r : RemoteRequest) : Handling RemoteResult := do
  if r.op ≠ "frame" ∧ r.op ≠ "input" then throw (refuse "operation not allowed")
  else do
    deref fun s => s.cfg.desktop
    modify fun s => { s with acts := s.acts ++ [.desktop r.op] }
    ofAnswer out.desktop

def handle (out : Outside) (r : RemoteRequest) : Handling RemoteResult := do
  let s ← get
  if r.op = "ping" then pure .ready
  else if s.mode = "desktop" then desktopRequest out r
  else do
    connect out
    if s.mode = "files" then fileRequest out r
    else terminalRequest out r

/-- The session after a request. -/
def after (s : Access) (t : Outside × RemoteRequest) : Access :=
  ((handle t.1 t.2).outcome s).2

end Access

/-! ### What a mode leaves within reach -/

inductive ActKind where
  | connecting
  | terminal
  | files
  | desktop
deriving DecidableEq

def Act.kind : Act → ActKind
  | .desktop _ => .desktop
  | .connect | .readFile _ | .parsePrivateKey | .dial _ | .newClientConn _ _ => .connecting
  | .newSession | .stdinPipe | .requestPty _ _ _ | .shell | .writeStdin _ | .windowChange _ _ =>
      .terminal
  | .newSFTP | .getwd | .readDir _ | .openFile _ _ | .close | .readAt _ _ | .writeAt _ _ | .mkdir _
  | .lstat _ | .rename _ _ | .removeDirectory _ | .remove _ => .files

/-- The kinds of act a mode is for; both modes with an SSH client connect. -/
def ActKind.allowed (mode : String) : ActKind → Bool
  | .connecting => mode ≠ "desktop"
  | .terminal => mode = "ssh"
  | .files => mode = "files"
  | .desktop => mode = "desktop"

theorem ActKind.allowed_connecting {mode : String} (hMode : mode ≠ "desktop") :
    connecting.allowed mode = true := decide_eq_true hMode

theorem ActKind.allowed_terminal {mode : String} (hMode : mode = "ssh") :
    terminal.allowed mode = true := decide_eq_true hMode

theorem ActKind.allowed_files {mode : String} (hMode : mode = "files") :
    files.allowed mode = true := decide_eq_true hMode

theorem ActKind.allowed_desktop {mode : String} (hMode : mode = "desktop") :
    ActKind.desktop.allowed mode = true := decide_eq_true hMode

/-- A session of a mode that has done and opened only what the mode is for, and
followed no nil pointer. -/
structure Confined (mode : String) (s : Access) : Prop where
  same : s.mode = mode
  known : mode = "ssh" ∨ mode = "files" ∨ mode = "desktop"
  desktop : mode = "desktop" → s.cfg.desktop = true
  acts : ∀ a ∈ s.acts, a.kind.allowed mode = true
  client : s.client = true → mode ≠ "desktop"
  files : s.files = true → mode = "files"
  terminal : s.terminal = true → mode = "ssh"
  stdin : s.stdin = true → mode = "ssh"
  crashed : s.crashed = false

/-- An act that the mode allows keeps the session confined. -/
theorem Confined.act {mode : String} {s : Access} (h : Confined mode s) {a : Act} (hAllowed : a.kind.allowed mode = true) :
    Confined mode { s with acts := s.acts ++ [a] } := by
  refine { h with acts := fun b hb => ?_ }
  rcases List.mem_append.mp hb with hOld | hNew
  · exact h.acts b hOld
  · rw [List.mem_singleton.mp hNew]
    exact hAllowed

namespace Access
open Routine

variable {mode : String}

/-- A new session has done nothing yet. -/
theorem confined_new {cfg : RemoteConfig} (h : mode = "ssh" ∨ mode = "files" ∨ mode = "desktop")
    (hDesktop : mode = "desktop" → cfg.desktop = true) : Confined mode (new cfg mode) where
  same := rfl
  known := h
  desktop := hDesktop
  acts := by simp [new]
  client := by simp [new]
  files := by simp [new]
  terminal := by simp [new]
  stdin := by simp [new]
  crashed := rfl

/-- Confined, and the given end is open. -/
def Open (mode : String) (present : Access → Bool) (s : Access) : Prop :=
  Confined mode s ∧ present s = true

/-- The rule for every call that leaves the session: its act has to be one of
the mode's. -/
theorem perform_meets {α : Type} {P : Access → Prop} {a : Act} {answer : Except String α}
    (hConfined : ∀ s, P s → Confined mode s)
    (hP : ∀ s, P s → P { s with acts := s.acts ++ [a] }) :
    Meets P (perform a answer) (fun _ => P) (Confined mode) :=
  Meets.bind (Meets.modify (Q := fun _ => P) hP) fun _ =>
    Meets.ofAnswer (fun _ _ hs => hs) hConfined

/-- The rule while nothing needs to be open. -/
theorem perform_confined {α : Type} {a : Act} {answer : Except String α}
    (hAllowed : a.kind.allowed mode = true) :
    Meets (Confined mode) (perform a answer) (fun _ => Confined mode) (Confined mode) :=
  perform_meets (fun _ hs => hs) fun _ hs => hs.act hAllowed

/-- The rule while the SSH client is there. -/
theorem perform_client {α : Type} {a : Act} {answer : Except String α}
    (hAllowed : a.kind.allowed mode = true) :
    Meets (Open mode client) (perform a answer) (fun _ => Open mode client) (Confined mode) :=
  perform_meets (fun _ hs => hs.1) fun _ hs => ⟨hs.1.act hAllowed, hs.2⟩

/-- A pointer that is there is followed. -/
theorem deref_meets {present : Access → Bool} :
    Meets (Open mode present) (deref present) (fun _ => Open mode present) (Confined mode) := by
  refine Meets.get_bind fun s => Meets.ite (fun _ => Meets.pure fun t ht => ht.1) fun hAbsent => ?_
  intro t ht
  obtain ⟨⟨-, hPresent⟩, rfl⟩ := ht
  exact absurd hPresent hAbsent

/-- An SSH connection is made for the two modes that have one. -/
theorem connect_meets (out : Outside) (hMode : mode ≠ "desktop") :
    Meets (Confined mode) (connect out) (fun _ => Open mode client) (Confined mode) := by
  have hConnecting := ActKind.allowed_connecting hMode
  refine Meets.bind (Q := fun _ => Confined mode)
    (Meets.modify fun s hs => hs.act hConnecting) fun _ => ?_
  refine Meets.get_bind fun s => Meets.ite (fun hOpen => Meets.pure ?_) fun _ => ?_
  · rintro t ⟨hConfined, rfl⟩
    exact ⟨hConfined, hOpen⟩
  refine Meets.weaken (P := Confined mode) ?_ fun t ht => ht.1
  refine Meets.bind (perform_confined hConnecting) fun _ => ?_
  refine Meets.bind (perform_confined hConnecting) fun _ => ?_
  refine Meets.bind (perform_confined hConnecting) fun _ => ?_
  refine Meets.bind (perform_confined hConnecting) fun _ => ?_
  exact Meets.modify fun t ht => ⟨{ ht with client := fun _ => hMode }, rfl⟩

/-! ### Each request keeps to its mode -/

/-- Files are opened in the mode of files only. -/
theorem openFiles_meets (out : Outside) (hMode : mode = "files") :
    Meets (Open mode client) (openFiles out) (fun _ => Open mode files) (Confined mode) := by
  refine Meets.get_bind fun s => Meets.ite (fun hOpen => Meets.pure ?_) fun _ => ?_
  · rintro t ⟨⟨hConfined, -⟩, rfl⟩
    exact ⟨hConfined, hOpen⟩
  refine Meets.weaken (P := Open mode client) ?_ fun t ht => ht.1
  refine Meets.bind deref_meets fun _ => ?_
  refine Meets.bind (perform_client (ActKind.allowed_files hMode)) fun _ => ?_
  exact Meets.modify fun t ht => ⟨{ ht.1 with files := fun _ => hMode }, rfl⟩

/-- A routine made of the file acts alone. -/
theorem perform_bind {α β : Type} {a : Act} {answer : Except String α} {f : α → Handling β}
    (hAllowed : a.kind.allowed mode = true) (hf : ∀ v, Keeps (Confined mode) (f v)) :
    Keeps (Confined mode) (perform a answer >>= f) :=
  Meets.bind (perform_confined hAllowed) hf

theorem keeps_pure {α : Type} (v : α) : Keeps (Confined mode) (pure v : Handling α) :=
  Meets.pure fun _ hs => hs

theorem keeps_throw {α : Type} (e : Refusal) : Keeps (Confined mode) (throw e : Handling α) :=
  Meets.throw fun _ hs => hs

/-- Every file operation keeps to the file acts. -/
theorem fileOp_keeps (out : Outside) (r : RemoteRequest) (hMode : mode = "files") :
    Keeps (Confined mode) (fileOp out r) := by
  have hFile := ActKind.allowed_files hMode
  unfold fileOp
  split
  · unfold list
    split
    · refine perform_bind hFile fun p => perform_bind hFile fun entries => ?_
      exact Meets.ite (fun _ => keeps_throw _) fun _ => keeps_pure _
    · refine perform_bind hFile fun entries => ?_
      exact Meets.ite (fun _ => keeps_throw _) fun _ => keeps_pure _
  · refine perform_bind hFile fun _ => ?_
    refine perform_bind hFile fun _ => ?_
    split
    · exact keeps_pure _
    · exact keeps_pure _
    · exact keeps_throw _
  · refine perform_bind hFile fun _ => ?_
    exact perform_bind hFile fun _ => keeps_pure _
  · unfold write
    split
    · exact keeps_throw _
    · refine perform_bind hFile fun _ => ?_
      refine perform_bind hFile fun _ => ?_
      split
      · exact keeps_pure _
      · exact keeps_throw _
  · exact perform_bind hFile fun _ => keeps_pure _
  · refine perform_bind hFile fun _ => ?_
    split
    · exact keeps_throw _
    · exact keeps_throw _
    · exact perform_bind hFile fun _ => keeps_pure _
  · refine perform_bind hFile fun _ => ?_
    split
    · exact keeps_throw _
    · exact keeps_throw _
    · exact perform_bind hFile fun _ => keeps_pure _
    · exact perform_bind hFile fun _ => keeps_pure _
  · exact keeps_throw _

/-- A request on files stays inside its mode. -/
theorem fileRequest_meets (out : Outside) (r : RemoteRequest) (hMode : mode = "files") :
    Meets (Open mode client) (fileRequest out r) (fun _ => Confined mode) (Confined mode) := by
  refine Meets.ite (fun _ => Meets.throw fun s hs => hs.1) fun _ => ?_
  refine Meets.bind (openFiles_meets out hMode) fun _ => ?_
  refine Meets.bind deref_meets fun _ => ?_
  exact (fileOp_keeps out r hMode).weaken fun s hs => hs.1

/-- Opening the terminal keeps to the terminal acts; what it has opened stays when it
fails. -/
theorem openTerminal_meets (out : Outside) (hMode : mode = "ssh") :
    Meets (Open mode client) (openTerminal out) (fun _ => Confined mode) (Confined mode) := by
  have hTerminal := ActKind.allowed_terminal hMode
  refine Meets.get_bind fun s => Meets.ite (fun _ => Meets.throw fun t ht => ht.1.1) fun _ => ?_
  refine Meets.weaken (P := Open mode client) ?_ fun t ht => ht.1
  refine Meets.bind deref_meets fun _ => ?_
  refine Meets.bind (perform_client hTerminal) fun _ => ?_
  refine Meets.bind (Q := fun _ => Confined mode) (Meets.modify fun t ht => ?_) fun _ => ?_
  · exact { ht.1 with terminal := fun _ => hMode, stdin := fun _ => hMode }
  refine perform_bind hTerminal fun _ => ?_
  refine perform_bind hTerminal fun _ => ?_
  exact perform_bind hTerminal fun _ => keeps_pure _

/-- Input goes to an open terminal only. -/
theorem writeStdin_keeps (out : Outside) (data : String) (hMode : mode = "ssh") :
    Keeps (Confined mode) (writeStdin out data) := by
  refine Meets.get_bind fun s => Meets.ite (fun _ => Meets.throw fun t ht => ht.1) fun hOpen => ?_
  refine Meets.weaken (P := Open mode stdin) ?_ ?_
  · refine Meets.bind (Q := fun _ => Open mode stdin)
      (Meets.ofAnswer (fun _ _ ht => ht) fun t ht => ht.1) fun b => ?_
    refine Meets.bind deref_meets fun _ => Meets.weaken (P := Confined mode) ?_ fun t ht => ht.1
    exact perform_bind (ActKind.allowed_terminal hMode) fun _ => keeps_pure _
  · rintro t ⟨hConfined, rfl⟩
    exact ⟨hConfined, by simpa using hOpen⟩

/-- A new size goes to an open terminal only. -/
theorem resize_keeps (out : Outside) (cols rows : Int) (hMode : mode = "ssh") :
    Keeps (Confined mode) (resize out cols rows) := by
  refine Meets.get_bind fun s => Meets.ite (fun _ => Meets.throw fun t ht => ht.1) fun hOpen => ?_
  refine Meets.weaken (P := Open mode terminal) ?_ ?_
  · refine Meets.bind deref_meets fun _ => Meets.weaken (P := Confined mode) ?_ fun t ht => ht.1
    exact perform_bind (ActKind.allowed_terminal hMode) fun _ => keeps_pure _
  · rintro t ⟨hConfined, rfl⟩
    refine ⟨hConfined, ?_⟩
    by_contra hClosed
    exact hOpen (.inl (by simpa using hClosed))

/-- A request of the terminal keeps to the terminal acts. -/
theorem terminalRequest_meets (out : Outside) (r : RemoteRequest) (hMode : mode = "ssh") :
    Meets (Open mode client) (terminalRequest out r) (fun _ => Confined mode) (Confined mode) := by
  unfold terminalRequest
  split
  · exact openTerminal_meets out hMode
  · exact (writeStdin_keeps out r.data hMode).weaken fun s hs => hs.1
  · exact (resize_keeps out r.cols r.rows hMode).weaken fun s hs => hs.1
  · exact (keeps_throw _).weaken fun s hs => hs.1

/-- A request of the desktop keeps to the desktop acts. -/
theorem desktopRequest_keeps (out : Outside) (r : RemoteRequest) (hMode : mode = "desktop") :
    Keeps (Confined mode) (desktopRequest out r) := by
  refine Meets.ite (fun _ => keeps_throw _) fun _ => ?_
  refine Meets.weaken (P := Open mode fun s => s.cfg.desktop) ?_ fun s hs => ⟨hs, hs.desktop hMode⟩
  refine Meets.bind deref_meets fun _ => Meets.weaken (P := Confined mode) ?_ fun s hs => hs.1
  refine Meets.bind (Q := fun _ => Confined mode)
    (Meets.modify fun s hs => hs.act (ActKind.allowed_desktop hMode)) fun _ => ?_
  exact Meets.ofAnswer (fun _ _ hs => hs) fun _ hs => hs

/-- Whatever the request, a session keeps to its mode. -/
theorem handle_keeps (out : Outside) (r : RemoteRequest) : Keeps (Confined mode) (handle out r) := by
  refine Meets.get_bind fun s => Meets.ite (fun _ => Meets.pure fun t ht => ht.1) fun _ => ?_
  refine Meets.ite (fun hDesktop => ?_) fun hOther => ?_
  · rintro t ⟨ht, rfl⟩
    exact desktopRequest_keeps out r (ht.same.symm.trans hDesktop) t ht
  · rintro t ⟨ht, rfl⟩
    have hMode : mode ≠ "desktop" := ht.same ▸ hOther
    refine Meets.bind (connect_meets out hMode) (fun _ => ?_) t ht
    refine Meets.ite (fun hFiles => fileRequest_meets out r (ht.same.symm.trans hFiles)) fun hTerm => ?_
    refine terminalRequest_meets out r ?_
    rcases ht.known with hMode' | hMode' | hMode'
    · exact hMode'
    · exact absurd (ht.same.trans hMode') hTerm
    · exact absurd hMode' hMode

/-- After any request a session is within its mode. -/
theorem confined_after {s : Access} (h : Confined mode s) (t : Outside × RemoteRequest) :
    Confined mode (s.after t) := (handle_keeps t.1 t.2).outcome h

end Access

/-- What each mode rules out. -/
structure WithinMode (s : Access) : Prop where
  desktop : s.mode = "desktop" → Act.connect ∉ s.acts ∧ s.client = false ∧ s.files = false ∧
    s.terminal = false
  files : s.mode = "files" → s.terminal = false ∧ ∀ a ∈ s.acts, a.kind ≠ .terminal
  ssh : s.mode = "ssh" → s.files = false ∧ ∀ a ∈ s.acts, a.kind ≠ .files
  crashed : s.crashed = false

/-- What a confined session has not done, by its mode. -/
theorem Confined.within {mode : String} {s : Access} (h : Confined mode s) : WithinMode s where
  desktop hMode := by
    obtain rfl := h.same.symm.trans hMode
    refine ⟨fun hConnect => ?_, ?_, ?_, ?_⟩
    · exact absurd (h.acts _ hConnect) (by decide)
    · exact Bool.eq_false_iff.mpr fun hOpen => h.client hOpen rfl
    · exact Bool.eq_false_iff.mpr fun hOpen => absurd (h.files hOpen) (by decide)
    · exact Bool.eq_false_iff.mpr fun hOpen => absurd (h.terminal hOpen) (by decide)
  files hMode := by
    obtain rfl := h.same.symm.trans hMode
    refine ⟨Bool.eq_false_iff.mpr fun hOpen => absurd (h.terminal hOpen) (by decide), fun a ha hKind => ?_⟩
    have hAllowed := h.acts a ha
    rw [hKind] at hAllowed
    exact absurd hAllowed (by decide)
  ssh hMode := by
    obtain rfl := h.same.symm.trans hMode
    refine ⟨Bool.eq_false_iff.mpr fun hOpen => absurd (h.files hOpen) (by decide), fun a ha hKind => ?_⟩
    have hAllowed := h.acts a ha
    rw [hKind] at hAllowed
    exact absurd hAllowed (by decide)
  crashed := h.crashed

end NetConductor
