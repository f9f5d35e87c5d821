import NetConductor.Core.Socks

/-! Tunnels pass every byte from the first one on: whatever of a stream is read
ahead while a header is read stays in the reader that the bridge copies from. -/
namespace NetConductor
open GoText GoNet Deadline Sources Source Transition

/-- What `net/http` or the SOCKS5 client reads off a connection. It leaves the
bytes that it has not read, however they come in. -/
structure Reads (ρ β : Type) [Source ρ UInt8] where
  parse : List UInt8 → Option (β × List UInt8)
  read : ρ → Option (β × ρ)
  leaves : ∀ {c c' : ρ} {b : β}, read c = some (b, c') → parse (rest c) = some (b, rest c')

/-- The bytes that follow. -/
def Reads.following {ρ β : Type} [Source ρ UInt8] (p : Reads ρ β) (bytes : List UInt8) :
    Option (List UInt8) := (p.parse bytes).map Prod.snd

section Via

variable {σ : Type} [Source σ UInt8]

/-- A connection that was dialed: as it is, or behind a reader. -/
abbrev Dialed (σ : Type) := σ ⊕ Reader σ

variable (socks : Reads σ Unit) (response : Reads (Reader σ) Nat)

/-- What `DialVia` returns when the connection to the proxy stands and the request
is written. -/
def openVia (scheme : String) (c : σ) : Option (Dialed σ) :=
  if scheme = "socks5" then (socks.read c).map fun answer => .inl answer.2
  else if scheme ≠ "http" then none
  else match response.read (.new c) with
    | none => none
    | some (status, br) => if status = 200 then some (.inr br) else none

/-- The bytes that follow the answer of the proxy. -/
def followingAnswer (scheme : String) (bytes : List UInt8) : Option (List UInt8) :=
  if scheme = "socks5" then socks.following bytes else response.following bytes

/-- After the handshake with a proxy the connection has just the bytes behind the
answer. -/
theorem openVia_leaves {scheme : String} {c : σ} {dest : Dialed σ}
    (h : openVia socks response scheme c = some dest) :
    followingAnswer socks response scheme (rest c) = some (rest dest) := by
  unfold openVia at h
  unfold followingAnswer
  split_ifs at h ⊢ with hSocks hHTTP
  · obtain ⟨⟨⟨⟩, left⟩, hRead, rfl⟩ := Option.map_eq_some_iff.mp h
    rw [Reads.following, socks.leaves hRead]
    rfl
  · split at h
    next => cases h
    next status br hRead =>
      split_ifs at h
      cases h
      have hLeaves := response.leaves hRead
      rw [Buffered.rest_new] at hLeaves
      rw [Reads.following, hLeaves]
      rfl

/-- A proxy on the way out: how the connection to it comes about, what it sends,
and how long its answer takes. -/
structure UpstreamProxy (σ : Type) where
  connect : Timed String Unit
  sends : σ
  elapsed : Nat

/-- The proxy as a dial meets it. -/
def UpstreamProxy.far (scheme : String) (p : UpstreamProxy σ) : Far (Dialed σ) where
  conn := (openVia socks response scheme p.sends).getD (.inl p.sends)
  connect := p.connect
  answer _ :=
    ⟨match response.read (.new p.sends) with
      | none => .error "malformed HTTP response"
      | some (status, _) => .ok status, p.elapsed⟩
  socks _ _ :=
    ⟨match socks.read p.sends with
      | none => .error "socks connect"
      | some _ => .ok (), p.elapsed⟩

variable {lib : Stdlib (Dialed σ)} {net : Network (Dialed σ)} {upstream address : String} {u : URL}
  {p : UpstreamProxy σ}

/-- A connection that `DialVia` returns is the one left by the answer of the proxy. -/
theorem dialVia_opens {left : Left} {dest : Dialed σ} (hURL : lib.parseURL upstream = .ok u)
    (hNet : net u.host = p.far socks response u.scheme)
    (hDial : (dialVia lib net upstream address left).result = .ok dest) :
    openVia socks response u.scheme p.sends = some dest := by
  unfold dialVia at hDial
  rw [hURL] at hDial
  dsimp only at hDial
  split_ifs at hDial with hSocks hHTTP
  · obtain ⟨⟨⟩, hOk, rfl⟩ := map_result hDial
    obtain ⟨-, left', -, hSocksOk⟩ := andThen_result hOk
    have hAnswer := wait_ok hSocksOk
    rw [hNet] at hAnswer ⊢
    simp only [UpstreamProxy.far] at hAnswer ⊢
    split at hAnswer
    next => cases hAnswer
    next answer hRead => simp [openVia, hSocks, hRead]
  · simp only [fail] at hDial
    cases hDial
  · obtain ⟨c, left', hDirect, hTunnel⟩ := andThen_result hDial
    obtain ⟨-, -, rfl⟩ := map_result hDirect
    obtain ⟨⟨⟩, hOk, rfl⟩ := map_result hTunnel
    obtain ⟨status, left'', hAnswered, hAccepted⟩ := andThen_result hOk
    have hAnswer := wait_ok hAnswered
    have hStatus : status = 200 := by
      unfold accepted at hAccepted
      split_ifs at hAccepted with hStatus
      · exact hStatus
      · cases hAccepted
    rw [hNet] at hAnswer ⊢
    simp only [UpstreamProxy.far] at hAnswer ⊢
    split at hAnswer
    next => cases hAnswer
    next status' br hRead =>
      obtain rfl := Except.ok.inj hAnswer
      simp [openVia, hSocks, hHTTP, hRead, hStatus]

end Via

/-! ### The entries -/

section Entries

variable {Trace Conn : Type}

/-- `ProxyHandler` on a connection whose request is CONNECT: the two ends of the
bridge. -/
def connectFrom {γ : Type} [Source γ UInt8] (lib : Stdlib Conn) (request : Reads (Reader γ) ProxyRequest)
    (authorize : ProxyRequest → Except String (DialFunc Trace Conn)) (c : γ) :
    Option (Reader γ × Conn) :=
  match request.read (.new c) with
  | none => none
  | some (r, rw) =>
      match (proxyHandler lib authorize r).reply with
      | .tunnel dest => some (rw, dest)
      | _ => none

/-- The bridge delivers, in order, a beginning of the bytes on either way, and all
of them when that copy has come to its end. -/
def Transparent {ρ τ : Type} [Source ρ UInt8] [Source τ UInt8] (client : ρ) (dest : τ)
    (toDest toClient : List UInt8) : Prop :=
  ∀ w, Reachable (Bridge.system client dest) w →
    (w.toB.delivered <+: toDest ∧ (w.toB.status = .ended → w.toB.delivered = toDest)) ∧
    (w.toA.delivered <+: toClient ∧ (w.toA.status = .ended → w.toA.delivered = toClient))

/-- The bridge is transparent to what the two ends have left to read. -/
theorem bridge_transparent {ρ τ : Type} [Source ρ UInt8] [Source τ UInt8] (client : ρ) (dest : τ) :
    Transparent client dest (rest client) (rest dest) := by
  intro w hw
  have h := Bridge.conserves hw
  exact ⟨⟨h.toB.begins, fun hEnded => h.toB.drained_iff.mp (h.toB.ended hEnded)⟩,
    ⟨h.toA.begins, fun hEnded => h.toA.drained_iff.mp (h.toA.ended hEnded)⟩⟩

/-- After the request the client's reader has just the bytes behind it, those in its
buffer first. -/
theorem connectFrom_leaves {γ : Type} [Source γ UInt8] {lib : Stdlib Conn}
    {request : Reads (Reader γ) ProxyRequest}
    {authorize : ProxyRequest → Except String (DialFunc Trace Conn)} {c : γ} {rw : Reader γ}
    {dest : Conn} (h : connectFrom lib request authorize c = some (rw, dest)) :
    request.following (rest c) = some (rest rw) := by
  unfold connectFrom at h
  split at h
  next => cases h
  next r left hRead =>
    split at h
    next =>
      cases h
      have hLeaves := request.leaves hRead
      rw [Buffered.rest_new] at hLeaves
      rw [Reads.following, hLeaves]
      rfl
    next => cases h

variable {σ : Type} [Source σ UInt8]

/-- After the SOCKS5 handshake the client has just the bytes behind its request. -/
theorem serveSOCKS_leaves {dial : DialFunc Trace Conn} {greeted : Bool} {c client : σ} {dest : Conn}
    (h : (serveSOCKSFrom dial greeted c).bridge = some (client, dest)) :
    ∃ address, SOCKSStream (rest c) (.dial address (rest client)) := by
  simp only [socksStream_iff, streamOutcome, requestOutcome]
  unfold serveSOCKSFrom at h
  rw [← flat_greeting c]
  cases hGreeting : socksGreetingFrom c with
  | error w => simp [hGreeting] at h
  | ok greeting =>
      obtain ⟨⟨⟩, c⟩ := greeting
      simp only [hGreeting] at h
      split_ifs at h
      dsimp only [flat_ok]
      rw [← flat_request c]
      cases hRequest : socksRequestFrom c with
      | error w => simp [hRequest] at h
      | ok request =>
          obtain ⟨address, c⟩ := request
          simp only [hRequest] at h
          split at h
          · cases h
          · cases h
            exact ⟨address, rfl⟩

/-- The reader that `serveLocalProxy` hands on has all bytes to be read. -/
theorem acceptLocal_leaves {dial : DialFunc Trace Conn} {greeted : Bool} {c : σ} :
    (∀ r, acceptLocal dial greeted c = .http r → rest r = rest c) ∧
    ∀ run, acceptLocal dial greeted c = .socks run →
      ∃ r : Reader σ, rest r = rest c ∧ run = serveSOCKSFrom dial greeted r := by
  have hRest : rest (Buffered.peek (.new c : Reader σ)).2 = rest c := by
    rw [Buffered.rest_peek, Buffered.rest_new]
  unfold acceptLocal
  split
  next => exact ⟨fun _ h => (nomatch h), fun _ h => (nomatch h)⟩
  next first r hPeek =>
    rw [hPeek] at hRest
    split_ifs
    · refine ⟨fun _ h => (nomatch h), fun run h => ?_⟩
      cases h
      exact ⟨r, hRest, rfl⟩
    · refine ⟨fun r' h => ?_, fun _ h => (nomatch h)⟩
      cases h
      exact hRest

end Entries

/-- For every way in which the bytes of the client and those of the proxy are cut,
at every entry: the bridge delivers what follows the request on one way and what
follows the answer of the proxy on the other. -/
theorem tunnels_transparent (Trace : Type) {σ : Type} [Source σ UInt8] (socks : Reads σ Unit)
    (response : Reads (Reader σ) Nat) (lib : Stdlib (Dialed σ)) (net : Network (Dialed σ))
    (upstream address : String) {u : URL} (p : UpstreamProxy σ) (left : Left) {dest : Dialed σ}
    (hURL : lib.parseURL upstream = .ok u) (hNet : net u.host = p.far socks response u.scheme)
    (hDial : (dialVia lib net upstream address left).result = .ok dest) :
    ∃ toClient, followingAnswer socks response u.scheme (rest p.sends) = some toClient ∧
      (∀ (γ : Type) [Source γ UInt8] (request : Reads (Reader γ) ProxyRequest)
        (authorize : ProxyRequest → Except String (DialFunc Trace (Dialed σ))) (c : γ) (rw : Reader γ),
        connectFrom lib request authorize c = some (rw, dest) →
        ∃ toDest, request.following (rest c) = some toDest ∧ Transparent rw dest toDest toClient) ∧
      ∀ (γ : Type) [Source γ UInt8] (dial : DialFunc Trace (Dialed σ)) (greeted : Bool) (c : γ),
        (∀ (request : Reads (Reader (Reader γ)) ProxyRequest)
          (authorize : ProxyRequest → Except String (DialFunc Trace (Dialed σ))) (r : Reader γ)
          (rw : Reader (Reader γ)), acceptLocal dial greeted c = .http r →
          connectFrom lib request authorize r = some (rw, dest) →
          ∃ toDest, request.following (rest c) = some toDest ∧ Transparent rw dest toDest toClient) ∧
        ∀ (run : SOCKSConnection Trace (Dialed σ) (Reader γ)) (client : Reader γ),
          acceptLocal dial greeted c = .socks run → run.bridge = some (client, dest) →
          ∃ request toDest, SOCKSStream (rest c) (.dial request toDest) ∧
            Transparent client dest toDest toClient := by
  refine ⟨rest dest, openVia_leaves socks response (dialVia_opens socks response hURL hNet hDial),
    fun γ _ request authorize c rw hConnect => ?_, fun γ _ dial greeted c => ⟨?_, ?_⟩⟩
  · exact ⟨rest rw, connectFrom_leaves hConnect, bridge_transparent rw dest⟩
  · intro request authorize r rw hAccept hConnect
    have hRest := acceptLocal_leaves.1 r hAccept
    rw [← hRest]
    exact ⟨rest rw, connectFrom_leaves hConnect, bridge_transparent rw dest⟩
  · intro run client hAccept hBridge
    obtain ⟨r, hRest, rfl⟩ := acceptLocal_leaves.2 run hAccept
    obtain ⟨request, hStream⟩ := serveSOCKS_leaves hBridge
    rw [hRest] at hStream
    exact ⟨request, rest client, hStream, bridge_transparent client dest⟩

/-! ### A tunnel through an HTTP proxy -/

section Sample

variable {ρ : Type} [Source ρ UInt8]

/-- Read byte by byte until the bytes taken are a whole. -/
def readUntil (whole : List UInt8 → Bool) : Nat → List UInt8 → ρ → Option (List UInt8 × ρ)
  | 0, _, _ => none
  | fuel + 1, taken, c =>
      match read 1 c with
      | ([b], c) => if whole (taken ++ [b]) then some (taken ++ [b], c) else readUntil whole fuel (taken ++ [b]) c
      | _ => none

theorem read_one {c c' : ρ} {b : UInt8} (h : read 1 c = ([b], c')) : rest c = b :: rest c' := by
  rw [← read_append 1 c, h]
  rfl

/-- A connection that has more gives one byte. -/
theorem exists_read_one {c : ρ} {b : UInt8} {more : List UInt8} (h : rest c = b :: more) :
    ∃ c', read 1 c = ([b], c') ∧ rest c' = more := by
  have hAppend := read_append 1 c
  have hLength := read_length 1 c
  have hSome := read_nonempty 1 c Nat.one_pos (by rw [h]; simp)
  match hRead : read 1 c with
  | ([], c') => exact absurd (by rw [hRead]) hSome
  | ([d], c') =>
      rw [hRead, h] at hAppend
      obtain ⟨rfl, hMore⟩ := List.cons.inj hAppend
      exact ⟨c', rfl, hMore⟩
  | (_ :: _ :: _, c') => simp [hRead] at hLength

/-- Reading up to a mark depends only on the bytes that are left. -/
theorem readUntil_congr {τ : Type} [Source τ UInt8] {whole : List UInt8 → Bool} {fuel : Nat}
    {taken head : List UInt8} {c c' : ρ} {d : τ} (hSame : rest c = rest d)
    (h : readUntil whole fuel taken c = some (head, c')) :
    ∃ d', readUntil whole fuel taken d = some (head, d') ∧ rest d' = rest c' := by
  induction fuel generalizing taken c d with
  | zero => cases h
  | succ fuel ih =>
      rw [readUntil] at h
      split at h
      next b next' hRead =>
        obtain ⟨d', hRead', hRest⟩ := exists_read_one (hSame.symm.trans (read_one hRead))
        rw [readUntil, hRead']
        dsimp only
        split_ifs at h ⊢ with hWhole
        · cases h
          exact ⟨d', rfl, hRest⟩
        · exact ih hRest.symm h
      next => cases h

/-- A header of up to 8192 bytes, taken as the function says. -/
def readsHeader {β : Type} (whole : List UInt8 → Bool) (f : List UInt8 → β) : Reads ρ β where
  read c := (readUntil whole 8192 [] c).map fun r => (f r.1, r.2)
  parse bytes :=
    (readUntil whole 8192 [] (⟨[bytes]⟩ : Segments UInt8)).map fun r => (f r.1, rest r.2)
  leaves {c c' b} h := by
    obtain ⟨⟨head, left⟩, hRead, hPair⟩ := Option.map_eq_some_iff.mp h
    obtain ⟨rfl, rfl⟩ := Prod.mk.inj hPair
    obtain ⟨d, hRead', hRest⟩ :=
      readUntil_congr (d := (⟨[rest c]⟩ : Segments UInt8)) (by simp) hRead
    rw [hRead', Option.map_some, hRest]

end Sample

/-- An HTTP header ends with an empty line. -/
def emptyLine (bytes : List UInt8) : Bool := [13, 10, 13, 10].isSuffixOf bytes

/-- The word between the first two blanks. -/
def secondWord (bytes : List UInt8) : Chars := byteText (((bytes.splitOn 32)[1]?).getD [])

def headerBytes (text : String) : List UInt8 :=
  text.toList.map (fun c => UInt8.ofNat c.toNat) ++ [13, 10, 13, 10]

/-- A request to connect, cut in the middle, and the first bytes sent with it. -/
def sampleClient : Segments UInt8 :=
  ⟨[(headerBytes "CONNECT example.com:443 HTTP/1.1").take 9,
    (headerBytes "CONNECT example.com:443 HTTP/1.1").drop 9 ++ [22, 3], [1]]⟩

/-- A proxy whose answer comes together with bytes of the tunnel. -/
def sampleProxy : UpstreamProxy (Segments UInt8) :=
  ⟨⟨.ok (), 0⟩, ⟨[headerBytes "HTTP/1.1 200 OK" ++ [2], [4, 5]]⟩, 0⟩

def sampleRequest : Reads (Reader (Segments UInt8)) ProxyRequest :=
  readsHeader emptyLine fun h => ⟨"CONNECT", String.ofList (secondWord h), "", "", ∅⟩

def sampleResponse : Reads (Reader (Segments UInt8)) Nat :=
  readsHeader emptyLine fun h => if secondWord h = "200".toList then 200 else 502

def sampleSOCKS : Reads (Segments UInt8) Unit := readsHeader (fun bytes => bytes.length = 12) fun _ => ()

def sampleLib : Stdlib (Dialed (Segments UInt8)) where
  parseURL _ := .ok ⟨"http", none, "proxy.example:3128"⟩
  urlString _ := "http://proxy.example:3128"
  target _ := .error "no host"
  exchange _ _ := ⟨.error "EOF", 0⟩
  readRequest _ := none
  hijack _ := true

def sampleNet : Network (Dialed (Segments UInt8)) := fun _ =>
  sampleProxy.far sampleSOCKS sampleResponse "http"

/-- A client in two segments through a proxy whose answer comes with data behind it. -/
theorem sample_transparent : ∃ (rw : Reader (Segments UInt8)) (dest : Dialed (Segments UInt8)),
    connectFrom sampleLib sampleRequest (fun _ => .ok fun address left =>
      (⟨(), dialVia sampleLib sampleNet "http://proxy.example:3128" address left⟩ :
        DialRun Unit (Dialed (Segments UInt8)))) sampleClient = some (rw, dest) ∧
    Transparent rw dest [22, 3, 1] [2, 4, 5] := by
  have hConnect : connectFrom sampleLib sampleRequest (fun _ => .ok fun address left =>
      (⟨(), dialVia sampleLib sampleNet "http://proxy.example:3128" address left⟩ :
        DialRun Unit (Dialed (Segments UInt8)))) sampleClient =
      some (⟨[22, 3], ⟨[[1]]⟩⟩, .inr ⟨[2], ⟨[[4, 5]]⟩⟩) := by decide +kernel
  have hDial : (dialVia sampleLib sampleNet "http://proxy.example:3128" "example.com:443" none).result =
      .ok (.inr ⟨[2], ⟨[[4, 5]]⟩⟩) := by decide +kernel
  refine ⟨_, _, hConnect, ?_⟩
  obtain ⟨toClient, hToClient, hEntry, -⟩ := tunnels_transparent Unit sampleSOCKS
    sampleResponse sampleLib sampleNet "http://proxy.example:3128" "example.com:443" sampleProxy none
    rfl rfl hDial
  obtain ⟨toDest, hToDest, hTransparent⟩ := hEntry _ sampleRequest _ sampleClient _ hConnect
  have hUp : sampleRequest.following (rest sampleClient) = some [22, 3, 1] := by decide +kernel
  have hDown : followingAnswer sampleSOCKS sampleResponse "http" (rest sampleProxy.sends) =
      some [2, 4, 5] := by decide +kernel
  obtain rfl := Option.some.inj (hToDest.symm.trans hUp)
  obtain rfl := Option.some.inj (hToClient.symm.trans hDown)
  exact hTransparent
end NetConductor
