import NetConductor.Remote.Handle

/-! Uploads and downloads: two loops of the page, each with requests that the
session on the device handles over SFTP. -/
namespace NetConductor
open Routine

/-- The files of the device, by path. -/
abbrev RemoteFiles := GoMap (List UInt8)

/-- `ReadAt` of 24000 bytes gives fewer only together with io.EOF, and that only at
the end. -/
def ReadsAt (f : List UInt8) (offset : Nat) : List UInt8 × Option ReadError → Prop
  | (b, none) => b = (f.drop offset).take 24000 ∧ b.length = 24000
  | (b, some .eof) => b = f.drop offset ∧ b.length ≤ 24000
  | (_, some (.other _)) => False

/-- An SFTP server that nothing goes wrong with: a file that is not there can be
created, one that is there opened, read and written. -/
structure SFTPServer where
  answer : RemoteFiles → RemoteRequest → Outside
  newSFTP : ∀ fs r, (answer fs r).newSFTP = .ok ()
  close : ∀ fs r, (answer fs r).close = .ok ()
  creates : ∀ fs r, r.op = "create" → fs.lookup r.path = none → (answer fs r).openFile = .ok ()
  opens : ∀ fs r f, r.op ≠ "create" → fs.lookup r.path = some f → (answer fs r).openFile = .ok ()
  reads : ∀ fs r f, r.op = "read" → fs.lookup r.path = some f →
    ReadsAt f r.offset.toNat (answer fs r).readAt
  writes : ∀ fs r f b, r.op = "write" → fs.lookup r.path = some f →
    Base64.decodeString r.data.toList = some b → (answer fs r).writeAt = ((b.length : Int), none)

/-- The session on the device and its files. -/
abbrev RemoteEnd := Access × RemoteFiles

abbrev Transferring := Routine RemoteEnd String

namespace Transfer

def limit : Nat := 128 * 1024 * 1024

/-- Bytes written over others; a gap is filled with zeros. -/
def overwrite (f : List UInt8) (offset : Nat) (b : List UInt8) : List UInt8 :=
  f.take offset ++ List.replicate (offset - f.length) 0 ++ b ++ f.drop (offset + b.length)

/-- What an act leaves of the files, when it goes well. -/
def effect (out : Outside) (path : String) (fs : RemoteFiles) : Act → RemoteFiles
  | .openFile p true => if out.openFile.isOk then fs.insert p [] else fs
  | .writeAt b offset =>
      match fs.lookup path, out.writeAt.2 with
      | some f, none => fs.insert path (overwrite f offset.toNat b)
      | _, _ => fs
  | _ => fs

/-- `link.call` with a request for a file. -/
def call (server : SFTPServer) (r : RemoteRequest) : Transferring RemoteResult := do
  let (s, fs) ← get
  let out := server.answer fs r
  let (result, t) := (Access.fileRequest out r).outcome s
  set (t, (t.acts.drop s.acts.length).foldl (effect out r.path) fs)
  ofAnswer (result.mapError fun e => e.error)

def createRequest (path : String) : RemoteRequest := ⟨"create", path, "", "", 0, 0, 0⟩

def readRequest (path : String) (offset : Nat) : RemoteRequest := ⟨"read", path, "", "", offset, 0, 0⟩

/-- The bytes go in Base64. -/
def writeRequest (path : String) (offset : Nat) (b : List UInt8) : RemoteRequest :=
  ⟨"write", path, "", String.ofList (Base64.encode b), offset, 0, 0⟩

/-- The loop of an upload. -/
def uploadFrom (server : SFTPServer) (path : String) (f : List UInt8) (offset : Nat) : Transferring PUnit :=
  if _h : offset < f.length then do
    let _ ← call server (writeRequest path offset ((f.drop offset).take 24000))
    uploadFrom server path f (offset + 24000)
  else pure ⟨⟩
termination_by f.length - offset
decreasing_by omega

def upload (server : SFTPServer) (path : String) (f : List UInt8) : Transferring PUnit := do
  if limit < f.length then throw "单文件上限 128 MB"
  else do
    let _ ← call server (createRequest path)
    uploadFrom server path f 0

/-- The loop of a download, `none` when it takes more rounds than there are. -/
def downloadFrom (server : SFTPServer) (path : String) : Nat → Nat → List UInt8 →
    Transferring (Option (List UInt8))
  | 0, _, _ => pure none
  | rounds + 1, offset, parts => do
      match ← call server (readRequest path offset) with
      | .data data eof =>
          match Base64.atob data with
          | none => throw "InvalidCharacterError"
          | some b =>
              if limit < offset + b.length then throw "文件超过大小上限"
              else if eof then pure (some (parts ++ b))
              else downloadFrom server path rounds (offset + b.length) (parts ++ b)
      | _ => throw "InvalidCharacterError"

/-- `size` is the size that the listing gave. -/
def download (server : SFTPServer) (path : String) (size rounds : Nat) :
    Transferring (Option (List UInt8)) :=
  if limit < size then throw "单文件上限 128 MB"
  else downloadFrom server path rounds 0 []

/-! ### One request -/

@[simp] theorem outcome_perform {α : Type} (a : Act) (answer : Except String α) (s : Access) :
    (Access.perform a answer).outcome s =
      (answer.mapError Access.refuse, { s with acts := s.acts ++ [a] }) := by
  cases answer <;> rfl

/-- The session once its SFTP client is there. -/
def opened (s : Access) : Access :=
  if s.files then s else { s with acts := s.acts ++ [.newSFTP], files := true }

theorem outcome_openFiles {out : Outside} {s : Access} (hClient : s.client = true)
    (hSFTP : out.newSFTP = .ok ()) : (Access.openFiles out).outcome s = (.ok ⟨⟩, opened s) := by
  cases hFiles : s.files with
  | true => simp [Access.openFiles, opened, outcome_bind, hFiles]
  | false => simp [Access.openFiles, Access.deref, opened, outcome_bind, hFiles, hClient, hSFTP, Except.mapError]

/-- A path that a request may have. -/
def ValidPath (path : String) : Prop := path.utf8ByteSize ≤ 4096

/-- A request with a path of that length and an offset in range is an operation of the
open client. -/
theorem outcome_fileRequest {out : Outside} {r : RemoteRequest} {s : Access} (hPath : ValidPath r.path)
    (hTarget : r.target = "") (hOffset : 0 ≤ r.offset ∧ r.offset ≤ 1024 * 1024 * 1024 * 1024)
    (hClient : s.client = true) (hSFTP : out.newSFTP = .ok ()) :
    (Access.fileRequest out r).outcome s = (Access.fileOp out r).outcome (opened s) := by
  have hValid : ¬(4096 < r.path.utf8ByteSize ∨ 4096 < r.target.utf8ByteSize ∨ r.offset < 0 ∨
      1024 * 1024 * 1024 * 1024 < r.offset) := by
    rw [hTarget]
    simp only [ValidPath] at hPath
    have hEmpty : "".utf8ByteSize = 0 := rfl
    omega
  have hFiles : (opened s).files = true := by
    unfold opened
    split_ifs with h
    · exact h
    · rfl
  rw [Access.fileRequest, if_neg hValid]
  simp [outcome_bind, outcome_openFiles hClient hSFTP, Access.deref, hFiles]

theorem opened_acts (s : Access) :
    (opened s).acts = s.acts ∨ (opened s).acts = s.acts ++ [.newSFTP] := by
  unfold opened
  split_ifs
  · exact .inl rfl
  · exact .inr rfl

@[simp] theorem opened_client (s : Access) : (opened s).client = s.client := by
  unfold opened
  split_ifs <;> rfl

variable {server : SFTPServer} {s : Access} {fs : RemoteFiles} {path : String} {f b : List UInt8}
  {offset : Nat}

/-- What a call comes to when the request ends well, after some acts. -/
theorem outcome_call {r : RemoteRequest} {result : RemoteResult} {acts : List Act}
    (hPath : ValidPath r.path) (hTarget : r.target = "")
    (hOffset : 0 ≤ r.offset ∧ r.offset ≤ 1024 * 1024 * 1024 * 1024) (hClient : s.client = true)
    (hOp : (Access.fileOp (server.answer fs r) r).outcome (opened s) =
      (.ok result, { opened s with acts := (opened s).acts ++ acts })) :
    ∃ t : Access, t.client = true ∧ (call server r).outcome (s, fs) =
      (.ok result, (t, acts.foldl (effect (server.answer fs r) r.path) fs)) := by
  have hRequest := (outcome_fileRequest hPath hTarget hOffset hClient (server.newSFTP fs r)).trans hOp
  refine ⟨{ opened s with acts := (opened s).acts ++ acts }, by simpa using hClient, ?_⟩
  have hActs : (((opened s).acts ++ acts).drop s.acts.length).foldl (effect (server.answer fs r) r.path) fs =
      acts.foldl (effect (server.answer fs r) r.path) fs := by
    rcases opened_acts s with hSame | hNew
    · rw [hSame, List.drop_left]
    · rw [hNew, List.append_assoc, List.drop_left]
      rfl
  simp [call, outcome_bind, hRequest, hActs, Except.mapError]

variable (server) in
/-- An upload begins with an empty file. -/
theorem call_create (hPath : ValidPath path) (hClient : s.client = true) (hNew : fs.lookup path = none) :
    ∃ t : Access, t.client = true ∧ (call server (createRequest path)).outcome (s, fs) =
      (.ok .nil, (t, fs.insert path [])) := by
  have hOpen := server.creates fs (createRequest path) rfl hNew
  have hClose := server.close fs (createRequest path)
  have hOp : (Access.fileOp (server.answer fs (createRequest path)) (createRequest path)).outcome
      (opened s) = (.ok .nil, { opened s with
        acts := (opened s).acts ++ [.openFile path true, .close] }) := by
    rw [Access.fileOp]
    simp [createRequest, Access.create, outcome_bind, Except.mapError, Except.map] at hOpen hClose ⊢
    simp [hOpen, hClose]
  obtain ⟨t, hKept, hCall⟩ := outcome_call hPath rfl (by simp [createRequest]) hClient hOp
  refine ⟨t, hKept, hCall.trans ?_⟩
  simp [effect, hOpen, Except.isOk, Except.toBool]

variable (server) in
/-- A read changes nothing. -/
theorem call_read (hPath : ValidPath path) (hClient : s.client = true) (hFile : fs.lookup path = some f)
    (hOffset : offset ≤ limit) : ∃ (t : Access) (b : List UInt8) (eof : Bool), t.client = true ∧
      (call server (readRequest path offset)).outcome (s, fs) =
        (.ok (.data (Base64.encode b) eof), (t, fs)) ∧
      (eof = false → b = (f.drop offset).take 24000 ∧ b.length = 24000) ∧
      (eof = true → b = f.drop offset) := by
  have hOpen := server.opens fs (readRequest path offset) f (by simp [readRequest]) hFile
  have hRead : ReadsAt f offset (server.answer fs (readRequest path offset)).readAt :=
    server.reads fs (readRequest path offset) f rfl hFile
  have hRange : 0 ≤ (readRequest path offset).offset ∧
      (readRequest path offset).offset ≤ 1024 * 1024 * 1024 * 1024 := by
    simp only [limit, readRequest] at hOffset ⊢
    omega
  obtain ⟨b, eof, hAnswer, hBytes⟩ : ∃ b eof, (Access.fileOp (server.answer fs (readRequest path offset))
      (readRequest path offset)).outcome (opened s) = (.ok (.data (Base64.encode b) eof), { opened s with
        acts := (opened s).acts ++ [.openFile path false, .readAt 24000 offset] }) ∧
      (eof = false → b = (f.drop offset).take 24000 ∧ b.length = 24000) ∧
      (eof = true → b = f.drop offset) := by
    rw [Access.fileOp]
    simp only [readRequest, Access.read, outcome_bind, outcome_perform, Except.mapError] at hOpen hRead ⊢
    rw [hOpen]
    match hEnd : (server.answer fs ⟨"read", path, "", "", offset, 0, 0⟩).readAt with
    | (b, none) =>
        rw [hEnd] at hRead
        exact ⟨b, false, by simp, fun _ => hRead, fun h => (nomatch h)⟩
    | (b, some .eof) =>
        rw [hEnd] at hRead
        exact ⟨b, true, by simp, fun h => (nomatch h), fun _ => hRead.1⟩
    | (_, some (.other _)) =>
        rw [hEnd] at hRead
        exact hRead.elim
  obtain ⟨t, hKept, hCall⟩ := outcome_call hPath rfl hRange hClient hAnswer
  exact ⟨t, b, eof, hKept, hCall.trans rfl, hBytes⟩

variable (server) in
/-- A write of a slice. -/
theorem call_write (hPath : ValidPath path) (hClient : s.client = true) (hFile : fs.lookup path = some f)
    (hOffset : offset ≤ limit) (hLength : b.length ≤ 24000) : ∃ t : Access, t.client = true ∧
      (call server (writeRequest path offset b)).outcome (s, fs) =
        (.ok (.written b.length), (t, fs.insert path (overwrite f offset b))) := by
  have hOpen := server.opens fs (writeRequest path offset b) f (by simp [writeRequest]) hFile
  have hDecode : Base64.decodeString (writeRequest path offset b).data.toList = some b := by
    rw [writeRequest, String.toList_ofList, Base64.decodeString_encode]
  have hWrite := server.writes fs (writeRequest path offset b) f b rfl hFile hDecode
  have hRange : 0 ≤ (writeRequest path offset b).offset ∧
      (writeRequest path offset b).offset ≤ 1024 * 1024 * 1024 * 1024 := by
    simp only [limit, writeRequest] at hOffset ⊢
    omega
  have hOp : (Access.fileOp (server.answer fs (writeRequest path offset b))
      (writeRequest path offset b)).outcome (opened s) = (.ok (.written b.length), { opened s with
        acts := (opened s).acts ++ [.openFile path false, .writeAt b offset] }) := by
    have hBytes : (Access.decodeString (server.answer fs (writeRequest path offset b))
        (writeRequest path offset b).data).toOption.filter (fun b => b.length ≤ 24000) = some b := by
      rw [Access.decodeString, hDecode]
      exact Option.filter_eq_some_iff.mpr ⟨rfl, decide_eq_true hLength⟩
    simp only [Access.fileOp, writeRequest, Access.write] at hOpen hBytes hWrite ⊢
    rw [hBytes]
    simp [outcome_bind, hOpen, hWrite, Except.mapError, Except.map]
  obtain ⟨t, hKept, hCall⟩ := outcome_call hPath rfl hRange hClient hOp
  refine ⟨t, hKept, hCall.trans ?_⟩
  have hOld : fs.lookup (writeRequest path offset b).path = some f := hFile
  simp only [List.foldl_cons, List.foldl_nil, effect, hOld, hWrite]
  rfl

/-! ### The loops -/

/-- A slice written at the end of what is there. -/
theorem overwrite_slice (f : List UInt8) {offset : Nat} (h : offset ≤ f.length) :
    overwrite (f.take offset) offset ((f.drop offset).take 24000) = f.take (offset + 24000) := by
  have hLength : (f.take offset).length = offset := List.length_take_of_le h
  have hDrop : (f.take offset).drop (offset + ((f.drop offset).take 24000).length) = [] :=
    List.drop_of_length_le (by omega)
  rw [overwrite, hDrop, hLength, Nat.sub_self, List.take_take, Nat.min_self, List.replicate_zero,
    List.append_nil, List.append_nil, ← List.take_add]

/-- The files are as before, but for one. -/
def OnlyFile (path : String) (f : List UInt8) (before after : RemoteFiles) : Prop :=
  after.lookup path = some f ∧ ∀ p ≠ path, after.lookup p = before.lookup p

theorem OnlyFile.insert {g : List UInt8} {after : RemoteFiles}
    (h : OnlyFile path f (fs.insert path g) after) : OnlyFile path f fs after :=
  ⟨h.1, fun p hp => (h.2 p hp).trans (AList.lookup_insert_ne hp)⟩

variable (server offset) in
/-- The loop of an upload, when what comes before the offset is written. -/
theorem outcome_uploadFrom (hPath : ValidPath path) (hSize : f.length ≤ limit)
    (hClient : s.client = true) (hFile : fs.lookup path = some (f.take offset)) :
    ∃ (t : Access) (after : RemoteFiles), OnlyFile path f fs after ∧
      (uploadFrom server path f offset).outcome (s, fs) = (.ok ⟨⟩, (t, after)) := by
  induction hLeft : f.length - offset using Nat.strongRecOn generalizing s fs offset with
  | ind left ih =>
      rw [uploadFrom]
      split_ifs with hMore
      · have hLength : ((f.drop offset).take 24000).length ≤ 24000 := List.length_take_le _ _
        obtain ⟨t, hKept, hCall⟩ := call_write server hPath hClient hFile
          (Nat.le_trans (Nat.le_of_lt hMore) hSize) hLength
        rw [overwrite_slice f (Nat.le_of_lt hMore)] at hCall
        obtain ⟨t', after, hAfter, hRest⟩ := ih (f.length - (offset + 24000)) (by omega) _ hKept
          (AList.lookup_insert fs) rfl
        refine ⟨t', after, hAfter.insert, ?_⟩
        rw [outcome_bind, hCall]
        exact hRest
      · rw [List.take_of_length_le (Nat.not_lt.mp hMore)] at hFile
        exact ⟨s, fs, ⟨hFile, fun _ _ => rfl⟩, rfl⟩

variable (server offset) in
/-- The loop of a download, when what comes before the offset has been read: a full
piece without the end of the file moves on, an empty or short one ends it. -/
theorem outcome_downloadFrom (hPath : ValidPath path) (hSize : f.length ≤ limit)
    (hClient : s.client = true) (hFile : fs.lookup path = some f) (hOffset : offset ≤ f.length)
    {rounds : Nat} (hRounds : f.length - offset < rounds * 24000) :
    ∃ t : Access, (downloadFrom server path rounds offset (f.take offset)).outcome (s, fs) =
      (.ok (some f), (t, fs)) := by
  induction rounds generalizing s offset with
  | zero => omega
  | succ rounds ih =>
      obtain ⟨t, b, eof, hKept, hCall, hMore, hEnd⟩ := call_read server hPath hClient hFile
        (Nat.le_trans hOffset hSize)
      rw [downloadFrom, outcome_bind, hCall]
      simp only [Base64.atob_encode]
      cases eof with
      | true =>
          have hAll : b = f.drop offset := hEnd rfl
          have hLength : offset + b.length = f.length := by
            rw [hAll, List.length_drop]
            omega
          rw [if_neg (by omega), if_pos rfl, hAll, List.take_append_drop]
          exact ⟨t, rfl⟩
      | false =>
          obtain ⟨hPiece, hFull⟩ := hMore rfl
          have hInside : offset + b.length ≤ f.length := by
            have hLength := congrArg List.length hPiece
            rw [List.length_take, List.length_drop] at hLength
            omega
          have hTaken : f.take offset ++ b = f.take (offset + b.length) := by
            rw [hFull, hPiece, ← List.take_add]
          rw [if_neg (by omega), if_neg (by simp), hTaken]
          exact ih _ hKept hInside (by omega)

/-- A file of at most 128 MiB: an upload to a new path is accepted at every step
and leaves the file there; a download of it ends and gives the file, when it has as
many rounds as it needs. -/
theorem transfer_round_trip (server : SFTPServer) (path : String) (s : Access) (fs : RemoteFiles) (f : List UInt8)
    (hPath : ValidPath path) (hSize : f.length ≤ limit) (hClient : s.client = true) :
    (fs.lookup path = none → ∃ (t : Access) (after : RemoteFiles), OnlyFile path f fs after ∧
      (upload server path f).outcome (s, fs) = (.ok ⟨⟩, (t, after))) ∧
    (fs.lookup path = some f → ∀ rounds, f.length / 24000 < rounds → ∃ t : Access,
      (download server path f.length rounds).outcome (s, fs) = (.ok (some f), (t, fs))) := by
  constructor
  · intro hNew
    obtain ⟨t, hKept, hCreate⟩ := call_create server hPath hClient hNew
    obtain ⟨t', after, hAfter, hUpload⟩ := outcome_uploadFrom server 0 hPath hSize
      hKept (AList.lookup_insert fs)
    refine ⟨t', after, hAfter.insert, ?_⟩
    rw [upload, if_neg (Nat.not_lt.mpr hSize), outcome_bind, hCreate]
    exact hUpload
  · intro hFile rounds hRounds
    rw [download, if_neg (Nat.not_lt.mpr hSize)]
    exact outcome_downloadFrom server 0 hPath hSize hClient hFile (Nat.zero_le _) (by omega)

/-- A server that does as it is asked. -/
def plainServer : SFTPServer where
  answer fs r :=
    { readFile := .ok (), parsePrivateKey := .ok (), dial := .ok (), newClientConn := .ok ()
      desktop := .ok .nil, newSession := .ok (), stdinPipe := .ok (), requestPty := .ok ()
      shell := .ok (), write := .ok (), windowChange := .ok (), newSFTP := .ok ()
      getwd := .ok "/", readDir := .ok [], close := .ok (), mkdir := .ok (), lstat := .ok false
      rename := .ok (), removeDirectory := .ok (), remove := .ok ()
      illegalBase64 := "illegal base64 data at input byte 0", notExist := "file does not exist"
      openFile :=
        if (fs.lookup r.path).isNone = decide (r.op = "create") then .ok ()
        else .error "sftp: \"Failure\" (SSH_FX_FAILURE)"
      readAt :=
        let b := (((fs.lookup r.path).getD []).drop r.offset.toNat).take 24000
        (b, if b.length < 24000 then some .eof else none)
      writeAt := (((Base64.decodeString r.data.toList).getD []).length, none) }
  newSFTP _ _ := rfl
  close _ _ := rfl
  creates fs r hOp hNew := by simp [hOp, hNew]
  opens fs r f hOp hFile := by simp [hOp, hFile]
  reads fs r f _ hFile := by
    simp only [hFile, Option.getD_some]
    split_ifs with hShort
    · rw [List.length_take] at hShort
      exact ⟨List.take_of_length_le (by omega), List.length_take_le _ _⟩
    · rw [List.length_take] at hShort
      exact ⟨rfl, by rw [List.length_take]; omega⟩
  writes fs r f b _ _ hDecode := by simp [hDecode]

/-- A session whose SSH connection stands. -/
def connected : Access :=
  { Access.new ⟨"127.0.0.1:22", "user", "/etc/ssh/key", "SHA256:host", false⟩ "files" with client := true }

/-- Three slices go up to a new path and come down again. -/
theorem file_transferred : ∃ f : List UInt8, 2 * 24000 < f.length ∧
    ∃ (t t' : Access) (after : RemoteFiles),
      (upload plainServer "/tmp/a" f).outcome (connected, ∅) = (.ok ⟨⟩, (t, after)) ∧
      (download plainServer "/tmp/a" f.length 3).outcome (connected, after) = (.ok (some f), (t', after)) := by
  obtain ⟨f, hLength⟩ : ∃ f : List UInt8, f.length = 50000 :=
    ⟨List.replicate 50000 7, List.length_replicate⟩
  have hPath : ValidPath "/tmp/a" := by unfold ValidPath; decide
  have hSize : f.length ≤ limit := by rw [hLength]; unfold limit; decide
  obtain ⟨t, after, hAfter, hUpload⟩ :=
    (transfer_round_trip plainServer "/tmp/a" connected ∅ f hPath hSize rfl).1 rfl
  obtain ⟨t', hDownload⟩ :=
    (transfer_round_trip plainServer "/tmp/a" connected after f hPath hSize rfl).2 hAfter.1 3 (by omega)
  exact ⟨f, by omega, t, t', after, hUpload, hDownload⟩

end Transfer
end NetConductor
