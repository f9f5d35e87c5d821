import Mathlib.Data.Set.Basic
import NetConductor.Remote.Framing

/-! The file of authorized keys, to which `Authorize` adds a line for a key that
no line has. The SSH package is a parameter. -/
namespace NetConductor

/-- What `ParseAuthorizedKey` reads. -/
structure AuthorizedKey (Key : Type) where
  key : Key
  comment : Bytes
  options : List Bytes
  rest : Bytes
deriving DecidableEq

/-- Package `ssh`; keys are the same when they are marshalled to the same bytes. -/
structure SSH (Key : Type) where
  parseAuthorizedKey : Bytes → Except String (AuthorizedKey Key)
  marshalAuthorizedKey : Key → Bytes
  marshal : Key → Bytes

/-! ### `strings.TrimSpace`, on bytes -/

/-- White space in UTF-8. -/
def whiteSpaceBytes : List Bytes :=
  [[9], [10], [11], [12], [13], [32], [0xC2, 0x85], [0xC2, 0xA0], [0xE1, 0x9A, 0x80], [0xE2, 0x80, 0xA8],
    [0xE2, 0x80, 0xA9], [0xE2, 0x80, 0xAF], [0xE2, 0x81, 0x9F], [0xE3, 0x80, 0x80]] ++
    (List.range 11).map fun i => [0xE2, 0x80, .ofNat (0x80 + i)]

/-- One character after another; there are at most as many as bytes. -/
def trimStartBytes (spaces : List Bytes) : Nat → Bytes → Bytes
  | 0, b => b
  | fuel + 1, b =>
      match spaces.find? fun w => w.isPrefixOf b with
      | some w => trimStartBytes spaces fuel (b.drop w.length)
      | none => b

def trimEndBytes (b : Bytes) : Bytes :=
  (trimStartBytes (whiteSpaceBytes.map List.reverse) b.length b.reverse).reverse

def trimSpaceBytes (b : Bytes) : Bytes := trimEndBytes (trimStartBytes whiteSpaceBytes b.length b)

/-! ### `Authorize` -/

/-- What the operating system answers: the errors, but for that of a missing file,
and how much of the text a failing write has written. -/
structure KeyFileAnswers where
  read : Option String
  openFile : Option String
  write : Option (String × Nat)

def KeyFileAnswers.fine : KeyFileAnswers := ⟨none, none, none⟩

/-- `strings.Split` at newlines. -/
def fileLines (old : Bytes) : List Bytes := old.splitOn 10

def keyComment : Bytes := asciiBytes " net-conductor".toList

section

variable {Key : Type} (S : SSH Key)

/-- The key of an entry, if it has one. -/
def entryKey (entry : Bytes) : Option Bytes :=
  match S.parseAuthorizedKey entry with
  | .ok k => some (S.marshal k.key)
  | .error _ => none

/-- The line for a key. -/
def keyLine (key : Key) : Bytes := trimSpaceBytes (S.marshalAuthorizedKey key) ++ keyComment

/-- `file` is `none` while there is none. -/
def authorize (io : KeyFileAnswers) (pub : Bytes) (file : Option Bytes) : Except String Unit × Option Bytes :=
  match S.parseAuthorizedKey pub with
  | .error e => (.error e, file)
  | .ok k =>
      match io.read with
      | some e => (.error e, file)
      | none =>
          let old := file.getD []
          if (fileLines old).any fun entry => entryKey S entry = some (S.marshal k.key) then (.ok (), file)
          else
            match io.openFile with
            | some e => (.error e, file)
            | none =>
                let text := 10 :: keyLine S k.key ++ [10]
                match io.write with
                | some (e, n) => (.error e, some (old ++ text.take n))
                | none => (.ok (), some (old ++ text))

/-- The keys that the lines of a file have. -/
def authorizedKeys (file : Option Bytes) : Set Bytes :=
  { k | ∃ entry ∈ fileLines (file.getD []), entryKey S entry = some k }

/-- What the SSH package promises of the keys it reads: a key is marshalled to
one line, which is read as that key also with a comment behind it, and a blank
line has none. -/
structure SSH.Lawful : Prop where
  line : ∀ b k, S.parseAuthorizedKey b = .ok k → ∃ text, S.marshalAuthorizedKey k.key = text ++ [10] ∧ 10 ∉ text
  undoes : ∀ b k, S.parseAuthorizedKey b = .ok k → ∃ k', S.parseAuthorizedKey (keyLine S k.key) = .ok k' ∧
    S.marshal k'.key = S.marshal k.key ∧ k'.options = []
  blank : ∀ k, S.parseAuthorizedKey [] ≠ .ok k

/-! ### One line -/

theorem trimStart_suffix (spaces : List Bytes) (fuel : Nat) (b : Bytes) : trimStartBytes spaces fuel b <:+ b := by
  induction fuel generalizing b with
  | zero => exact List.suffix_refl b
  | succ fuel ih =>
      unfold trimStartBytes
      split
      · exact (ih _).trans (List.drop_suffix _ b)
      · exact List.suffix_refl b

/-- A newline in front goes. -/
theorem newline_not_mem_trimStart {rest : Bytes} (hRest : 10 ∉ rest) (fuel : Nat) :
    10 ∉ trimStartBytes (whiteSpaceBytes.map List.reverse) (fuel + 1) (10 :: rest) := by
  have hNewline : [10] ∈ whiteSpaceBytes.map List.reverse := by decide +kernel
  have hNonempty : ∀ w ∈ whiteSpaceBytes.map List.reverse, 0 < w.length := by decide +kernel
  unfold trimStartBytes
  split
  · next w hFind =>
      have hLength := hNonempty w (List.mem_of_find?_eq_some hFind)
      obtain ⟨n, hn⟩ : ∃ n, w.length = n + 1 := Nat.exists_eq_succ_of_ne_zero (Nat.ne_of_gt hLength)
      have hSuffix := (trimStart_suffix (whiteSpaceBytes.map List.reverse) fuel ((10 :: rest).drop w.length)).subset
      rw [hn, List.drop_succ_cons] at hSuffix ⊢
      exact fun hMem => hRest (List.mem_of_mem_drop (hSuffix hMem))
  · next hFind =>
      have hPrefix := List.find?_eq_none.mp hFind [10] hNewline
      simp at hPrefix

/-- A line without its end has no newline in it. -/
theorem newline_not_mem_trimSpace {text : Bytes} (hText : 10 ∉ text) : 10 ∉ trimSpaceBytes (text ++ [10]) := by
  unfold trimSpaceBytes trimEndBytes
  obtain ⟨before, hBefore⟩ := trimStart_suffix whiteSpaceBytes (text ++ [10]).length (text ++ [10])
  rcases List.eq_nil_or_concat' (trimStartBytes whiteSpaceBytes (text ++ [10]).length (text ++ [10]))
    with hNone | ⟨d, x, hLast⟩
  · rw [hNone]
    exact List.not_mem_nil
  · rw [hLast, ← List.append_assoc] at hBefore
    obtain ⟨hFront, hNewline⟩ := List.append_inj' hBefore rfl
    obtain rfl := List.singleton_inj.mp hNewline
    have hFree : 10 ∉ d.reverse := by
      intro hMem
      rw [← hFront] at hText
      exact hText (List.mem_append_right _ (List.mem_reverse.mp hMem))
    rw [hLast, List.reverse_append, List.reverse_singleton, List.singleton_append, List.length_append,
      List.length_singleton, List.mem_reverse]
    exact newline_not_mem_trimStart hFree d.length

variable {S}

/-- The line of a key has no newline inside. -/
theorem newline_not_mem_keyLine (hS : S.Lawful) {b : Bytes} {k : AuthorizedKey Key}
    (hParse : S.parseAuthorizedKey b = .ok k) : 10 ∉ keyLine S k.key := by
  obtain ⟨text, hText, hFree⟩ := hS.line b k hParse
  have hComment : 10 ∉ keyComment := by decide +kernel
  rw [keyLine, hText, List.mem_append, not_or]
  exact ⟨newline_not_mem_trimSpace hFree, hComment⟩

theorem SSH.Lawful.blank_key (hS : S.Lawful) : entryKey S [] = none := by
  unfold entryKey
  split
  · next k hk => exact absurd hk (hS.blank k)
  · rfl

/-- A line that is added joins no other one. -/
theorem fileLines_append {line : Bytes} (hLine : 10 ∉ line) (old : Bytes) :
    fileLines (old ++ (10 :: line ++ [10])) = fileLines old ++ [line, []] := by
  rw [fileLines, List.cons_append, List.splitOn_append_cons_self, List.splitOn_append_cons_self,
    List.splitOn_eq_singleton hLine, List.splitOn_nil]
  rfl

/-! ### What a call does -/

/-- A call either does nothing or adds the line for a key that no line has. -/
theorem authorize_cases (pub : Bytes) (file : Option Bytes) :
    (∃ e, S.parseAuthorizedKey pub = .error e ∧ authorize S .fine pub file = (.error e, file)) ∨
    ∃ k, S.parseAuthorizedKey pub = .ok k ∧
      (S.marshal k.key ∈ authorizedKeys S file ∧ authorize S .fine pub file = (.ok (), file) ∨
        S.marshal k.key ∉ authorizedKeys S file ∧
          authorize S .fine pub file = (.ok (), some (file.getD [] ++ (10 :: keyLine S k.key ++ [10])))) := by
  unfold authorize
  cases hParse : S.parseAuthorizedKey pub with
  | error e => exact .inl ⟨e, rfl, rfl⟩
  | ok k =>
      refine .inr ⟨k, rfl, ?_⟩
      simp only [KeyFileAnswers.fine]
      split_ifs with hAny
      · obtain ⟨entry, hEntry, hKey⟩ := List.any_eq_true.mp hAny
        exact .inl ⟨⟨entry, hEntry, of_decide_eq_true hKey⟩, rfl⟩
      · refine .inr ⟨fun hMem => hAny ?_, rfl⟩
        obtain ⟨entry, hEntry, hKey⟩ := hMem
        exact List.any_eq_true.mpr ⟨entry, hEntry, decide_eq_true hKey⟩

/-- The keys of a file to which a line is added. -/
theorem authorizedKeys_append (hS : S.Lawful) {b : Bytes} {k : AuthorizedKey Key}
    (hParse : S.parseAuthorizedKey b = .ok k) (file : Option Bytes) :
    authorizedKeys S (some (file.getD [] ++ (10 :: keyLine S k.key ++ [10]))) =
      authorizedKeys S file ∪ {S.marshal k.key} := by
  obtain ⟨k', hLine, hSame, -⟩ := hS.undoes b k hParse
  have hNew : entryKey S (keyLine S k.key) = some (S.marshal k.key) := by
    rw [entryKey, hLine, ← hSame]
  ext x
  rw [authorizedKeys, Set.mem_ofPred_eq, Option.getD_some, fileLines_append (newline_not_mem_keyLine hS hParse)]
  simp [authorizedKeys, or_and_right, exists_or, hNew, hS.blank_key, eq_comm, or_comm]

/-- A call adds the key it is given, if that is one. -/
theorem authorizedKeys_authorize (hS : S.Lawful) (pub : Bytes) (file : Option Bytes) :
    authorizedKeys S (authorize S .fine pub file).2 = authorizedKeys S file ∪ { x | entryKey S pub = some x } := by
  rcases authorize_cases (S := S) pub file with ⟨e, hParse, hSame⟩ | ⟨k, hParse, ⟨hMem, hSame⟩ | ⟨-, hNew⟩⟩
  · simp [hSame, entryKey, hParse]
  · rw [hSame]
    have hSubset : {S.marshal k.key} ⊆ authorizedKeys S file := Set.singleton_subset_iff.mpr hMem
    simpa [entryKey, hParse, eq_comm] using (Set.union_eq_self_of_subset_right hSubset).symm
  · rw [hNew, authorizedKeys_append hS hParse]
    simp [entryKey, hParse, eq_comm]

/-- Where some line has the key, a call does nothing. -/
theorem authorize_present {pub : Bytes} {k : AuthorizedKey Key} (hParse : S.parseAuthorizedKey pub = .ok k)
    {file : Option Bytes} (hMem : S.marshal k.key ∈ authorizedKeys S file) :
    authorize S .fine pub file = (.ok (), file) := by
  rcases authorize_cases (S := S) pub file with ⟨e, hError, -⟩ | ⟨k', hParse', ⟨-, hSame⟩ | ⟨hAbsent, -⟩⟩
  · cases hParse.symm.trans hError
  · exact hSame
  · obtain rfl := Except.ok.inj (hParse.symm.trans hParse')
    exact absurd hMem hAbsent

variable (S) in
/-- What a call for a key leaves of a file. -/
structure Authorizes (k : AuthorizedKey Key) (file after : Option Bytes) : Prop where
  /-- Nothing comes behind the old content, or one line that has the key and no options. -/
  adds : S.marshal k.key ∈ authorizedKeys S file ∧ after = file ∨
    S.marshal k.key ∉ authorizedKeys S file ∧ ∃ line k', 10 ∉ line ∧
      after = some (file.getD [] ++ (10 :: line ++ [10])) ∧
      fileLines (after.getD []) = fileLines (file.getD []) ++ [line, []] ∧ entryKey S [] = none ∧
      S.parseAuthorizedKey line = .ok k' ∧ S.marshal k'.key = S.marshal k.key ∧ k'.options = []
  present : S.marshal k.key ∈ authorizedKeys S after
  keeps : ∀ entry ∈ fileLines (file.getD []), entry ∈ fileLines (after.getD [])
  once : ∀ again k', S.parseAuthorizedKey again = .ok k' → S.marshal k'.key = S.marshal k.key →
    authorize S .fine again after = (.ok (), after)

/-- A key that does not parse changes nothing. Any other is authorized afterwards, with
the old file as the beginning of the new one. -/
theorem authorize_adds_once (hS : S.Lawful) (pub : Bytes) (file : Option Bytes) :
    (∀ e, S.parseAuthorizedKey pub = .error e → authorize S .fine pub file = (.error e, file)) ∧
    (∀ k, S.parseAuthorizedKey pub = .ok k → (authorize S .fine pub file).1 = .ok () ∧
      Authorizes S k file (authorize S .fine pub file).2) ∧
    ∀ other, authorizedKeys S (authorize S .fine other (authorize S .fine pub file).2).2 =
      authorizedKeys S (authorize S .fine pub (authorize S .fine other file).2).2 := by
  refine ⟨fun e hParse => ?_, fun k hParse => ?_, fun other => ?_⟩
  · simp [authorize, hParse]
  · have hPresent : S.marshal k.key ∈ authorizedKeys S (authorize S .fine pub file).2 := by
      rw [authorizedKeys_authorize hS]
      exact .inr (by simp [entryKey, hParse])
    have hOnce : ∀ again k', S.parseAuthorizedKey again = .ok k' → S.marshal k'.key = S.marshal k.key →
        authorize S .fine again (authorize S .fine pub file).2 = (.ok (), (authorize S .fine pub file).2) :=
      fun again k' hAgain hSame => authorize_present hAgain (hSame ▸ hPresent)
    rcases authorize_cases (S := S) pub file with ⟨e, hError, -⟩ | ⟨k', hParse', hCall⟩
    · cases hParse.symm.trans hError
    · obtain rfl := Except.ok.inj (hParse.symm.trans hParse')
      rcases hCall with ⟨hMem, hSame⟩ | ⟨hAbsent, hNew⟩
      · rw [hSame] at hPresent hOnce ⊢
        exact ⟨rfl, .inl ⟨hMem, rfl⟩, hPresent, fun entry hEntry => hEntry, hOnce⟩
      · rw [hNew] at hPresent hOnce ⊢
        have hLine := newline_not_mem_keyLine hS hParse
        obtain ⟨k', hUndone, hKey, hOptions⟩ := hS.undoes pub k hParse
        refine ⟨rfl, .inr ⟨hAbsent, _, k', hLine, rfl, fileLines_append hLine _, hS.blank_key, hUndone, hKey, hOptions⟩,
          hPresent, fun entry hEntry => ?_, hOnce⟩
        rw [Option.getD_some, fileLines_append hLine]
        exact List.mem_append_left _ hEntry
  · rw [authorizedKeys_authorize hS, authorizedKeys_authorize hS, authorizedKeys_authorize hS,
      authorizedKeys_authorize hS, Set.union_right_comm]

end

/-! ### Two keys -/

/-- An ed25519 key as it is marshalled, with the same byte everywhere. -/
def sampleMarshal (b : Bool) : Bytes :=
  [0, 0, 0, 11] ++ asciiBytes "ssh-ed25519".toList ++ [0, 0, 0, 32] ++ List.replicate 32 (if b then 1 else 2)

def sampleText (b : Bool) : Bytes :=
  asciiBytes "ssh-ed25519 ".toList ++ asciiBytes (Base64.encode (sampleMarshal b))

/-- A parser that knows the texts of two keys, with the comments they have here. -/
def sampleParse (text : Bytes) : Except String (AuthorizedKey Bool) :=
  let known (b : Bool) : Option (AuthorizedKey Bool) :=
    if text = sampleText b ∨ text = sampleText b ++ [10] then some ⟨b, [], [], []⟩
    else if text = sampleText b ++ keyComment then some ⟨b, asciiBytes "net-conductor".toList, [], []⟩
    else none
  match known false, known true with
  | some k, _ => .ok k
  | none, some k => .ok k
  | none, none => .error "ssh: no key found"

def sampleSSH : SSH Bool where
  parseAuthorizedKey := sampleParse
  marshalAuthorizedKey b := sampleText b ++ [10]
  marshal := sampleMarshal

/-- The sample parser behaves as the real one is assumed to. -/
theorem sampleSSH_lawful : sampleSSH.Lawful where
  line _ k _ := ⟨sampleText k.key, rfl, by cases k.key <;> decide +kernel⟩
  undoes _ k _ := by
    refine ⟨⟨k.key, asciiBytes "net-conductor".toList, [], []⟩, ?_, rfl, rfl⟩
    cases k.key <;> decide +kernel
  blank k hParse := by
    have hNone : sampleParse [] = .error "ssh: no key found" := by rfl
    cases hNone.symm.trans hParse

/-- A file whose last line is not ended. -/
theorem key_added : ∃ after, authorize sampleSSH .fine (sampleText true ++ [10]) (some (sampleText false)) =
    (.ok (), some after) ∧ Authorizes sampleSSH ⟨true, [], [], []⟩ (some (sampleText false)) (some after) := by
  have hParse : sampleSSH.parseAuthorizedKey (sampleText true ++ [10]) = .ok ⟨true, [], [], []⟩ := by decide +kernel
  have hCall : authorize sampleSSH .fine (sampleText true ++ [10]) (some (sampleText false)) =
      (.ok (), some (sampleText false ++ (10 :: sampleText true ++ keyComment ++ [10]))) := by decide +kernel
  have hAdds := ((authorize_adds_once sampleSSH_lawful (sampleText true ++ [10])
    (some (sampleText false))).2.1 _ hParse).2
  exact ⟨_, hCall, by rwa [hCall] at hAdds⟩

end NetConductor
