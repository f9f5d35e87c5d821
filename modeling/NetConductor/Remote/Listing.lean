import NetConductor.Remote.Transfer
import NetConductor.Remote.Wire

/-! The listing of a directory on its way to the browser: how long its JSON text
is, and what becomes of it. -/
namespace NetConductor
open Pieces Routine

/-! ### Strings in JSON -/

/-- A continuation byte of UTF-8, or one of a part of them. -/
def between (lo hi b : UInt8) : Bool := lo ≤ b && b ≤ hi

/-- How many bytes follow the first byte of a character beyond ASCII; `none` where
the bytes are no UTF-8. -/
def runeTail (b : UInt8) (rest : Bytes) : Option Nat :=
  let two := match rest with
    | c :: _ => if between 0x80 0xBF c then some 1 else none
    | _ => none
  let three (lo hi : UInt8) := match rest with
    | c :: d :: _ => if between lo hi c && between 0x80 0xBF d then some 2 else none
    | _ => none
  let four (lo hi : UInt8) := match rest with
    | c :: d :: e :: _ =>
        if between lo hi c && between 0x80 0xBF d && between 0x80 0xBF e then some 3 else none
    | _ => none
  if between 0xC2 0xDF b then two
  else if b = 0xE0 then three 0xA0 0xBF
  else if b = 0xED then three 0x80 0x9F
  else if between 0xE1 0xEF b then three 0x80 0xBF
  else if b = 0xF0 then four 0x90 0xBF
  else if b = 0xF4 then four 0x80 0x8F
  else if between 0xF1 0xF3 b then four 0x80 0xBF
  else none

def hexDigit (n : Nat) : UInt8 := if n < 10 then .ofNat (48 + n) else .ofNat (87 + n)

/-- A character of at most four hexadecimal digits. -/
def unicodeEscape (n : Nat) : Bytes :=
  [92, 117, hexDigit (n / 4096 % 16), hexDigit (n / 256 % 16), hexDigit (n / 16 % 16), hexDigit (n % 16)]

/-- An ASCII character; what has a meaning in HTML is escaped, too. -/
def escapeASCII (b : UInt8) : Bytes :=
  if b = 34 ∨ b = 92 then [92, b]
  else if b = 8 then [92, 98]
  else if b = 12 then [92, 102]
  else if b = 10 then [92, 110]
  else if b = 13 then [92, 114]
  else if b = 9 then [92, 116]
  else if b < 32 ∨ b = 38 ∨ b = 60 ∨ b = 62 then unicodeEscape b.toNat
  else [b]

/-- The line separators U+2028 and U+2029. -/
def lineSeparator (b : UInt8) (rest : Bytes) : Bool :=
  b = 0xE2 && (rest.take 2 = [0x80, 0xA8] || rest.take 2 = [0x80, 0xA9])

/-- A character, and how many bytes it has after its first. -/
def escapeRune (b : UInt8) (rest : Bytes) : Bytes × Nat :=
  if b < 128 then (escapeASCII b, 0)
  else match runeTail b rest with
    | none => (unicodeEscape 0xFFFD, 0)
    | some n =>
        if lineSeparator b rest then
          (unicodeEscape (if rest.take 2 = [0x80, 0xA8] then 0x2028 else 0x2029), n)
        else (b :: rest.take n, n)

/-- One character after another; there are at most as many as bytes. -/
def escapeRunes : Nat → Bytes → Bytes
  | 0, _ => []
  | _, [] => []
  | fuel + 1, b :: rest =>
      (escapeRune b rest).1 ++ escapeRunes fuel (rest.drop (escapeRune b rest).2)

/-- `json.Marshal` of a string of any bytes. -/
def jsonString (s : Bytes) : Bytes := 34 :: escapeRunes s.length s ++ [34]

def widthASCII (b : UInt8) : Nat :=
  if b ∈ [34, 92, 8, 12, 10, 13, 9] then 2
  else if b < 32 ∨ b ∈ [38, 60, 62] then 6
  else 1

/-- How many bytes a character takes. -/
def runeWidth (b : UInt8) (rest : Bytes) : Nat :=
  if b < 128 then widthASCII b
  else match runeTail b rest with
    | none => 6
    | some n => if lineSeparator b rest then 6 else n + 1

def runesWidth : Nat → Bytes → Nat
  | 0, _ => 0
  | _, [] => 0
  | fuel + 1, b :: rest => runeWidth b rest + runesWidth fuel (rest.drop (escapeRune b rest).2)

/-- How many bytes a string takes between its quotes: two for each quote, backslash
and short escape, six for any other control character, `&`, `<`, `>`, a line
separator or a byte that is no UTF-8, and its own bytes for any other character. -/
def escapedLength (s : Bytes) : Nat := runesWidth s.length s

theorem runeTail_le {b : UInt8} {rest : Bytes} {n : Nat} (h : runeTail b rest = some n) :
    n ≤ rest.length := by
  unfold runeTail at h
  grind

theorem length_escapeASCII (b : UInt8) : (escapeASCII b).length = widthASCII b := by
  simp only [widthASCII, List.mem_cons, List.not_mem_nil, or_false]
  unfold escapeASCII
  split_ifs <;> first | rfl | grind

/-- The width of a rune is the length of what is written for it. -/
theorem length_escapeRune (b : UInt8) (rest : Bytes) :
    (escapeRune b rest).1.length = runeWidth b rest := by
  unfold escapeRune runeWidth
  by_cases hASCII : b < 128
  · rw [if_pos hASCII, if_pos hASCII]
    exact length_escapeASCII b
  · rw [if_neg hASCII, if_neg hASCII]
    cases hTail : runeTail b rest with
    | none => rfl
    | some n =>
        cases hLine : lineSeparator b rest with
        | true => simp [unicodeEscape]
        | false =>
            have hLength := List.length_take_of_le (runeTail_le hTail)
            simp [hLength]

/-- The length of an escaped name. -/
theorem length_escapeRunes (fuel : Nat) (s : Bytes) :
    (escapeRunes fuel s).length = runesWidth fuel s := by
  induction fuel generalizing s with
  | zero => rfl
  | succ fuel ih =>
      cases s with
      | nil => rfl
      | cons b rest => rw [escapeRunes, runesWidth, List.length_append, length_escapeRune, ih]

theorem length_jsonString (s : Bytes) : (jsonString s).length = escapedLength s + 2 := by
  simp [jsonString, length_escapeRunes, escapedLength]

/-! ### The result of a listing -/

/-- An entry of a directory as SFTP gives it; a name is any bytes. -/
structure ListedFile where
  name : Bytes
  directory : Bool
  size : Int
  modified : Time

def intBytes (n : Int) : Bytes := asciiBytes (toString n).toList

def boolBytes (b : Bool) : Bytes := asciiBytes (toString b).toList

/-- An array of JSON. -/
def commaSeparated : List Bytes → Bytes
  | [] => []
  | [x] => x
  | x :: y :: rest => x ++ 44 :: commaSeparated (y :: rest)

section

-- The text of a time depends on the zone of the device.
variable (timeText : Time → Bytes)

def rowBytes (e : ListedFile) : Bytes :=
  asciiBytes "\x7b\"directory\":".toList ++ boolBytes e.directory ++ asciiBytes ",\"modified\":\"".toList ++
    timeText e.modified ++ asciiBytes "\",\"name\":".toList ++ jsonString e.name ++
    asciiBytes ",\"size\":".toList ++ intBytes e.size ++ asciiBytes "\x7d".toList

/-- The message with which the session answers a request `list`. -/
def listingBytes (id : Int) (path : Bytes) (entries : List ListedFile) : Bytes :=
  asciiBytes "\x7b\"id\":".toList ++ intBytes id ++
    asciiBytes ",\"ok\":true,\"result\":\x7b\"entries\":[".toList ++
    commaSeparated (entries.map (rowBytes timeText)) ++ asciiBytes "],\"path\":".toList ++
    jsonString path ++ asciiBytes "\x7d,\"type\":\"result\"\x7d".toList

/-- What an entry takes. -/
def rowLength (e : ListedFile) : Nat :=
  (if e.directory then 50 else 51) + (timeText e.modified).length + escapedLength e.name +
    (toString e.size).length

def listingLength (id : Int) (path : Bytes) (entries : List ListedFile) : Nat :=
  67 + (toString id).length + escapedLength path + (entries.map (rowLength timeText)).sum +
    (entries.length - 1)

theorem sum_le_listingLength (id : Int) (path : Bytes) (entries : List ListedFile) :
    (entries.map (rowLength timeText)).sum ≤ listingLength timeText id path entries := by
  unfold listingLength
  omega

theorem length_asciiBytes (text : List Char) : (asciiBytes text).length = text.length :=
  List.length_map _

theorem length_commaSeparated (rows : List Bytes) :
    (commaSeparated rows).length = (rows.map List.length).sum + (rows.length - 1) := by
  induction rows using commaSeparated.induct with
  | case1 => rfl
  | case2 x => simp [commaSeparated]
  | case3 x y rest ih =>
      simp only [commaSeparated, List.length_append, List.length_cons, ih, List.map_cons, List.sum_cons]
      omega

/-- The same of a row. -/
theorem length_rowBytes (e : ListedFile) : (rowBytes timeText e).length = rowLength timeText e := by
  have hOpen : "\x7b\"directory\":".toList.length = 13 := by decide +kernel
  have hModified : ",\"modified\":\"".toList.length = 13 := by decide +kernel
  have hName : "\",\"name\":".toList.length = 9 := by decide +kernel
  have hSize : ",\"size\":".toList.length = 8 := by decide +kernel
  have hClose : "\x7d".toList.length = 1 := by decide +kernel
  have hBool : (toString e.directory).toList.length = if e.directory then 4 else 5 := by
    cases e.directory <;> decide +kernel
  simp only [rowBytes, boolBytes, intBytes, List.length_append, length_asciiBytes, length_jsonString,
    hOpen, hModified, hName, hSize, hClose, hBool, rowLength, String.length_toList]
  cases e.directory with
  | true =>
      simp only [if_true]
      omega
  | false =>
      simp only [Bool.false_eq_true, if_false]
      omega

/-- The same of a whole listing. -/
theorem length_listingBytes (id : Int) (path : Bytes) (entries : List ListedFile) :
    (listingBytes timeText id path entries).length = listingLength timeText id path entries := by
  have hOpen : "\x7b\"id\":".toList.length = 6 := by decide +kernel
  have hEntries : ",\"ok\":true,\"result\":\x7b\"entries\":[".toList.length = 32 := by decide +kernel
  have hPath : "],\"path\":".toList.length = 9 := by decide +kernel
  have hClose : "\x7d,\"type\":\"result\"\x7d".toList.length = 18 := by decide +kernel
  have hRows : (entries.map (rowBytes timeText)).map List.length = entries.map (rowLength timeText) := by
    rw [List.map_map]
    exact List.map_congr_left fun e _ => length_rowBytes timeText e
  simp only [listingBytes, intBytes, List.length_append, length_asciiBytes, length_jsonString,
    length_commaSeparated, hRows, hOpen, hEntries, hPath, hClose, listingLength, List.length_map,
    String.length_toList]
  omega

end

/-! ### At the browser -/

section

variable {M N : Type} [DecidableEq N] {J : JSON M N} {number : Int64 → N} {depth : Nat}
  {dispatched : List M}

/-- A message over the limit closes the link. -/
theorem receive_overflow {key : N} {buffers : List Bytes} {b : Bytes} {last : Bool}
    (h : Link.maxMessage < (buffers ++ [b]).flatten.length) :
    (Link.receive J (depth + 1) ⟨collecting key buffers, dispatched, false⟩
        (.chunk key (Base64.encode b) last)).1.closed = true := by
  rw [List.flatten_append, List.length_append, List.flatten_singleton] at h
  simp only [Link.receive, Base64.atob_encode, lookup_collecting, insert_collecting]
  rw [if_pos (Or.inl h)]
  rfl

/-- Chunks that are too much together close the link. -/
theorem deliver_overflow (hJ : ReadsBack J number) (id : Int64) {b : Bytes}
    (hSize : Link.maxMessage < b.length) {xs : Bytes} (hNonempty : xs ≠ []) :
    ∀ (buffers : List Bytes) (fs : List (Path × Bytes)),
      fs.map Prod.snd = (pieces 24000 xs).map (fun p => chunkFrame id p.1 p.2) →
      buffers.flatten ++ xs = b →
      (fs.foldl (Link.deliver J (depth + 1))
        ⟨collecting (number id) buffers, dispatched, false⟩).closed = true := by
  have hClosed : ∀ {l : Link M N} {f : Path × Bytes} {m : Incoming M N}, J.parse f.2 = some m →
      (l.receive J (depth + 1) m).1.closed = true → (l.deliver J (depth + 1) f).closed = true := by
    intro l f m hParse hReceive
    simp only [Link.deliver, hParse]
    split_ifs
    · exact (grows_fail _).closed hReceive
    · exact hReceive
  refine pieces_induction (n := 24000) (by decide) (P := fun xs => ∀ (buffers : List Bytes)
      (fs : List (Path × Bytes)),
      fs.map Prod.snd = (pieces 24000 xs).map (fun p => chunkFrame id p.1 p.2) →
      buffers.flatten ++ xs = b →
      (fs.foldl (Link.deliver J (depth + 1))
        ⟨collecting (number id) buffers, dispatched, false⟩).closed = true) ?_ ?_ xs hNonempty
  · intro xs hxs hLast buffers fs hFrames hBytes
    rw [pieces_last hxs hLast] at hFrames
    obtain ⟨f, rfl, hf⟩ := List.map_eq_singleton_iff.mp hFrames
    have hAll : (buffers ++ [xs]).flatten = b := by simpa using hBytes
    exact hClosed (by rw [hf]; exact hJ.chunk id xs true) (receive_overflow (by rw [hAll]; exact hSize))
  · intro xs hMore ih buffers fs hFrames hBytes
    rw [pieces_more (by decide) hMore, List.map_cons] at hFrames
    obtain ⟨f, rest, rfl, hf, hRest⟩ := List.map_eq_cons_iff.mp hFrames
    have hAll : (buffers ++ [xs.take 24000]).flatten ++ xs.drop 24000 = b := by simpa using hBytes
    have hChunk : J.parse f.2 = some (.chunk (number id) (Base64.encode (xs.take 24000)) false) := by
      rw [hf]
      exact hJ.chunk id _ false
    rw [List.foldl_cons]
    rcases Nat.lt_or_ge Link.maxMessage (buffers ++ [xs.take 24000]).flatten.length with hOver | hFits
    · exact (grows_foldl J (depth + 1) _ rest).closed (hClosed hChunk (receive_overflow hOver))
    · rw [deliver_of_parse hChunk (receive_more hFits)]
      exact ih _ rest hRest hAll

/-- The listing of a directory fits, and the browser dispatches it, on whichever
paths its frames come, exactly when its entries are not too long together; else the
link is closed. -/
theorem listing_fits_iff (timeText : Time → Bytes) (hJ : ReadsBack J number) (clock : Int64) {m : M}
    {id : Int} {path : Bytes} {entries : List ListedFile}
    (hm : J.marshal m = listingBytes timeText id path entries) {fs : List (Path × Bytes)}
    (hFrames : fs.map Prod.snd = frames clock (J.marshal m)) :
    ((J.marshal m).length ≤ Link.maxMessage ↔
      listingLength timeText id path entries ≤ Link.maxMessage) ∧
    (fs.foldl (Link.deliver J (depth + 1)) ⟨∅, dispatched, false⟩ = ⟨∅, dispatched ++ [m], false⟩ ↔
      listingLength timeText id path entries ≤ Link.maxMessage) ∧
    (Link.maxMessage < listingLength timeText id path entries →
      (fs.foldl (Link.deliver J (depth + 1)) ⟨∅, dispatched, false⟩).closed = true) := by
  have hLength : (J.marshal m).length = listingLength timeText id path entries := by
    rw [hm, length_listingBytes]
  rw [← hLength]
  have hOver : Link.maxMessage < (J.marshal m).length →
      (fs.foldl (Link.deliver J (depth + 1)) ⟨∅, dispatched, false⟩).closed = true := by
    intro hSize
    have hLong : 40000 < (J.marshal m).length := by
      unfold Link.maxMessage at hSize
      omega
    have hNonempty : J.marshal m ≠ [] := by
      intro hNil
      rw [hNil] at hLong
      simp at hLong
    rw [frames, if_pos hLong] at hFrames
    exact deliver_overflow hJ clock hSize hNonempty [] fs hFrames rfl
  refine ⟨Iff.rfl, ⟨fun hDelivered => ?_, fun hSize => deliver_frames hJ clock hSize hFrames⟩, hOver⟩
  by_contra hSize
  have hClosed := hOver (Nat.not_le.mp hSize)
  rw [hDelivered] at hClosed
  cases hClosed

end

/-! ### A short listing and a long one -/

/-- The texts of the two names of a home directory. -/
def homeBytes : Bytes :=
  listingBytes (fun _ => asciiBytes "2024-01-01T00:00:00Z".toList) 1 (asciiBytes "/home".toList)
    [⟨asciiBytes "a&b".toList, false, 5, 0⟩, ⟨asciiBytes "docs".toList, true, 4096, 0⟩]

def homeJSON : JSON Unit Bytes where
  marshal _ := homeBytes
  parse b := if b = homeBytes then some (.message ()) else endJSON.parse b

/-- This codec reads back every message and every chunk. -/
theorem homeJSON_readsBack : ReadsBack homeJSON fun id => asciiBytes (toString id.toInt).toList where
  message _ := by simp [homeJSON]
  chunk id data last := by
    have hOther : chunkFrame id data last ≠ homeBytes := by
      intro hEq
      have hThird := congrArg (fun b : Bytes => b[2]?) ((chunkFrame_eq id data last).symm.trans hEq)
      have hOpen : asciiBytes "\x7b\"chunk\":".toList = [123, 34, 99, 104, 117, 110, 107, 34, 58] := by
        decide +kernel
      have hHomeThird : homeBytes[2]? = some 105 := by decide +kernel
      rw [hOpen, hHomeThird] at hThird
      simp at hThird
    simp only [homeJSON, if_neg hOther]
    exact endJSON_readsBack.chunk id data last

theorem home_fits : [(Path.direct, homeBytes)].foldl (Link.deliver homeJSON 1) ⟨∅, [], false⟩ =
    ⟨∅, [()], false⟩ :=
  (@listing_fits_iff Unit Bytes _ homeJSON _ 0 [] _ homeJSON_readsBack 0 () _ _ _ rfl _
    (by decide +kernel)).2.1.mpr (by decide +kernel)

/-- The bytes of a text. -/
def utf8 (s : String) : Bytes := s.toUTF8.data.toList

theorem length_utf8 (s : String) : (utf8 s).length = s.utf8ByteSize := rfl

/-- An entry whose name is a text. -/
def listed (e : DirEntry) : ListedFile := ⟨utf8 e.name, e.directory, e.size, e.modified⟩

/-- Names of 255 bytes each, most of them ampersands. -/
def crowdedName (i : Nat) : List Char :=
  [Char.ofNat (65 + i / 1000), Char.ofNat (65 + i / 100 % 10), Char.ofNat (65 + i / 10 % 10),
    Char.ofNat (65 + i % 10)] ++ List.replicate 251 '&'

def crowded : List DirEntry :=
  (List.range 10000).map fun i => ⟨String.ofList (crowdedName i), false, 0, 0⟩

/-- The width of a text without other characters than those of ASCII. -/
theorem runesWidth_ascii {s : Bytes} (hASCII : ∀ b ∈ s, b < 128) {fuel : Nat} (hFuel : s.length ≤ fuel) :
    runesWidth fuel s = (s.map widthASCII).sum := by
  induction s generalizing fuel with
  | nil => cases fuel <;> rfl
  | cons b rest ih =>
      obtain ⟨fuel, rfl⟩ : ∃ n, fuel = n + 1 :=
        Nat.exists_eq_succ_of_ne_zero (by rw [List.length_cons] at hFuel; omega)
      have hFirst : b < 128 := hASCII b List.mem_cons_self
      have hRest := ih (fun c hc => hASCII c (List.mem_cons_of_mem b hc))
        (Nat.le_of_succ_le_succ hFuel)
      rw [runesWidth, runeWidth, escapeRune, if_pos hFirst, if_pos hFirst, List.drop_zero, hRest,
        List.map_cons, List.sum_cons]

/-- Such a text is one byte for each character. -/
theorem utf8_ascii {text : List Char} (h : ∀ c ∈ text, c.toNat < 128) :
    utf8 (String.ofList text) = asciiBytes text := by
  have hChar : ∀ c ∈ text, String.utf8EncodeChar c = [UInt8.ofNat c.toNat] := by
    intro c hc
    have hOne : c.utf8Size = 1 := Char.utf8Size_eq_one_iff.mpr (by
      have hValue := h c hc
      rw [UInt32.le_iff_toNat_le]
      change c.toNat ≤ 127
      omega)
    exact String.utf8EncodeChar_eq_singleton hOne
  rw [utf8, String.toUTF8_eq_toByteArray, String.toByteArray_ofList, List.utf8Encode,
    List.flatMap_congr hChar, List.data_toByteArray, List.toList_toArray, asciiBytes, List.map_eq_flatMap]

/-- The names of the crowded directory are such texts. -/
theorem crowdedName_ascii {i : Nat} (hi : i < 10000) : ∀ c ∈ crowdedName i, c.toNat < 128 := by
  have hLetter : ∀ n < 10, (Char.ofNat (65 + n)).toNat < 128 := by decide
  intro c hc
  simp only [crowdedName, List.mem_append, List.mem_cons, List.not_mem_nil, or_false,
    List.mem_replicate] at hc
  rcases hc with (rfl | rfl | rfl | rfl) | ⟨-, rfl⟩
  · exact hLetter _ (by omega)
  · exact hLetter _ (by omega)
  · exact hLetter _ (by omega)
  · exact hLetter _ (by omega)
  · decide

/-- They differ from one another. -/
theorem crowdedName_injective {i j : Nat} (hi : i < 10000) (hj : j < 10000)
    (h : crowdedName i = crowdedName j) : i = j := by
  have hLetter : ∀ m < 10, ∀ n < 10, Char.ofNat (65 + m) = Char.ofNat (65 + n) → m = n := by decide
  obtain ⟨hFirst, hMore⟩ := List.cons.inj (List.append_cancel_right h)
  obtain ⟨hSecond, hMore⟩ := List.cons.inj hMore
  obtain ⟨hThird, hMore⟩ := List.cons.inj hMore
  obtain ⟨hFourth, -⟩ := List.cons.inj hMore
  have h₁ := hLetter _ (by omega) _ (by omega) hFirst
  have h₂ := hLetter _ (by omega) _ (by omega) hSecond
  have h₃ := hLetter _ (by omega) _ (by omega) hThird
  have h₄ := hLetter _ (by omega) _ (by omega) hFourth
  omega

/-- Every ampersand takes six bytes. -/
theorem crowdedName_width {i : Nat} (hi : i < 10000) :
    1506 ≤ escapedLength (utf8 (String.ofList (crowdedName i))) := by
  have hASCII : ∀ b ∈ asciiBytes (crowdedName i), b < 128 := by
    intro b hb
    obtain ⟨c, hc, rfl⟩ := List.mem_map.mp hb
    have hValue := crowdedName_ascii hi c hc
    rw [UInt8.lt_iff_toNat_lt, UInt8.toNat_ofNat']
    change c.toNat % 256 < 128
    omega
  have hAmpersands : ((asciiBytes (List.replicate 251 '&')).map widthASCII).sum = 1506 := by
    decide +kernel
  rw [utf8_ascii (crowdedName_ascii hi), escapedLength, runesWidth_ascii hASCII (Nat.le_refl _),
    crowdedName, asciiBytes_append, List.map_append, List.sum_append, hAmpersands]
  omega

theorem length_mul_le_sum {n : Nat} {xs : List Nat} (h : ∀ x ∈ xs, n ≤ x) : xs.length * n ≤ xs.sum := by
  induction xs with
  | nil => exact Nat.le_of_eq (Nat.zero_mul n)
  | cons x rest ih =>
      have hFirst := h x List.mem_cons_self
      have hRest := ih fun y hy => h y (List.mem_cons_of_mem x hy)
      rw [List.length_cons, List.sum_cons, Nat.succ_mul]
      omega

/-- A directory with 10000 names of 255 bytes, and its listing succeeds. -/
def crowdedOutside : Outside :=
  { Transfer.plainServer.answer ∅ (Transfer.readRequest "/tmp" 0) with readDir := .ok crowded }

/-- Ten thousand long names make a listing that the browser does not take. -/
theorem listing_too_long : ¬∀ (timeText : Time → Bytes) (id : Int) (out : Outside) (path p : String)
    (entries : List DirEntry) (s t : Access), path.utf8ByteSize ≤ 4096 →
    (∀ e ∈ entries, e.name.utf8ByteSize ≤ 255) → (entries.map DirEntry.name).Nodup →
    (Access.list out path).outcome s = (.ok (.directory p entries), t) →
    (listingBytes timeText id (utf8 p) (entries.map listed)).length ≤ Link.maxMessage := by
  intro hAll
  have hCount : crowded.length = 10000 := by simp [crowded]
  have hNames : ∀ e ∈ crowded, e.name.utf8ByteSize ≤ 255 := by
    intro e he
    obtain ⟨i, hi, rfl⟩ := List.mem_map.mp he
    have hBytes := congrArg List.length (utf8_ascii (crowdedName_ascii (List.mem_range.mp hi)))
    have hLength : (crowdedName i).length = 255 := by
      rw [crowdedName, List.length_append, List.length_replicate]
      rfl
    rw [length_utf8, length_asciiBytes, hLength] at hBytes
    exact Nat.le_of_eq hBytes
  have hDistinct : (crowded.map DirEntry.name).Nodup := by
    rw [crowded, List.map_map]
    refine List.Nodup.map_on (fun i hi j hj hSame => ?_) List.nodup_range
    exact crowdedName_injective (List.mem_range.mp hi) (List.mem_range.mp hj)
      (String.ofList_injective hSame)
  have hList : (Access.list crowdedOutside "/tmp").outcome Transfer.connected =
      (.ok (.directory "/tmp" crowded), { Transfer.connected with acts := [.readDir "/tmp"] }) := by
    rw [Access.list, if_neg (by decide), outcome_bind, outcome_pure]
    dsimp only
    rw [outcome_bind, Transfer.outcome_perform]
    simp only [crowdedOutside, Except.mapError, hCount, Nat.lt_irrefl, if_false, outcome_pure]
    rfl
  have hFits := hAll (fun _ => []) 1 crowdedOutside "/tmp" "/tmp" crowded _ _ (by decide) hNames
    hDistinct hList
  rw [length_listingBytes] at hFits
  have hRows : ((crowded.map listed).map (rowLength fun _ => [])).length * 1506 ≤
      ((crowded.map listed).map (rowLength fun _ => [])).sum := length_mul_le_sum fun x hx => by
    obtain ⟨e, he, rfl⟩ := List.mem_map.mp hx
    obtain ⟨d, hd, rfl⟩ := List.mem_map.mp he
    obtain ⟨i, hi, rfl⟩ := List.mem_map.mp hd
    have hWidth := crowdedName_width (List.mem_range.mp hi)
    simp only [rowLength, listed]
    omega
  rw [List.length_map, List.length_map, hCount] at hRows
  have hLong := hRows.trans ((sum_le_listingLength _ _ _ _).trans hFits)
  exact absurd hLong (by unfold Link.maxMessage; omega)

end NetConductor
