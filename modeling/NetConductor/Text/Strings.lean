import Mathlib.Data.List.DropRight
import Mathlib.Data.List.Infix

/-! The string functions of Go's standard library that text protocols lean on,
on character lists, with the laws of printing a table as lines of words and
reading it back. -/
namespace GoText

abbrev Chars := List Char

/-- `unicode.IsSpace`. -/
def isSpace (c : Char) : Bool :=
  c ∈ [' ', '\t', '\n', '\x0b', '\x0c', '\r', '\u0085', '\u00a0', '\u1680', '\u2028', '\u2029',
    '\u202f', '\u205f', '\u3000'] || ('\u2000' ≤ c && c ≤ '\u200a')

/-- `strings.TrimSpace`. -/
def trimSpace (s : Chars) : Chars := (s.dropWhile isSpace).rdropWhile isSpace

/-- `strings.Fields`: the words between runs of white space. -/
def fields (s : Chars) : List Chars := (s.splitOnP isSpace).filter (· ≠ [])

/-- `strings.Split(s, "\n")`. -/
def lines (s : Chars) : List Chars := s.splitOn '\n'

/-- `strings.Cut` at a single character. -/
def cut (sep : Char) (s : Chars) : Option (Chars × Chars) :=
  if sep ∈ s then some (s.takeWhile (· ≠ sep), (s.dropWhile (· ≠ sep)).tail) else none

/-- `strings.TrimPrefix`. -/
def trimPrefix (pre s : Chars) : Chars := if pre.isPrefixOf s then s.drop pre.length else s

/-- The pieces of a text are pieces of it, and the first one starts it. -/
theorem splitOnP_within {p : Char → Bool} (s : Chars) :
    (∀ w ∈ s.splitOnP p, w <:+: s) ∧ ∀ w ∈ (s.splitOnP p).head?, w <+: s := by
  induction s with
  | nil => simp [List.splitOnP_nil]
  | cons c s ih =>
      rw [List.splitOnP_cons_eq_if_modifyHead]
      split_ifs with hSep
      · refine ⟨fun w hw => ?_, by simp⟩
        rcases List.mem_cons.mp hw with rfl | hw
        · exact List.nil_infix
        · exact (ih.1 w hw).trans (List.suffix_cons c s).isInfix
      · cases hPieces : s.splitOnP p with
        | nil => simp
        | cons w ws =>
            rw [hPieces] at ih
            have hHead : c :: w <+: c :: s := List.cons_prefix_cons.mpr ⟨rfl, ih.2 w rfl⟩
            refine ⟨fun v hv => ?_, by simpa using hHead⟩
            rcases List.mem_cons.mp hv with rfl | hv
            · exact hHead.isInfix
            · exact (ih.1 v (List.mem_cons_of_mem _ hv)).trans (List.suffix_cons c s).isInfix

/-- A text is cut at its first separator. -/
theorem cut_append {sep : Char} {s t : Chars} (h : sep ∉ s) :
    cut sep (s ++ sep :: t) = some (s, t) := by
  have hAll : ∀ c ∈ s, (c ≠ sep : Bool) = true := by
    intro c hc
    simp only [ne_eq, decide_not, Bool.not_eq_eq_eq_not, Bool.not_true, decide_eq_false_iff_not]
    rintro rfl
    exact h hc
  rw [cut, if_pos (by simp), List.takeWhile_append_of_pos hAll, List.dropWhile_append_of_pos hAll]
  simp

/-- A word survives every one of the functions above: it is not empty and
contains no white space. -/
def IsWord (s : Chars) : Prop := s ≠ [] ∧ ∀ c ∈ s, isSpace c = false

instance (s : Chars) : Decidable (IsWord s) :=
  @instDecidableAnd _ _ _ (List.decidableBAll _ s)

/-- Two words are one. -/
theorem IsWord.append {s t : Chars} (hs : IsWord s) (ht : IsWord t) : IsWord (s ++ t) := by
  refine ⟨by simp [hs.1], fun c hc => ?_⟩
  rcases List.mem_append.mp hc with hc | hc
  · exact hs.2 c hc
  · exact ht.2 c hc

/-- Neither end is white space, so that trimming does nothing. -/
def Trimmed (s : Chars) : Prop :=
  s ≠ [] ∧ (∀ c, s.head? = some c → isSpace c = false) ∧ ∀ c, s.getLast? = some c → isSpace c = false

theorem IsWord.trimmed {w : Chars} (h : IsWord w) : Trimmed w :=
  ⟨h.1, fun c hc => h.2 c (List.mem_of_head? hc), fun c hc => h.2 c (List.mem_of_getLast? hc)⟩

theorem Trimmed.join {s t : Chars} (hs : Trimmed s) (ht : Trimmed t) (middle : Chars) :
    Trimmed (s ++ (middle ++ t)) := by
  refine ⟨by simp [hs.1], fun c hc => hs.2.1 c ?_, fun c hc => ht.2.2 c ?_⟩
  · rwa [List.head?_append_of_ne_nil _ hs.1] at hc
  · rwa [← List.append_assoc, List.getLast?_append_of_ne_nil _ ht.1] at hc

/-- Rows without blanks at their ends make a text without blanks at its ends. -/
theorem Trimmed.intercalate {rows : List Chars} (sep : Chars) (hNonempty : rows ≠ [])
    (hRows : ∀ row ∈ rows, Trimmed row) : Trimmed (sep.intercalate rows) := by
  induction rows with
  | nil => exact absurd rfl hNonempty
  | cons row rest ih =>
      have hRow := hRows row (List.mem_cons_self ..)
      cases rest with
      | nil => simpa [List.intercalate] using hRow
      | cons next rest =>
          have hRest := ih (List.cons_ne_nil next rest) fun u hu =>
            hRows u (List.mem_cons_of_mem row hu)
          rw [List.intercalate_cons_cons]
          simpa using hRow.join hRest sep

/-- Only the newline at the end goes. -/
theorem Trimmed.trimSpace_newline {s : Chars} (h : Trimmed s) : trimSpace (s ++ ['\n']) = s := by
  obtain ⟨a, rest, rfl⟩ := List.exists_cons_of_ne_nil h.1
  have hHead : isSpace a = false := h.2.1 a rfl
  have hLast : isSpace ((a :: rest).getLast h.1) = false :=
    h.2.2 _ (List.getLast?_eq_some_getLast h.1)
  rw [trimSpace, List.cons_append, List.dropWhile_cons_of_neg (by simp [hHead]), ← List.cons_append,
    List.rdropWhile_concat_pos _ _ _ (by decide), List.rdropWhile_eq_self_iff]
  intro hNonempty
  simp [hLast]

/-- Words joined by one space each. -/
def unwords (words : List Chars) : Chars := [' '].intercalate words

@[simp] theorem unwords_singleton (w : Chars) : unwords [w] = w := by
  simp [unwords, List.intercalate]

theorem unwords_cons_cons (w v : Chars) (rest : List Chars) :
    unwords (w :: v :: rest) = w ++ ' ' :: unwords (v :: rest) := by
  simp [unwords, List.intercalate_cons_cons]

theorem fields_word {w : Chars} (h : IsWord w) : fields w = [w] := by
  rw [fields, List.splitOnP_eq_singleton h.2]
  simp [h.1]

theorem fields_word_sep {w rest : Chars} {sep : Char} (h : IsWord w) (hSep : isSpace sep = true) :
    fields (w ++ sep :: rest) = w :: fields rest := by
  rw [fields, List.splitOnP_append_cons_of_forall_mem h.2 sep hSep]
  simp [fields, h.1]

/-- Words that are joined with blanks come apart again. -/
theorem fields_unwords {words : List Chars} (hNonempty : words ≠ [])
    (hWords : ∀ w ∈ words, IsWord w) : fields (unwords words) = words := by
  induction words with
  | nil => exact absurd rfl hNonempty
  | cons w rest ih =>
      cases rest with
      | nil => simpa using fields_word (hWords w (List.mem_cons_self ..))
      | cons v rest =>
          rw [unwords_cons_cons, fields_word_sep (hWords w (List.mem_cons_self ..)) (by decide),
            ih (List.cons_ne_nil v rest) fun u hu => hWords u (List.mem_cons_of_mem w hu)]

/-- The characters of joined words are those of the words and the blank. -/
theorem mem_unwords {words : List Chars} {c : Char} (h : c ∈ unwords words) :
    c = ' ' ∨ ∃ w ∈ words, c ∈ w := by
  induction words with
  | nil => simp [unwords, List.intercalate] at h
  | cons w rest ih =>
      cases rest with
      | nil => exact .inr ⟨w, by simp, by simpa using h⟩
      | cons v rest =>
          rw [unwords_cons_cons] at h
          rcases List.mem_append.mp h with h | h
          · exact .inr ⟨w, by simp, h⟩
          · rcases List.mem_cons.mp h with h | h
            · exact .inl h
            · rcases ih h with h | ⟨u, hu, hc⟩
              · exact .inl h
              · exact .inr ⟨u, List.mem_cons_of_mem w hu, hc⟩

theorem newline_not_mem_unwords {words : List Chars} (hWords : ∀ w ∈ words, IsWord w) :
    '\n' ∉ unwords words := by
  intro hc
  rcases mem_unwords hc with h | ⟨w, hw, hc⟩
  · simp at h
  · have hSpace := (hWords w hw).2 _ hc
    simp [isSpace] at hSpace

/-- A table printed one row a line, every line ended by a newline. -/
def unlines (rows : List Chars) : Chars := rows.flatMap fun row => row ++ ['\n']

/-- Lines, each with its end, are the lines joined and one more end. -/
theorem unlines_eq_intercalate {rows : List Chars} (h : rows ≠ []) :
    unlines rows = ['\n'].intercalate rows ++ ['\n'] := by
  induction rows with
  | nil => exact absurd rfl h
  | cons row rest ih =>
      cases rest with
      | nil => simp [unlines, List.intercalate]
      | cons next rest =>
          have hRest := ih (List.cons_ne_nil next rest)
          simp only [unlines, List.flatMap_cons] at hRest ⊢
          rw [hRest, List.intercalate_cons_cons]
          simp

/-- Reading back a printed table of word lists: trimming, splitting into lines
and into words gives the words of every row. -/
theorem read_rows {rows : List (List Chars)} (hRows : ∀ row ∈ rows, row ≠ [])
    (hWords : ∀ row ∈ rows, ∀ w ∈ row, IsWord w) (hNonempty : rows ≠ []) :
    (lines (trimSpace (unlines (rows.map unwords)))).map fields = rows := by
  have hLines : rows.map unwords ≠ [] := by simpa using hNonempty
  have hTrimmed : Trimmed (['\n'].intercalate (rows.map unwords)) := by
    apply Trimmed.intercalate _ hLines
    intro line hLine
    obtain ⟨row, hRow, rfl⟩ := List.mem_map.mp hLine
    exact Trimmed.intercalate _ (hRows row hRow) fun w hw => (hWords row hRow w hw).trimmed
  have hNewline : ∀ line ∈ rows.map unwords, '\n' ∉ line := by
    intro line hLine
    obtain ⟨row, hRow, rfl⟩ := List.mem_map.mp hLine
    exact newline_not_mem_unwords (hWords row hRow)
  rw [unlines_eq_intercalate hLines, hTrimmed.trimSpace_newline, lines,
    List.splitOn_intercalate _ hNewline hLines, List.map_map]
  conv_rhs => rw [← List.map_id rows]
  exact List.map_congr_left fun row hRow => fields_unwords (hRows row hRow) (hWords row hRow)

/-- An empty table prints nothing, which reads as one line without words. -/
theorem read_no_rows : (lines (trimSpace (unlines []))).map fields = [[]] := by decide

end GoText
