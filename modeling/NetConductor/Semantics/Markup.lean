import Mathlib.Data.List.Basic
import Mathlib.Tactic.Common

/-! HTML as a browser reads it into tags and text, and templates with holes. The
reader follows the language's tokenizer; where that would leave the part of the
language that is written here (comments, raw text such as scripts, references
without a name of their own), it stops. -/
namespace Markup

/-- A tag. Its values are made of `A`: characters, or characters and holes. -/
structure Tag (A : Type*) where
  closing : Bool
  name : List Char
  attrs : List (List Char × List A)
  selfClosing : Bool

inductive Token (A : Type*) where
  | tag (t : Tag A)
  | char (a : A)

/-- How far the reader is with what it reads; tags and values are those read so far. -/
inductive Mode (A : Type*) where
  | data
  | tagOpen
  | endTagOpen
  | tagName (t : Tag A)
  | beforeName (t : Tag A)
  | attrName (t : Tag A) (n : List Char)
  | afterName (t : Tag A) (n : List Char)
  | beforeValue (t : Tag A) (n : List Char)
  -- between `"` or between `'`
  | quoted (double : Bool) (t : Tag A) (n : List Char) (v : List A)
  | unquoted (t : Tag A) (n : List Char) (v : List A)
  | afterValue (t : Tag A)
  | selfClosing (t : Tag A)
  -- behind `&`, in the text or in a quoted value
  | textReference (read : List Char)
  | valueReference (double : Bool) (t : Tag A) (n : List Char) (v : List A) (read : List Char)

abbrev Reading (A : Type*) := Option (Mode A × List (Token A))

def isSpace (c : Char) : Bool := c = ' ' || c = '\n' || c = '\t' || c = '\x0c'

/-- The elements whose content is not read as tags and text: script, style, textarea, title, xmp,
iframe, noembed, noframes, noscript and plaintext. -/
def rawElements : List (List Char) :=
  [['s', 'c', 'r', 'i', 'p', 't'], ['s', 't', 'y', 'l', 'e'],
   ['t', 'e', 'x', 't', 'a', 'r', 'e', 'a'], ['t', 'i', 't', 'l', 'e'], ['x', 'm', 'p'],
   ['i', 'f', 'r', 'a', 'm', 'e'], ['n', 'o', 'e', 'm', 'b', 'e', 'd'],
   ['n', 'o', 'f', 'r', 'a', 'm', 'e', 's'], ['n', 'o', 's', 'c', 'r', 'i', 'p', 't'],
   ['p', 'l', 'a', 'i', 'n', 't', 'e', 'x', 't']]

def references : List (List Char × Char) :=
  [("amp".toList, '&'), ("lt".toList, '<'), ("gt".toList, '>'), ("quot".toList, '"'),
    ("#39".toList, '\'')]

def reference (name : List Char) : Option Char := references.lookup name

def quote (double : Bool) : Char := if double then '"' else '\''

variable {A B C : Type*}

def Tag.withAttr (t : Tag A) (n : List Char) (v : List A) : Tag A :=
  { t with attrs := t.attrs ++ [(n, v)] }

/-! ### One character -/

section Step

-- `i` makes what is read of a character
variable (i : Char → A)

def emit (t : Tag A) : Reading A :=
  if !t.closing && rawElements.contains t.name then none else some (.data, [.tag t])

def inData (c : Char) : Reading A :=
  if c = '&' then some (.textReference [], [])
  else if c = '<' then some (.tagOpen, [])
  else some (.data, [.char (i c)])

def inTagOpen (c : Char) : Reading A :=
  if c = '/' then some (.endTagOpen, [])
  else if c.isAlpha then some (.tagName ⟨false, [c.toLower], [], false⟩, [])
  else if c = '!' ∨ c = '?' then none
  else (inData i c).map fun r => (r.1, .char (i '<') :: r.2)

def inEndTagOpen (c : Char) : Reading A :=
  if c.isAlpha then some (.tagName ⟨true, [c.toLower], [], false⟩, [])
  else if c = '>' then some (.data, [])
  else none

def inTagName (t : Tag A) (c : Char) : Reading A :=
  if isSpace c then some (.beforeName t, [])
  else if c = '/' then some (.selfClosing t, [])
  else if c = '>' then emit t
  else if c = '\x00' then none
  else some (.tagName { t with name := t.name ++ [c.toLower] }, [])

/-- The first character of a name, or of what stands there instead. -/
def inBeforeName (t : Tag A) (c : Char) : Reading A :=
  if isSpace c then some (.beforeName t, [])
  else if c = '/' then some (.selfClosing t, [])
  else if c = '>' then emit t
  else if c = '\x00' then none
  else some (.attrName t [c.toLower], [])

def inAfterName (t : Tag A) (n : List Char) (c : Char) : Reading A :=
  if isSpace c then some (.afterName t n, [])
  else if c = '=' then some (.beforeValue t n, [])
  else inBeforeName (t.withAttr n []) c

def inAttrName (t : Tag A) (n : List Char) (c : Char) : Reading A :=
  if isSpace c ∨ c = '/' ∨ c = '>' ∨ c = '=' then inAfterName t n c
  else if c = '\x00' then none
  else some (.attrName t (n ++ [c.toLower]), [])

def inUnquoted (t : Tag A) (n : List Char) (v : List A) (c : Char) : Reading A :=
  if isSpace c then some (.beforeName (t.withAttr n v), [])
  else if c = '>' then emit (t.withAttr n v)
  else if c = '&' ∨ c = '\x00' then none
  else some (.unquoted t n (v ++ [i c]), [])

def inBeforeValue (t : Tag A) (n : List Char) (c : Char) : Reading A :=
  if isSpace c then some (.beforeValue t n, [])
  else if c = '"' then some (.quoted true t n [], [])
  else if c = '\'' then some (.quoted false t n [], [])
  else inUnquoted i t n [] c

def inQuoted (double : Bool) (t : Tag A) (n : List Char) (v : List A) (c : Char) : Reading A :=
  if c = quote double then some (.afterValue (t.withAttr n v), [])
  else if c = '&' then some (.valueReference double t n v [], [])
  else if c = '\x00' then some (.quoted double t n (v ++ [i '\uFFFD']), [])
  else some (.quoted double t n (v ++ [i c]), [])

def inSelfClosing (t : Tag A) (c : Char) : Reading A :=
  if c = '>' then emit { t with selfClosing := true } else inBeforeName t c

/-- A reference goes on, or ends with `;`. -/
def inReference (read : List Char) (on : List Char → Mode A) (done : Char → Mode A × List (Token A))
    (c : Char) : Reading A :=
  if c = ';' then (reference read).map done
  else if c.isAlphanum ∨ c = '#' then some (on (read ++ [c]), [])
  else none

def step : Mode A → Char → Reading A
  | .data, c => inData i c
  | .tagOpen, c => inTagOpen i c
  | .endTagOpen, c => inEndTagOpen c
  | .tagName t, c => inTagName t c
  | .beforeName t, c => inBeforeName t c
  | .attrName t n, c => inAttrName t n c
  | .afterName t n, c => inAfterName t n c
  | .beforeValue t n, c => inBeforeValue i t n c
  | .quoted double t n v, c => inQuoted i double t n v c
  | .unquoted t n v, c => inUnquoted i t n v c
  | .afterValue t, c => inBeforeName t c
  | .selfClosing t, c => inSelfClosing t c
  | .textReference read, c =>
      inReference read .textReference (fun d => (.data, [.char (i d)])) c
  | .valueReference double t n v read, c =>
      inReference read (.valueReference double t n v)
        (fun d => (.quoted double t n (v ++ [i d]), [])) c

def read : Mode A → List Char → Reading A
  | m, [] => some (m, [])
  | m, c :: s => (step i m c).bind fun r => (read r.1 s).map fun r' => (r'.1, r.2 ++ r'.2)

end Step

variable {i : Char → A}

/-- Reading a text is reading its first part and going on with the second. -/
theorem read_append (m : Mode A) (s s' : List Char) :
    read i m (s ++ s') =
      (read i m s).bind fun r => (read i r.1 s').map fun r' => (r'.1, r.2 ++ r'.2) := by
  induction s generalizing m with
  | nil =>
      cases hRead : read i m s' <;> simp [read, hRead]
  | cons c s ih =>
      simp only [List.cons_append, read]
      cases step i m c with
      | none => rfl
      | some r =>
          simp only [Option.bind_some, ih]
          cases read i r.1 s with
          | none => rfl
          | some r₁ =>
              simp only [Option.bind_some, Option.map_some]
              cases read i r₁.1 s' <;> simp

/-! ### Another alphabet -/

/-- What stands for one `A` in a text and in a value. -/
structure Filling (A B : Type*) where
  text : A → List B
  value : A → List B

namespace Filling

def ofMap (f : A → B) : Filling A B := ⟨fun a => [f a], fun a => [f a]⟩

@[simp] theorem flatMap_ofMap (f : A → B) (v : List A) : v.flatMap (ofMap f).value = v.map f :=
  List.map_eq_flatMap.symm

end Filling

def Tag.fill (f : Filling A B) (t : Tag A) : Tag B where
  closing := t.closing
  name := t.name
  attrs := t.attrs.map fun a => (a.1, a.2.flatMap f.value)
  selfClosing := t.selfClosing

def Token.fill (f : Filling A B) : Token A → List (Token B)
  | .tag t => [.tag (t.fill f)]
  | .char a => (f.text a).map .char

def Mode.fill (f : Filling A B) : Mode A → Mode B
  | .data => .data
  | .tagOpen => .tagOpen
  | .endTagOpen => .endTagOpen
  | .tagName t => .tagName (t.fill f)
  | .beforeName t => .beforeName (t.fill f)
  | .attrName t n => .attrName (t.fill f) n
  | .afterName t n => .afterName (t.fill f) n
  | .beforeValue t n => .beforeValue (t.fill f) n
  | .quoted double t n v => .quoted double (t.fill f) n (v.flatMap f.value)
  | .unquoted t n v => .unquoted (t.fill f) n (v.flatMap f.value)
  | .afterValue t => .afterValue (t.fill f)
  | .selfClosing t => .selfClosing (t.fill f)
  | .textReference read => .textReference read
  | .valueReference double t n v read =>
      .valueReference double (t.fill f) n (v.flatMap f.value) read

/-- The outcome of a reading, filled. -/
def filled (f : Filling A B) (r : Mode A × List (Token A)) : Mode B × List (Token B) :=
  (r.1.fill f, r.2.flatMap (Token.fill f))

section Fill

variable (f : Filling A B) {j : Char → B}

@[simp] theorem fill_withAttr (t : Tag A) (n : List Char) (v : List A) :
    (t.withAttr n v).fill f = (t.fill f).withAttr n (v.flatMap f.value) := by
  simp [Tag.withAttr, Tag.fill]

/-- Filling a tag commutes with emitting it. -/
theorem emit_fill (t : Tag A) : emit (t.fill f) = (emit t).map (filled f) := by
  have hSame : (!(t.fill f).closing && rawElements.contains (t.fill f).name) =
      (!t.closing && rawElements.contains t.name) := rfl
  unfold emit
  rw [hSame]
  split_ifs <;> rfl

theorem inBeforeName_fill (t : Tag A) (c : Char) :
    inBeforeName (t.fill f) c = (inBeforeName t c).map (filled f) := by
  unfold inBeforeName
  split_ifs
  · rfl
  · rfl
  · exact emit_fill f t
  · rfl
  · rfl

theorem inAfterName_fill (t : Tag A) (n : List Char) (c : Char) :
    inAfterName (t.fill f) n c = (inAfterName t n c).map (filled f) := by
  unfold inAfterName
  split_ifs
  · rfl
  · rfl
  · rw [← inBeforeName_fill, fill_withAttr]
    rfl

/-- Filling does not meddle with a character reference that is being read. -/
theorem inReference_fill (on : List Char → Mode A) {on' : List Char → Mode B}
    {done : Char → Mode A × List (Token A)} {done' : Char → Mode B × List (Token B)}
    (hOn : ∀ s, (on s).fill f = on' s) (hDone : ∀ d, filled f (done d) = done' d)
    (read : List Char) (c : Char) :
    inReference read on' done' c = (inReference read on done c).map (filled f) := by
  unfold inReference
  split_ifs
  · simp [Function.comp_def, hDone]
  · simp [filled, hOn]
  · rfl

variable (hText : ∀ c, f.text (i c) = [j c]) (hValue : ∀ c, f.value (i c) = [j c])
include hText hValue

/-- The reader looks at characters of the text only, never at what it has read. -/
theorem step_fill (m : Mode A) (c : Char) : step j (m.fill f) c = (step i m c).map (filled f) := by
  have hData : ∀ c, inData j c = (inData i c).map (filled f) := by
    intro c
    unfold inData
    split_ifs <;> simp [filled, Mode.fill, Token.fill, hText]
  have hUnquoted : ∀ t n v, inUnquoted j (t.fill f) n (v.flatMap f.value) c =
      (inUnquoted i t n v c).map (filled f) := by
    intro t n v
    unfold inUnquoted
    split_ifs
    · simp [filled, Mode.fill]
    · rw [← emit_fill, fill_withAttr]
    · rfl
    · simp [filled, Mode.fill, hValue]
  cases m with
  | data => exact hData c
  | tagOpen =>
      simp only [step, Mode.fill, inTagOpen, hData]
      split_ifs
      · rfl
      · rfl
      · rfl
      · cases inData i c <;> simp [filled, Token.fill, hText]
  | endTagOpen =>
      simp only [step, Mode.fill, inEndTagOpen]
      split_ifs <;> rfl
  | tagName t =>
      simp only [step, Mode.fill, inTagName]
      split_ifs
      · rfl
      · rfl
      · exact emit_fill f t
      · rfl
      · rfl
  | beforeName t => exact inBeforeName_fill f t c
  | attrName t n =>
      simp only [step, Mode.fill, inAttrName]
      split_ifs
      · exact inAfterName_fill f t n c
      · rfl
      · rfl
  | afterName t n => exact inAfterName_fill f t n c
  | beforeValue t n =>
      simp only [step, Mode.fill, inBeforeValue]
      split_ifs
      · rfl
      · rfl
      · rfl
      · simpa using hUnquoted t n []
  | quoted double t n v =>
      simp only [step, Mode.fill, inQuoted]
      split_ifs
      · simp [filled, Mode.fill]
      · rfl
      · simp [filled, Mode.fill, hValue]
      · simp [filled, Mode.fill, hValue]
  | unquoted t n v => exact hUnquoted t n v
  | afterValue t => exact inBeforeName_fill f t c
  | selfClosing t =>
      simp only [step, Mode.fill, inSelfClosing]
      split_ifs
      · exact emit_fill f { t with selfClosing := true }
      · exact inBeforeName_fill f t c
  | textReference read =>
      have hDone : ∀ d, filled f (.data, [.char (i d)]) = (.data, [.char (j d)]) := fun d => by
        simp [filled, Mode.fill, Token.fill, hText]
      exact inReference_fill f .textReference (fun s => rfl) hDone read c
  | valueReference double t n v read =>
      have hDone : ∀ d, filled f (.quoted double t n (v ++ [i d]), []) =
          (.quoted double (t.fill f) n (v.flatMap f.value ++ [j d]), []) := fun d => by
        simp [filled, Mode.fill, hValue]
      exact inReference_fill f (.valueReference double t n v) (fun s => rfl) hDone read c

/-- To fill what was read is to read what was filled. -/
theorem read_fill (m : Mode A) (s : List Char) :
    read j (m.fill f) s = (read i m s).map (filled f) := by
  induction s generalizing m with
  | nil => rfl
  | cons c s ih =>
      simp only [read, step_fill f hText hValue]
      cases step i m c with
      | none => rfl
      | some r =>
          have hRest : read j (filled f r).1 s = (read i r.1 s).map (filled f) := ih r.1
          simp only [Option.map_some, Option.bind_some, hRest]
          cases read i r.1 s <;> simp [filled]

end Fill

/-! ### Templates -/

/-- A piece of a template: what is always written, or a place for something else. -/
inductive Piece (C : Type*) where
  | lit (s : List Char)
  | hole (c : C)

namespace Piece

def map (g : B → C) : Piece B → Piece C
  | .lit s => .lit s
  | .hole c => .hole (g c)

end Piece

/-- A template is read without looking at what is in its holes. They may stand
in the text and in quoted values. -/
def readPieces {C : Type*} : Mode (Char ⊕ C) → List (Piece C) → Reading (Char ⊕ C)
  | m, [] => some (m, [])
  | m, .lit s :: parts =>
      (read .inl m s).bind fun r =>
        (readPieces r.1 parts).map fun r' => (r'.1, r.2 ++ r'.2)
  | .data, .hole c :: parts =>
      (readPieces .data parts).map fun r => (r.1, .char (.inr c) :: r.2)
  | .quoted double t n v, .hole c :: parts => readPieces (.quoted double t n (v ++ [.inr c])) parts
  | _, .hole _ :: _ => none

/-- What is written into a hole and what it is to show. -/
structure Hole (K : Type*) where
  kind : K
  written : List Char
  shown : List Char

/-- Text that is read back as `shown`, between tags and in values. -/
inductive Shows : List Char → List Char → Prop where
  | nil : Shows [] []
  | plain {w s : List Char} (c : Char) (h : c ∉ ['&', '<', '"', '\'']) (rest : Shows w s) :
      Shows (c :: w) (c :: s)
  | reference {w s : List Char} (name : List Char) (d : Char) (h : (name, d) ∈ references)
      (rest : Shows w s) : Shows ('&' :: (name ++ ';' :: w)) (d :: s)

/-- The five characters that are not written as they are. -/
def escapeChar (c : Char) : List Char :=
  if c = '&' then "&amp;".toList
  else if c = '<' then "&lt;".toList
  else if c = '>' then "&gt;".toList
  else if c = '"' then "&quot;".toList
  else if c = '\'' then "&#39;".toList
  else [c]

def escape (s : List Char) : List Char := s.flatMap escapeChar

/-- An escaped text shows the text itself. -/
theorem shows_escape (s : List Char) : Shows (escape s) s := by
  induction s with
  | nil => exact .nil
  | cons c s ih =>
      rw [escape, List.flatMap_cons, ← escape, escapeChar]
      split_ifs with hAmp hLess hGreater hQuote hApostrophe
      · exact hAmp ▸ .reference "amp".toList '&' (by decide) ih
      · exact hLess ▸ .reference "lt".toList '<' (by decide) ih
      · exact hGreater ▸ .reference "gt".toList '>' (by decide) ih
      · exact hQuote ▸ .reference "quot".toList '"' (by decide) ih
      · exact hApostrophe ▸ .reference "#39".toList '\'' (by decide) ih
      · exact .plain c (by simp [hAmp, hLess, hQuote, hApostrophe]) ih

/-- A text without special characters shows as itself. -/
theorem shows_plain {s : List Char} (h : ∀ c ∈ s, c ∉ ['&', '<', '"', '\'']) : Shows s s := by
  induction s with
  | nil => exact .nil
  | cons c s ih =>
      obtain ⟨hFirst, hRest⟩ := List.forall_mem_cons.mp h
      exact .plain c hFirst (ih hRest)

/-- What a value shows of a character. -/
def inValue (c : Char) : Char := if c = '\x00' then '\uFFFD' else c

theorem read_textReference (i : Char → A) :
    ∀ p ∈ references, read i .data ('&' :: (p.1 ++ [';'])) = some (.data, [.char (i p.2)]) := by
  intro p hp
  simp only [references, List.mem_cons, List.not_mem_nil, or_false] at hp
  rcases hp with rfl | rfl | rfl | rfl | rfl <;> rfl

theorem read_valueReference (i : Char → A) (double : Bool) (t : Tag A) (n : List Char)
    (v : List A) : ∀ p ∈ references, read i (.quoted double t n v) ('&' :: (p.1 ++ [';'])) =
      some (.quoted double t n (v ++ [i p.2]), []) := by
  intro p hp
  simp only [references, List.mem_cons, List.not_mem_nil, or_false] at hp
  rcases hp with rfl | rfl | rfl | rfl | rfl <;> cases double <;> rfl

/-- Between tags it is read as its characters, without a tag among them. -/
theorem Shows.text {w s : List Char} (h : Shows w s) (i : Char → A) :
    read i .data w = some (.data, s.map fun c => .char (i c)) := by
  induction h with
  | nil => rfl
  | plain c hPlain rest ih =>
      simp only [List.mem_cons, List.not_mem_nil, or_false, not_or] at hPlain
      simp [read, step, inData, hPlain, ih]
  | @reference w s name d hName rest ih =>
      have hSplit : '&' :: (name ++ ';' :: w) = '&' :: (name ++ [';']) ++ w := by simp
      rw [hSplit, read_append, read_textReference i _ hName]
      simp [ih]

/-- Within quotes it is read into the value, which it does not end. -/
theorem Shows.value {w s : List Char} (h : Shows w s) (i : Char → A) (double : Bool) (t : Tag A)
    (n : List Char) (v : List A) : read i (.quoted double t n v) w =
      some (.quoted double t n (v ++ s.map fun c => i (inValue c)), []) := by
  induction h generalizing v with
  | nil => simp [read]
  | plain c hPlain rest ih =>
      simp only [List.mem_cons, List.not_mem_nil, or_false, not_or] at hPlain
      have hQuote : c ≠ quote double := by
        cases double
        · exact hPlain.2.2.2
        · exact hPlain.2.2.1
      by_cases hNull : c = '\x00'
      · subst hNull
        simp [read, step, inQuoted, hQuote, ih, inValue]
      · simp [read, step, inQuoted, hPlain, hQuote, ih, inValue, hNull]
  | @reference w s name d hName rest ih =>
      have hSplit : '&' :: (name ++ ';' :: w) = '&' :: (name ++ [';']) ++ w := by simp
      have hKept : ∀ p ∈ references, inValue p.2 = p.2 := by decide
      rw [hSplit, read_append, read_valueReference i double t n v _ hName]
      simp [ih, hKept _ hName]

section Holes

variable {K : Type*}

def holes (parts : List (Piece C)) : List C :=
  parts.filterMap fun
    | .lit _ => none
    | .hole c => some c

/-- The text of a filled template. -/
def render (parts : List (Piece (Hole K))) : List Char :=
  parts.flatMap fun
    | .lit s => s
    | .hole x => x.written

/-- What is read where a hole stands. -/
def contents : Filling (Char ⊕ Hole K) Char where
  text := Sum.elim (fun c => [c]) Hole.shown
  value := Sum.elim (fun c => [c]) fun x => x.shown.map inValue

/-- A template is read as it was, with the holes filled. -/
theorem read_render {m : Mode (Char ⊕ Hole K)} {parts : List (Piece (Hole K))}
    {r : Mode (Char ⊕ Hole K) × List (Token (Char ⊕ Hole K))} (h : readPieces m parts = some r)
    (hShows : ∀ x ∈ holes parts, Shows x.written x.shown) :
    read id (m.fill contents) (render parts) = some (filled contents r) := by
  fun_induction readPieces m parts generalizing r with
  | case1 m =>
      cases h
      rfl
  | case2 m s parts ih =>
      obtain ⟨first, hFirst, h⟩ := Option.bind_eq_some_iff.mp h
      obtain ⟨last, hLast, rfl⟩ := Option.map_eq_some_iff.mp h
      have hLit : read id (m.fill contents) s = some (filled contents first) := by
        rw [read_fill (i := .inl) (j := id) contents (fun c => rfl) (fun c => rfl), hFirst]
        rfl
      have hRest := ih first hLast hShows
      rw [render, List.flatMap_cons, ← render, read_append, hLit, Option.bind_some]
      change ((read id (first.1.fill contents) (render parts)).map _) = _
      rw [hRest]
      simp [filled]
  | case3 x parts ih =>
      obtain ⟨last, hLast, rfl⟩ := Option.map_eq_some_iff.mp h
      obtain ⟨hFirst, hRest⟩ := List.forall_mem_cons.mp hShows
      have hHole : read id .data x.written = some (.data, x.shown.map .char) := hFirst.text id
      rw [render, List.flatMap_cons, ← render, Mode.fill, read_append, hHole, Option.bind_some]
      have hParts : read id .data (render parts) = some (filled contents last) := ih hLast hRest
      simp [hParts, filled, Token.fill, contents]
  | case4 double t n v x parts ih =>
      obtain ⟨hFirst, hRest⟩ := List.forall_mem_cons.mp hShows
      have hHole := hFirst.value id double (t.fill contents) n (v.flatMap contents.value)
      have hParts := ih h hRest
      have hMode : (Mode.quoted double t n (v ++ [.inr x])).fill contents =
          .quoted double (t.fill contents) n
            (v.flatMap contents.value ++ x.shown.map fun c => id (inValue c)) := by
        simp [Mode.fill, contents]
      rw [render, List.flatMap_cons, ← render, Mode.fill, read_append, hHole, Option.bind_some,
        ← hMode, hParts]
      simp
  | case5 m c parts hData hQuoted => cases h

/-- Other contents, the same reading. -/
theorem readPieces_map (g : B → C) (m : Mode (Char ⊕ B)) (parts : List (Piece B)) :
    readPieces (m.fill (.ofMap (Sum.map id g))) (parts.map (Piece.map g)) =
      (readPieces m parts).map (filled (.ofMap (Sum.map id g))) := by
  fun_induction readPieces m parts with
  | case1 m => rfl
  | case2 m s parts ih =>
      simp only [List.map_cons, Piece.map, readPieces,
        read_fill (i := Sum.inl) (j := Sum.inl) (.ofMap (Sum.map id g)) (fun c => rfl)
          fun c => rfl]
      cases read Sum.inl m s with
      | none => rfl
      | some first =>
          simp only [Option.map_some, Option.bind_some, filled, ih first]
          cases readPieces first.1 parts <;> simp [filled]
  | case3 c parts ih =>
      rw [Mode.fill] at ih
      simp only [List.map_cons, Piece.map, Mode.fill, readPieces, ih]
      cases readPieces .data parts <;> simp [filled, Token.fill, Filling.ofMap]
  | case4 double t n v c parts ih =>
      simp only [Mode.fill, List.flatMap_append] at ih
      simp only [List.map_cons, Piece.map, Mode.fill, readPieces]
      exact ih
  | case5 m c parts hData hQuoted =>
      cases m with
      | data => exact absurd rfl hData
      | quoted double t n v => exact absurd rfl (hQuoted double t n v)
      | _ => rfl

/-- From text to text, with tags of this kind only. -/
def admitted (P : Tag A → Bool) : Reading A → Bool
  | some (.data, tokens) => tokens.all fun
      | .tag t => P t
      | .char _ => true
  | _ => false

def Admits (P : Tag (Char ⊕ C) → Bool) (parts : List (Piece C)) : Bool :=
  admitted P (readPieces .data parts)

/-- A template whose pieces are strings, character by character. -/
inductive Spelled : List (Piece C) → List (Piece C) → Prop where
  | nil : Spelled [] []
  | lit {l : List Char} {parts spelled : List (Piece C)} (rest : Spelled parts spelled) :
      Spelled (.lit (String.ofList l).toList :: parts) (.lit l :: spelled)
  | hole (c : C) {d : C} (h : d = c) {parts spelled : List (Piece C)}
      (rest : Spelled parts spelled) : Spelled (.hole d :: parts) (.hole c :: spelled)

theorem Spelled.eq {parts spelled : List (Piece C)} (h : Spelled parts spelled) :
    parts = spelled := by
  induction h with
  | nil => rfl
  | lit rest ih => rw [ih, String.toList_ofList]
  | hole c h rest ih => rw [ih, h]

/-- A template is admitted when it is read through and all its tags are. -/
theorem admits_iff {P : Tag (Char ⊕ C) → Bool} {parts : List (Piece C)} : Admits P parts = true ↔
    ∃ tokens, readPieces .data parts = some (.data, tokens) ∧
      ∀ t, .tag t ∈ tokens → P t = true := by
  unfold Admits admitted
  split
  · next tokens hRead =>
      simp only [hRead, List.all_eq_true, Option.some.injEq, Prod.mk.injEq, true_and,
        exists_eq_left']
      refine ⟨fun h t ht => h _ ht, fun h token hToken => ?_⟩
      cases token with
      | tag t => exact h t hToken
      | char a => rfl
  · next hRead =>
      refine iff_of_false (by simp) ?_
      rintro ⟨tokens, hTokens, -⟩
      exact hRead tokens hTokens

/-- Templates are read one after another in the same way. -/
theorem readPieces_append (m : Mode (Char ⊕ C)) (parts more : List (Piece C)) :
    readPieces m (parts ++ more) = (readPieces m parts).bind fun r =>
      (readPieces r.1 more).map fun r' => (r'.1, r.2 ++ r'.2) := by
  fun_induction readPieces m parts with
  | case1 m => cases hMore : readPieces m more <;> simp [hMore]
  | case2 m s parts ih =>
      simp only [List.cons_append, readPieces]
      cases read Sum.inl m s with
      | none => rfl
      | some first =>
          simp only [Option.bind_some, ih first]
          cases readPieces first.1 parts with
          | none => rfl
          | some second =>
              simp only [Option.bind_some, Option.map_some]
              cases readPieces second.1 more <;> simp
  | case3 c parts ih =>
      simp only [List.cons_append, readPieces, ih]
      cases readPieces .data parts with
      | none => rfl
      | some first =>
          simp only [Option.bind_some, Option.map_some]
          cases readPieces first.1 more <;> simp
  | case4 double t n v c parts ih =>
      simp only [List.cons_append, readPieces, ih]
  | case5 m c parts hData hQuoted =>
      cases m with
      | data => exact absurd rfl hData
      | quoted double t n v => exact absurd rfl (hQuoted double t n v)
      | _ => rfl

/-- Admission looks at each part. -/
theorem admits_append {P : Tag (Char ⊕ C) → Bool} {parts more : List (Piece C)}
    (h : Admits P parts = true) (hMore : Admits P more = true) :
    Admits P (parts ++ more) = true := by
  obtain ⟨tokens, hTokens, hTags⟩ := admits_iff.mp h
  obtain ⟨tokens', hTokens', hTags'⟩ := admits_iff.mp hMore
  refine admits_iff.mpr ⟨tokens ++ tokens', ?_, fun t ht => ?_⟩
  · simp [readPieces_append, hTokens, hTokens']
  · exact (List.mem_append.mp ht).elim (hTags t) (hTags' t)

/-- The template over the contents that it really has. -/
theorem exists_attached (parts : List (Piece C)) {l : List C} (h : ∀ x ∈ holes parts, x ∈ l) :
    ∃ attached : List (Piece {x // x ∈ l}), attached.map (Piece.map Subtype.val) = parts := by
  induction parts with
  | nil => exact ⟨[], rfl⟩
  | cons part parts ih =>
      cases part with
      | lit s =>
          obtain ⟨attached, hAttached⟩ := ih h
          exact ⟨.lit s :: attached, by simp [Piece.map, hAttached]⟩
      | hole x =>
          obtain ⟨hFirst, hRest⟩ := List.forall_mem_cons.mp h
          obtain ⟨attached, hAttached⟩ := ih hRest
          exact ⟨.hole ⟨x, hFirst⟩ :: attached, by simp [Piece.map, hAttached]⟩

/-- Characters only come of characters. -/
theorem eq_map_inl {g : B → C} {v : List (Char ⊕ B)} {w : List Char}
    (h : v.map (Sum.map id g) = w.map Sum.inl) : v = w.map Sum.inl := by
  induction v generalizing w with
  | nil => simpa using h.symm
  | cons a v ih =>
      cases w with
      | nil => cases h
      | cons c w =>
          simp only [List.map_cons, List.cons.injEq] at h ⊢
          obtain ⟨hFirst, hRest⟩ := h
          refine ⟨?_, ih hRest⟩
          cases a with
          | inl a => simpa using hFirst
          | inr x => cases hFirst

/-- The tags of a filled template are the tags of the template, filled. -/
theorem tag_mem_fill {f : Filling A B} {tokens : List (Token A)} {t : Tag B} :
    .tag t ∈ tokens.flatMap (Token.fill f) ↔ ∃ own, .tag own ∈ tokens ∧ t = own.fill f := by
  rw [List.mem_flatMap]
  constructor
  · rintro ⟨token, hToken, ht⟩
    cases token with
    | tag own => exact ⟨own, hToken, by simpa [Token.fill] using ht⟩
    | char a => simp [Token.fill] at ht
  · rintro ⟨own, hOwn, rfl⟩
    exact ⟨.tag own, hOwn, by simp [Token.fill]⟩

theorem fill_eq_data {f : Filling A B} {m : Mode A} (h : m.fill f = .data) : m = .data := by
  cases m <;> first | rfl | cases h

/-- What a browser reads of a filled template are the template's own tags, with
the contents of its holes inside values only. -/
theorem tags_of_admits {P : Tag (Char ⊕ K) → Bool} {parts : List (Piece (Hole K))}
    (h : Admits P (parts.map (Piece.map Hole.kind)) = true)
    (hShows : ∀ x ∈ holes parts, Shows x.written x.shown) :
    ∃ tokens, read id .data (render parts) = some (.data, tokens) ∧
      ∀ t, .tag t ∈ tokens → ∃ own : Tag (Char ⊕ {x // x ∈ holes parts}),
        P (own.fill (.ofMap (Sum.map id fun x => x.1.kind))) = true ∧
          t = (own.fill (.ofMap (Sum.map id Subtype.val))).fill contents := by
  obtain ⟨attached, hAttached⟩ := exists_attached parts fun x hx => hx
  obtain ⟨tokens, hTokens, hTags⟩ := admits_iff.mp h
  have hKinds : parts.map (Piece.map Hole.kind) = attached.map (Piece.map fun x => x.1.kind) := by
    refine (congrArg (List.map (Piece.map Hole.kind)) hAttached).symm.trans ?_
    rw [List.map_map]
    refine List.map_congr_left fun part _ => ?_
    cases part <;> rfl
  rw [hKinds] at hTokens
  have hMapped := readPieces_map (fun x : {x // x ∈ holes parts} => x.1.kind) .data attached
  obtain ⟨⟨m, own⟩, hOwn, hFilled⟩ := Option.map_eq_some_iff.mp (hMapped.symm.trans hTokens)
  simp only [filled, Prod.mk.injEq] at hFilled
  obtain rfl := fill_eq_data hFilled.1
  have hParts := readPieces_map (Subtype.val : {x // x ∈ holes parts} → Hole K) .data attached
  rw [hAttached, hOwn, Option.map_some] at hParts
  refine ⟨_, read_render (m := .data) hParts hShows, fun t ht => ?_⟩
  obtain ⟨middle, hMiddle, rfl⟩ := tag_mem_fill.mp ht
  obtain ⟨t₀, ht₀, rfl⟩ := tag_mem_fill.mp hMiddle
  exact ⟨t₀, hTags _ (hFilled.2 ▸ tag_mem_fill.mpr ⟨t₀, ht₀, rfl⟩), rfl⟩

end Holes

end Markup
