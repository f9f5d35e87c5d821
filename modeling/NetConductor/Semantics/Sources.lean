import Mathlib.Data.List.Basic
import Mathlib.Logic.Relation

/-! Streams that are read in pieces: how a stream is cut says nothing about what
is read from it, buffered or not. A copy of one stream to another place loses
nothing on the way. -/
namespace Sources

/-- A read takes a piece off what is left. It is empty only if nothing is left
or nothing was asked for. -/
class Source (σ : Type*) (α : outParam Type*) where
  rest : σ → List α
  read : Nat → σ → List α × σ
  read_append : ∀ n s, (read n s).1 ++ rest (read n s).2 = rest s
  read_length : ∀ n s, (read n s).1.length ≤ n
  read_nonempty : ∀ n s, 0 < n → rest s ≠ [] → (read n s).1 ≠ []

open Source

variable {σ τ α : Type*} [Source σ α] [Source τ α]

/-- The end of a stream is known from an empty read. -/
theorem read_eq_nil {n : Nat} (hn : 0 < n) {s : σ} : (read n s).1 = [] ↔ rest s = [] := by
  constructor
  · intro hNil
    by_contra hRest
    exact read_nonempty n s hn hRest hNil
  · intro hRest
    have hAppend := read_append n s
    rw [hRest] at hAppend
    exact (List.append_eq_nil_iff.mp hAppend).1

theorem rest_of_read_nil {n : Nat} (hn : 0 < n) {s : σ} (hNil : (read n s).1 = []) :
    rest (read n s).2 = [] := by
  have hAppend := read_append n s
  rw [(read_eq_nil hn).mp hNil] at hAppend
  exact (List.append_eq_nil_iff.mp hAppend).2

/-! ### A stream in segments -/

/-- What a peer sends, as its reads will cut it. -/
structure Segments (α : Type*) where
  pieces : List (List α)
deriving DecidableEq

def readPieces (n : Nat) : List (List α) → List α × List (List α)
  | [] => ([], [])
  | [] :: rest => readPieces n rest
  | piece :: rest => (piece.take n, if n < piece.length then piece.drop n :: rest else rest)

/-- What is read and what is left are the pieces, in order. -/
theorem readPieces_append (n : Nat) (pieces : List (List α)) :
    (readPieces n pieces).1 ++ (readPieces n pieces).2.flatten = pieces.flatten := by
  induction pieces with
  | nil => rfl
  | cons piece rest ih =>
      cases piece with
      | nil => exact ih
      | cons x xs =>
          simp only [readPieces]
          split_ifs with hLess
          · rw [List.flatten_cons, ← List.append_assoc, List.take_append_drop, List.flatten_cons]
          · rw [List.take_of_length_le (Nat.not_lt.mp hLess), List.flatten_cons]

theorem readPieces_length (n : Nat) (pieces : List (List α)) :
    (readPieces n pieces).1.length ≤ n := by
  induction pieces with
  | nil => exact Nat.zero_le n
  | cons piece rest ih =>
      cases piece with
      | nil => exact ih
      | cons x xs => exact List.length_take_le n _

/-- While there are bytes a read gives some of them. -/
theorem readPieces_nonempty {n : Nat} (hn : 0 < n) (pieces : List (List α))
    (h : pieces.flatten ≠ []) : (readPieces n pieces).1 ≠ [] := by
  induction pieces with
  | nil => exact absurd rfl h
  | cons piece rest ih =>
      cases piece with
      | nil => exact ih h
      | cons x xs =>
          obtain ⟨m, rfl⟩ := Nat.exists_eq_succ_of_ne_zero (Nat.ne_of_gt hn)
          simp [readPieces]

instance : Source (Segments α) α where
  rest s := s.pieces.flatten
  read n s := ((readPieces n s.pieces).1, ⟨(readPieces n s.pieces).2⟩)
  read_append n s := readPieces_append n s.pieces
  read_length n s := readPieces_length n s.pieces
  read_nonempty _ s hn h := readPieces_nonempty hn s.pieces h

@[simp] theorem rest_segments (pieces : List (List α)) :
    rest (⟨pieces⟩ : Segments α) = pieces.flatten := rfl

/-! ### A buffer in front of a stream -/

/-- A stream read ahead by at most `size` at a time. -/
structure Buffered (σ α : Type*) (size : Nat) where
  buffer : List α
  under : σ
deriving DecidableEq

namespace Buffered

variable {size : Nat}

/-- A reader that has read nothing yet. -/
def new (s : σ) : Buffered σ α size := ⟨[], s⟩

/-- A large read with an empty buffer goes past it. -/
def readBuffered (n : Nat) (b : Buffered σ α size) : List α × Buffered σ α size :=
  if n = 0 then ([], b)
  else if b.buffer ≠ [] then (b.buffer.take n, ⟨b.buffer.drop n, b.under⟩)
  else if size ≤ n then ((read n b.under).1, ⟨[], (read n b.under).2⟩)
  else ((read size b.under).1.take n, ⟨(read size b.under).1.drop n, (read size b.under).2⟩)

instance : Source (Buffered σ α size) α where
  rest b := b.buffer ++ rest b.under
  read := readBuffered
  read_append n b := by
    unfold readBuffered
    split_ifs with hZero hBuffer hLarge
    · rfl
    · rw [← List.append_assoc, List.take_append_drop]
    · rw [not_not.mp hBuffer]
      exact read_append n b.under
    · rw [not_not.mp hBuffer, ← List.append_assoc, List.take_append_drop]
      exact read_append size b.under
  read_length n b := by
    unfold readBuffered
    split_ifs
    · exact Nat.zero_le n
    · exact List.length_take_le n _
    · exact read_length n b.under
    · exact List.length_take_le n _
  read_nonempty n b hn h := by
    unfold readBuffered
    rw [if_neg (Nat.ne_of_gt hn)]
    split_ifs with hBuffer hLarge
    · simpa [Nat.ne_of_gt hn] using hBuffer
    · rw [not_not.mp hBuffer] at h
      exact read_nonempty n b.under hn h
    · rw [not_not.mp hBuffer] at h
      have hSize : 0 < size := Nat.lt_trans hn (Nat.not_le.mp hLarge)
      simpa [Nat.ne_of_gt hn] using read_nonempty size b.under hSize h

theorem rest_eq (b : Buffered σ α size) : rest b = b.buffer ++ rest b.under := rfl

@[simp] theorem rest_new (s : σ) : rest (new s : Buffered σ α size) = rest s := rfl

/-- The next element, left in the buffer. -/
def peek (b : Buffered σ α size) : Option α × Buffered σ α size :=
  if b.buffer ≠ [] then (b.buffer.head?, b)
  else ((read size b.under).1.head?, ⟨(read size b.under).1, (read size b.under).2⟩)

/-- Peeking takes nothing. -/
@[simp] theorem rest_peek (b : Buffered σ α size) : rest b.peek.2 = rest b := by
  unfold peek
  split_ifs with hBuffer
  · rfl
  · rw [rest_eq b, not_not.mp hBuffer]
    exact read_append size b.under

/-- A peek shows the first element left. -/
theorem peek_eq (hSize : 0 < size) (b : Buffered σ α size) : b.peek.1 = (rest b).head? := by
  unfold peek
  split_ifs with hBuffer
  · rw [rest_eq, List.head?_append_of_ne_nil _ hBuffer]
  · rw [rest_eq, not_not.mp hBuffer, List.nil_append, ← read_append size b.under]
    by_cases hNil : (read size b.under).1 = []
    · simp [hNil, rest_of_read_nil hSize hNil]
    · rw [List.head?_append_of_ne_nil _ hNil]

end Buffered

/-! ### One of two streams -/

instance : Source (σ ⊕ τ) α where
  rest := Sum.elim rest rest
  read n := Sum.elim (fun s => ((read n s).1, .inl (read n s).2))
    fun s => ((read n s).1, .inr (read n s).2)
  read_append n s := by
    cases s with
    | inl s => exact read_append n s
    | inr s => exact read_append n s
  read_length n s := by
    cases s with
    | inl s => exact read_length n s
    | inr s => exact read_length n s
  read_nonempty n s hn h := by
    cases s with
    | inl s => exact read_nonempty n s hn h
    | inr s => exact read_nonempty n s hn h

@[simp] theorem rest_inl (s : σ) : rest (Sum.inl s : σ ⊕ τ) = rest s := rfl
@[simp] theorem rest_inr (s : τ) : rest (Sum.inr s : σ ⊕ τ) = rest s := rfl

/-! ### Reading a number of elements -/

/-- Read on until `n` elements are there or no more come; each read brings one
at least. -/
def readOn : Nat → Nat → σ → List α × σ
  | 0, _, s => ([], s)
  | fuel + 1, n, s =>
      if n = 0 ∨ (read n s).1 = [] then ([], s)
      else
        let more := readOn fuel (n - (read n s).1.length) (read n s).2
        ((read n s).1 ++ more.1, more.2)

def readFull (n : Nat) (s : σ) : List α × σ := readOn n n s

/-- Reading on until there are enough gives the first `n` bytes, or all of them. -/
theorem readOn_eq {fuel n : Nat} {s : σ} (hFuel : n ≤ fuel) :
    (readOn fuel n s).1 = (rest s).take n ∧ rest (readOn fuel n s).2 = (rest s).drop n := by
  induction fuel generalizing n s with
  | zero =>
      obtain rfl := Nat.le_zero.mp hFuel
      exact ⟨rfl, rfl⟩
  | succ fuel ih =>
      by_cases hEnd : n = 0 ∨ (read n s).1 = []
      · have hNone : (rest s).take n = [] ∧ (rest s).drop n = rest s := by
          by_cases hn : n = 0
          · rw [hn]
            exact ⟨rfl, rfl⟩
          · rw [(read_eq_nil (Nat.pos_of_ne_zero hn)).mp (hEnd.resolve_left hn)]
            exact ⟨List.take_nil, List.drop_nil⟩
        rw [readOn, if_pos hEnd]
        exact ⟨hNone.1.symm, hNone.2.symm⟩
      · have hSome := List.length_pos_of_ne_nil (not_or.mp hEnd).2
        have hLength := read_length n s
        obtain ⟨hTake, hDrop⟩ :=
          ih (n := n - (read n s).1.length) (s := (read n s).2) (by omega)
        rw [readOn, if_neg hEnd]
        dsimp only
        rw [hTake, hDrop, ← read_append n s]
        constructor
        · rw [List.take_append, List.take_of_length_le hLength]
        · rw [List.drop_append, List.drop_of_length_le hLength, List.nil_append]

/-- What is read does not depend on how the stream is cut. -/
theorem readFull_eq (n : Nat) (s : σ) :
    (readFull n s).1 = (rest s).take n ∧ rest (readFull n s).2 = (rest s).drop n :=
  readOn_eq (Nat.le_refl n)

/-! ### Copying -/

inductive CopyStatus where
  | copying
  | ended
  | failed
deriving DecidableEq

/-- A copy under way: what is to be read, the piece in hand, and what has come
to the other side. -/
structure Copying (σ α : Type*) where
  source : σ
  hand : List α
  delivered : List α
  status : CopyStatus

/-- A write may take the piece in hand in parts. -/
inductive CopyAction where
  | read (n : Nat)
  | write (n : Nat)
  | fail
deriving DecidableEq

namespace Copying

def start (s : σ) : Copying σ α := ⟨s, [], [], .copying⟩

def act (c : Copying σ α) : CopyAction → Option (Copying σ α)
  | .read n =>
      if c.status = .copying ∧ c.hand = [] ∧ 0 < n then
        if (read n c.source).1 = [] then some { c with source := (read n c.source).2, status := .ended }
        else some { c with source := (read n c.source).2, hand := (read n c.source).1 }
      else none
  | .write n =>
      if c.status = .copying ∧ 0 < n ∧ n ≤ c.hand.length then
        some { c with hand := c.hand.drop n, delivered := c.delivered ++ c.hand.take n }
      else none
  | .fail => if c.status = .copying then some { c with status := .failed } else none

/-- Nothing is lost, and at the end of the stream nothing is left. -/
structure Conserves (c : Copying σ α) (input : List α) : Prop where
  all : c.delivered ++ c.hand ++ rest c.source = input
  ended : c.status = .ended → c.hand = [] ∧ rest c.source = []

/-- Nothing is under way or still to come. -/
def Drained (c : Copying σ α) : Prop := c.hand = [] ∧ rest c.source = []

variable {c d : Copying σ α} {input : List α}

theorem conserves_start (s : σ) : (start s).Conserves (rest s) := ⟨rfl, fun h => by cases h⟩

/-- Every step of a copy, a failing one too, keeps what it has taken out in order. -/
theorem Conserves.act (h : c.Conserves input) {a : CopyAction} (hAct : c.act a = some d) :
    d.Conserves input := by
  cases a with
  | read n =>
      simp only [Copying.act] at hAct
      split_ifs at hAct with hReady hEnd
      · obtain ⟨-, hHand, hn⟩ := hReady
        have hNone := (read_eq_nil hn).mp hEnd
        have hAfter := rest_of_read_nil hn hEnd
        cases hAct
        refine ⟨?_, fun _ => ⟨hHand, hAfter⟩⟩
        rw [← h.all, hNone]
        exact congrArg _ hAfter
      · obtain ⟨hCopying, hHand, hn⟩ := hReady
        cases hAct
        refine ⟨?_, fun hEnded => absurd (hCopying.symm.trans hEnded) (by simp)⟩
        rw [← h.all, hHand, List.append_assoc, read_append, List.append_nil]
  | write n =>
      simp only [Copying.act] at hAct
      split_ifs at hAct with hReady
      cases hAct
      refine ⟨?_, fun hEnded => absurd (hReady.1.symm.trans hEnded) (by simp)⟩
      rw [← h.all, List.append_assoc c.delivered, List.take_append_drop]
  | fail =>
      simp only [Copying.act] at hAct
      split_ifs at hAct
      cases hAct
      exact ⟨h.all, fun hEnded => by cases hEnded⟩

/-- What has come over is a beginning of the stream. -/
theorem Conserves.begins (h : c.Conserves input) : c.delivered <+: input :=
  ⟨c.hand ++ rest c.source, by rw [← List.append_assoc, h.all]⟩

theorem Conserves.drained_iff (h : c.Conserves input) : c.Drained ↔ c.delivered = input := by
  rw [← h.all, List.append_assoc, Drained]
  simp

/-- A failed copy or one that has ended does nothing more. -/
theorem act_of_over (hOver : c.status ≠ .copying) (a : CopyAction) : c.act a = none := by
  cases a <;> simp [act, hOver]

/-- Without a failure a copy runs or has come to the end. -/
theorem act_status {a : CopyAction} (hNoFail : a ≠ .fail) (hAct : c.act a = some d) :
    d.status = .copying ∨ d.status = .ended := by
  cases a with
  | read n =>
      simp only [act] at hAct
      split_ifs at hAct with hReady hEnd
      · cases hAct
        exact .inr rfl
      · cases hAct
        exact .inl hReady.1
  | write n =>
      simp only [act] at hAct
      split_ifs at hAct with hReady
      cases hAct
      exact .inl hReady.1
  | fail => exact absurd rfl hNoFail

/-- A step of a copy that meets no error. -/
def Goes (c d : Copying σ α) : Prop := ∃ a, a ≠ .fail ∧ c.act a = some d

/-- A piece in hand can be written. -/
theorem exists_written (hCopying : c.status = .copying) :
    ∃ d, Relation.ReflTransGen Goes c d ∧ d.status = .copying ∧ d.hand = [] ∧
      rest d.source = rest c.source := by
  by_cases hHand : c.hand = []
  · exact ⟨c, .refl, hCopying, hHand, rfl⟩
  · have hWrite : c.act (.write c.hand.length) =
        some { c with hand := c.hand.drop c.hand.length,
                      delivered := c.delivered ++ c.hand.take c.hand.length } :=
      if_pos ⟨hCopying, List.length_pos_of_ne_nil hHand, Nat.le_refl _⟩
    exact ⟨_, .single ⟨_, by simp, hWrite⟩, hCopying, List.drop_length, rfl⟩

/-- A copy can always go on to the end of its stream. -/
theorem exists_ended (hCopying : c.status = .copying) :
    ∃ d, Relation.ReflTransGen Goes c d ∧ d.status = .ended := by
  induction hLeft : (rest c.source).length using Nat.strongRecOn generalizing c with
  | ind left ih =>
      subst hLeft
      obtain ⟨e, hWritten, hGoing, hHand, hRest⟩ := exists_written hCopying
      have hReady : e.status = .copying ∧ e.hand = [] ∧ 0 < 1 := ⟨hGoing, hHand, Nat.one_pos⟩
      by_cases hEnd : (read 1 e.source).1 = []
      · have hRead : e.act (.read 1) = some { e with source := (read 1 e.source).2, status := .ended } := by
          rw [act, if_pos hReady, if_pos hEnd]
        exact ⟨_, hWritten.tail ⟨_, by simp, hRead⟩, rfl⟩
      · have hRead : e.act (.read 1) =
            some { e with source := (read 1 e.source).2, hand := (read 1 e.source).1 } := by
          rw [act, if_pos hReady, if_neg hEnd]
        have hLess : (rest (read 1 e.source).2).length < (rest c.source).length := by
          have hPiece := List.length_pos_of_ne_nil hEnd
          rw [← hRest, ← read_append 1 e.source, List.length_append]
          omega
        obtain ⟨d, hOn, hEnded⟩ := ih _ hLess (c := { e with
          source := (read 1 e.source).2, hand := (read 1 e.source).1 }) hGoing rfl
        exact ⟨d, (hWritten.tail ⟨_, by simp, hRead⟩).trans hOn, hEnded⟩

end Copying
end Sources
