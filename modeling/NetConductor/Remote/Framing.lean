import Mathlib.Data.List.AList
import Mathlib.Data.Nat.Digits.Defs
import NetConductor.Semantics.Pieces
import NetConductor.Semantics.Transition
import NetConductor.Text.Base64

/-! The messages of a remote session on their way to the browser: `Session.send`
cuts a long one into chunks, `Link.receive` puts them together again. -/
namespace NetConductor
open Pieces Transition

abbrev Bytes := List UInt8

/-- What `JSON.parse` makes of a frame: an object of type `chunk`, or a message
of a session, none of which has that type. -/
inductive Incoming (M N : Type) where
  | chunk (id : N) (data : List Char) (last : Bool)
  | message (m : M)

/-- JSON at both ends; `N` stands for the numbers of JavaScript. -/
structure JSON (M N : Type) where
  marshal : M → Bytes
  parse : Bytes → Option (Incoming M N)

variable {M N : Type}

/-! ### Sending -/

/-- JSON text of a chunk; Go writes the keys of a map in order. -/
def chunkText (id : Int64) (data : Bytes) (last : Bool) : List Char :=
  "\x7b\"chunk\":".toList ++ (toString id.toInt).toList ++ ",\"data\":\"".toList ++
    Base64.encode data ++ "\",\"last\":".toList ++ (toString last).toList ++
    ",\"type\":\"chunk\"\x7d".toList

/-- The bytes of a text without any character beyond ASCII. -/
def asciiBytes (text : List Char) : Bytes := text.map fun c => .ofNat c.toNat

def chunkFrame (id : Int64) (data : Bytes) (last : Bool) : Bytes := asciiBytes (chunkText id data last)

/-- The calls of `sendBytes` in one `send`; the id is the clock's value. -/
def frames (id : Int64) (b : Bytes) : List Bytes :=
  if 40000 < b.length then (pieces 24000 b).map fun p => chunkFrame id p.1 p.2 else [b]

/-- The goroutines that call `send`. -/
inductive Sender where
  | loop
  | stdout
  | stderr
  | terminalEnd
deriving DecidableEq

/-- The sends in the order in which they took `sendMu`, each with its clock
value, and what the holder of the mutex has still to put on a channel. -/
structure Sending (M : Type) where
  taken : List (M × Int64)
  holder : Option (Sender × List Bytes)

namespace Sending

def sent (s : Sending M) : List M := s.taken.map Prod.fst

def lock (J : JSON M N) (who : Sender) (m : M) (id : Int64) (s : Sending M) : Option (Sending M) :=
  match s.holder with
  | none => some ⟨s.taken ++ [(m, id)], some (who, frames id (J.marshal m))⟩
  | some _ => none

/-- One call of `sendBytes`. -/
def put (s : Sending M) : Option (Bytes × Sending M) :=
  match s.holder with
  | some (who, f :: rest) => some (f, { s with holder := some (who, rest) })
  | _ => none

def unlock (s : Sending M) : Option (Sending M) :=
  match s.holder with
  | some (_, []) => some { s with holder := none }
  | _ => none

end Sending

/-! ### Receiving -/

structure Part where
  buffers : List Bytes
  size : Nat

/-- The browser's end, with the messages it has dispatched. -/
structure Link (M N : Type) where
  parts : AList fun _ : N => Part
  dispatched : List M
  closed : Bool

namespace Link

def new : Link M N := ⟨∅, [], false⟩

def fail (l : Link M N) : Link M N :=
  if l.closed then l else { l with parts := ∅, closed := true }

def maxMessage : Nat := 4 * 1024 * 1024

variable [DecidableEq N]

/-- The new link, and whether an exception was thrown. A reassembled message is
received in turn, as deep as the stack allows. -/
def receive (J : JSON M N) : Nat → Link M N → Incoming M N → Link M N × Bool
  | _, l, .message m => ({ l with dispatched := l.dispatched ++ [m] }, false)
  | 0, l, .chunk _ _ _ => (l, true)
  | depth + 1, l, .chunk id data last =>
      let part := (l.parts.lookup id).getD ⟨[], 0⟩
      match Base64.atob data with
      | none => ({ l with parts := l.parts.insert id part }, true)
      | some b =>
          let size := part.size + b.length
          if maxMessage < size ∨ 4 < (l.parts.insert id ⟨part.buffers, size⟩).entries.length then
            (fail { l with parts := l.parts.insert id ⟨part.buffers, size⟩ }, false)
          else
            let buffers := part.buffers ++ [b]
            let parts := l.parts.insert id ⟨buffers, size⟩
            if last then
              match J.parse buffers.flatten with
              | none => ({ l with parts := parts.erase id }, true)
              | some m => receive J depth { l with parts := parts.erase id } m
            else ({ l with parts := parts }, false)

end Link

/-- The two ways from a session to the browser. -/
inductive Path where
  | direct
  | relayed
deriving DecidableEq

/-- `onmessage` of the data channel ignores exceptions, that of the WebSocket
fails on them. -/
def Link.deliver [DecidableEq N] (J : JSON M N) (depth : Nat) (l : Link M N) (f : Path × Bytes) :
    Link M N :=
  match J.parse f.2 with
  | none => if f.1 = .relayed then l.fail else l
  | some m =>
      let r := l.receive J depth m
      if r.2 = true ∧ f.1 = .relayed then r.1.fail else r.1

/-! ### Sizes -/

/-- A clock value has twenty characters at most. -/
theorem length_toString_id (id : Int64) : (toString id.toInt).toList.length ≤ 20 := by
  have hLower := id.le_toInt
  have hUpper := id.toInt_lt
  have hDigits : ∀ n : Nat, n ≤ 2 ^ 63 → (Nat.repr n).length ≤ 19 := fun n hn =>
    Nat.repr_length n 19 (by decide) (by omega)
  cases hId : id.toInt with
  | ofNat n =>
      have hRepr : toString (Int.ofNat n) = Nat.repr n := rfl
      rw [hRepr, String.length_toList]
      rw [hId, Int.ofNat_eq_natCast] at hUpper
      have hn := hDigits n (by omega)
      omega
  | negSucc n =>
      have hRepr : toString (Int.negSucc n) = "-" ++ Nat.repr (n + 1) := rfl
      rw [hRepr, String.length_toList, String.length_append]
      rw [hId, Int.negSucc_eq] at hLower
      have hn := hDigits (n + 1) (by omega)
      have hSign : "-".length = 1 := rfl
      omega

/-- The length of a chunk, by its parts. -/
theorem length_chunkText (id : Int64) (data : Bytes) (last : Bool) :
    (chunkText id data last).length = 43 + (toString id.toInt).toList.length +
      (Base64.encode data).length + (toString last).toList.length := by
  have hOpen : "\x7b\"chunk\":".toList.length = 9 := by decide +kernel
  have hKey : ",\"data\":\"".toList.length = 9 := by decide +kernel
  have hFlag : "\",\"last\":".toList.length = 9 := by decide +kernel
  have hClose : ",\"type\":\"chunk\"\x7d".toList.length = 16 := by decide +kernel
  unfold chunkText
  rw [List.length_append, List.length_append, List.length_append, List.length_append,
    List.length_append, List.length_append, hOpen, hKey, hFlag, hClose]
  omega

/-- A chunk fits the limit that the server reads with. -/
theorem length_chunkFrame {data : Bytes} (id : Int64) (last : Bool) (h : data.length ≤ 24000) :
    (chunkFrame id data last).length < 48 * 1024 := by
  have hId := length_toString_id id
  have hLast : (toString last).toList.length ≤ 5 := by cases last <;> decide +kernel
  rw [chunkFrame, asciiBytes, List.length_map, length_chunkText, Base64.encode_length]
  omega

/-- Every call of `sendBytes` stays below 48 KiB. -/
theorem length_frames {id : Int64} {b f : Bytes} (h : f ∈ frames id b) : f.length < 48 * 1024 := by
  unfold frames at h
  split at h
  · obtain ⟨p, hp, rfl⟩ := List.mem_map.mp h
    exact length_chunkFrame id p.2 (length_le_of_mem_pieces hp)
  · rw [List.mem_singleton.mp h]
    omega

/-! ### Putting together -/

/-- What is read back from JSON: every message, and every chunk with its id as
a number of JavaScript, which need not be exact. -/
structure ReadsBack (J : JSON M N) (number : Int64 → N) : Prop where
  message : ∀ m, J.parse (J.marshal m) = some (.message m)
  chunk : ∀ id data last,
    J.parse (chunkFrame id data last) = some (.chunk (number id) (Base64.encode data) last)

section
variable [DecidableEq N]

/-- The map of parts when only one message is on its way. -/
def collecting (key : N) (buffers : List Bytes) : AList fun _ : N => Part :=
  if buffers = [] then ∅ else AList.insert key ⟨buffers, buffers.flatten.length⟩ ∅

theorem lookup_collecting (key : N) (buffers : List Bytes) :
    ((collecting key buffers).lookup key).getD ⟨[], 0⟩ = ⟨buffers, buffers.flatten.length⟩ := by
  unfold collecting
  split
  · next h => simp [h]
  · rw [AList.lookup_insert]
    rfl

theorem insert_collecting (key : N) (buffers : List Bytes) (p : Part) :
    (collecting key buffers).insert key p = AList.insert key p ∅ := by
  unfold collecting
  split
  · rfl
  · exact AList.insert_insert ..

theorem erase_singleton (key : N) (p : Part) :
    (AList.insert key p (∅ : AList fun _ : N => Part)).erase key = ∅ := by
  apply AList.ext
  exact List.kerase_cons_eq rfl

variable {J : JSON M N} {number : Int64 → N} {depth : Nat} {key : N} {buffers : List Bytes}
  {dispatched : List M} {b : Bytes}

/-- One more piece fits: there is no other message on its way, and the pieces
are not too long together. -/
theorem piece_fits (h : (buffers ++ [b]).flatten.length ≤ Link.maxMessage) (p : Part) :
    ¬(Link.maxMessage < buffers.flatten.length + b.length ∨
      4 < (AList.insert key p (∅ : AList fun _ : N => Part)).entries.length) := by
  rw [List.flatten_append, List.length_append, List.flatten_singleton] at h
  have hOne : (AList.insert key p (∅ : AList fun _ : N => Part)).entries.length = 1 := rfl
  rw [hOne]
  omega

/-- A chunk that is not the last is kept. -/
theorem receive_more (h : (buffers ++ [b]).flatten.length ≤ Link.maxMessage) :
    Link.receive J (depth + 1) ⟨collecting key buffers, dispatched, false⟩
        (.chunk key (Base64.encode b) false) =
      (⟨collecting key (buffers ++ [b]), dispatched, false⟩, false) := by
  have hParts : collecting key (buffers ++ [b]) =
      AList.insert key ⟨buffers ++ [b], buffers.flatten.length + b.length⟩ ∅ := by
    rw [collecting, if_neg (by simp), List.flatten_append, List.length_append, List.flatten_singleton]
  simp only [Link.receive, Base64.atob_encode, lookup_collecting, insert_collecting,
    if_neg (piece_fits h _), Bool.false_eq_true, if_false, hParts]

/-- The last chunk dispatches the message and forgets the others. -/
theorem receive_last {m : M} (h : (buffers ++ [b]).flatten.length ≤ Link.maxMessage)
    (hm : J.parse (buffers ++ [b]).flatten = some (.message m)) :
    Link.receive J (depth + 1) ⟨collecting key buffers, dispatched, false⟩
        (.chunk key (Base64.encode b) true) = (⟨∅, dispatched ++ [m], false⟩, false) := by
  simp only [Link.receive, Base64.atob_encode, lookup_collecting, insert_collecting,
    if_neg (piece_fits h _), if_true, hm, erase_singleton]

theorem deliver_of_parse {l l' : Link M N} {f : Path × Bytes} {m : Incoming M N}
    (hParse : J.parse f.2 = some m) (h : l.receive J depth m = (l', false)) :
    l.deliver J depth f = l' := by
  simp [Link.deliver, hParse, h]

/-- The pieces of a message, on whichever paths they come, make it up again. -/
theorem deliver_pieces (hJ : ReadsBack J number) (id : Int64) {m : M}
    (hSize : (J.marshal m).length ≤ Link.maxMessage) {xs : Bytes} (hNonempty : xs ≠ []) :
    ∀ (buffers : List Bytes) (fs : List (Path × Bytes)),
      fs.map Prod.snd = (pieces 24000 xs).map (fun p => chunkFrame id p.1 p.2) →
      buffers.flatten ++ xs = J.marshal m →
      fs.foldl (Link.deliver J (depth + 1)) ⟨collecting (number id) buffers, dispatched, false⟩ =
        ⟨∅, dispatched ++ [m], false⟩ := by
  refine pieces_induction (n := 24000) (by decide) (P := fun xs => ∀ (buffers : List Bytes)
      (fs : List (Path × Bytes)),
      fs.map Prod.snd = (pieces 24000 xs).map (fun p => chunkFrame id p.1 p.2) →
      buffers.flatten ++ xs = J.marshal m →
      fs.foldl (Link.deliver J (depth + 1)) ⟨collecting (number id) buffers, dispatched, false⟩ =
        ⟨∅, dispatched ++ [m], false⟩) ?_ ?_ xs hNonempty
  · intro xs hxs hLast buffers fs hFrames hBytes
    rw [pieces_last hxs hLast] at hFrames
    obtain ⟨f, rfl, hf⟩ := List.map_eq_singleton_iff.mp hFrames
    have hAll : (buffers ++ [xs]).flatten = J.marshal m := by simpa using hBytes
    exact deliver_of_parse (by rw [hf]; exact hJ.chunk id xs true)
      (receive_last (by rw [hAll]; exact hSize) (by rw [hAll]; exact hJ.message m))
  · intro xs hMore ih buffers fs hFrames hBytes
    rw [pieces_more (by decide) hMore, List.map_cons] at hFrames
    obtain ⟨f, rest, rfl, hf, hRest⟩ := List.map_eq_cons_iff.mp hFrames
    have hAll : (buffers ++ [xs.take 24000]).flatten ++ xs.drop 24000 = J.marshal m := by
      simpa using hBytes
    have hFits : (buffers ++ [xs.take 24000]).flatten.length ≤ Link.maxMessage := by
      rw [← hAll, List.length_append] at hSize
      omega
    rw [List.foldl_cons, deliver_of_parse (by rw [hf]; exact hJ.chunk id _ false) (receive_more hFits)]
    exact ih _ rest hRest hAll

/-- Whatever the length of a message, its frames deliver it and leave no part behind. -/
theorem deliver_frames (hJ : ReadsBack J number) (id : Int64) {m : M}
    (hSize : (J.marshal m).length ≤ Link.maxMessage) {fs : List (Path × Bytes)}
    (hFrames : fs.map Prod.snd = frames id (J.marshal m)) :
    fs.foldl (Link.deliver J (depth + 1)) ⟨∅, dispatched, false⟩ = ⟨∅, dispatched ++ [m], false⟩ := by
  unfold frames at hFrames
  split at hFrames
  · next hLong =>
      have hNonempty : J.marshal m ≠ [] := by
        intro hNil
        rw [hNil] at hLong
        simp at hLong
      exact deliver_pieces hJ id hSize hNonempty [] fs hFrames rfl
  · obtain ⟨f, rfl, hf⟩ := List.map_eq_singleton_iff.mp hFrames
    exact deliver_of_parse (by rw [hf]; exact hJ.message m) rfl

/-- The frames of any number of messages. -/
theorem deliver_all (depth : Nat) (dispatched : List M) (hJ : ReadsBack J number) {taken : List (M × Int64)}
    (hSize : ∀ t ∈ taken, (J.marshal t.1).length ≤ Link.maxMessage) {fs : List (Path × Bytes)}
    (hFrames : fs.map Prod.snd = taken.flatMap fun t => frames t.2 (J.marshal t.1)) :
    fs.foldl (Link.deliver J (depth + 1)) ⟨∅, dispatched, false⟩ =
      ⟨∅, dispatched ++ taken.map Prod.fst, false⟩ := by
  induction taken generalizing fs dispatched with
  | nil =>
      obtain rfl : fs = [] := by simpa using hFrames
      simp
  | cons t rest ih =>
      rw [List.flatMap_cons] at hFrames
      obtain ⟨first, others, rfl, hFirst, hOthers⟩ := List.map_eq_append_iff.mp hFrames
      rw [List.foldl_append, deliver_frames hJ t.2 (hSize t (List.mem_cons_self ..)) hFirst,
        ih _ (fun u hu => hSize u (List.mem_cons_of_mem t hu)) hOthers]
      simp

end

/-! ### What is dispatched stays dispatched -/

/-- Messages are dispatched one after another, and a closed link stays closed. -/
structure Grows (l l' : Link M N) : Prop where
  dispatched : l.dispatched <+: l'.dispatched
  closed : l.closed = true → l'.closed = true

theorem Grows.refl (l : Link M N) : Grows l l := ⟨List.prefix_rfl, fun h => h⟩

theorem Grows.trans {l l' l'' : Link M N} (h : Grows l l') (h' : Grows l' l'') : Grows l l'' :=
  ⟨h.dispatched.trans h'.dispatched, fun hClosed => h'.closed (h.closed hClosed)⟩

theorem grows_fail (l : Link M N) : Grows l l.fail := by
  unfold Link.fail
  split
  · exact .refl l
  · exact ⟨List.prefix_rfl, fun _ => rfl⟩

variable [DecidableEq N]

/-- What is dispatched stays so, and a closed link stays closed. -/
theorem grows_receive (J : JSON M N) (depth : Nat) (l : Link M N) (m : Incoming M N) :
    Grows l (l.receive J depth m).1 := by
  induction depth generalizing l m with
  | zero =>
      cases m with
      | message m => exact ⟨List.prefix_append .., fun h => h⟩
      | chunk id data last => exact .refl l
  | succ depth ih =>
      cases m with
      | message m => exact ⟨List.prefix_append .., fun h => h⟩
      | chunk id data last =>
          have hParts : ∀ parts, Grows l { l with parts := parts } := fun parts =>
            ⟨List.prefix_rfl, fun h => h⟩
          simp only [Link.receive]
          split
          · exact hParts _
          · split
            · exact (hParts _).trans (grows_fail _)
            · split
              · split
                · exact hParts _
                · exact (hParts _).trans (ih _ _)
              · exact hParts _

/-- The same of a frame. -/
theorem grows_deliver (J : JSON M N) (depth : Nat) (l : Link M N) (f : Path × Bytes) :
    Grows l (l.deliver J depth f) := by
  unfold Link.deliver
  split
  · split
    · exact grows_fail l
    · exact .refl l
  · next m hParse =>
      dsimp only
      split
      · exact (grows_receive J depth l m).trans (grows_fail _)
      · exact grows_receive J depth l m

theorem grows_foldl (J : JSON M N) (depth : Nat) (l : Link M N) (fs : List (Path × Bytes)) :
    Grows l (fs.foldl (Link.deliver J depth) l) := by
  induction fs generalizing l with
  | nil => exact .refl l
  | cons f rest ih => exact (grows_deliver J depth l f).trans (ih _)

end NetConductor
