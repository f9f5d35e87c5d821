import NetConductor.Remote.Wire

/-! Sends that fail after some of their frames, and messages that are too long:
what the browser dispatches of the frames it has, as long as its link is open. -/
namespace NetConductor
open Pieces

variable {M N : Type}

/-- `sent` are the sends that have not failed, `fs` the frames of all of them. One
send may be torn: it put some of its frames, and only sends of one frame follow. -/
inductive Account (J : JSON M N) : Bool → List (M × Int64) → List Bytes → Prop where
  | whole (sent : List (M × Int64)) :
      Account J false sent (sent.flatMap fun t => frames t.2 (J.marshal t.1))
  | torn (before after : List (M × Int64)) {m : M} {id : Int64} {put rest : List Bytes} {f : Bytes}
      (hTorn : frames id (J.marshal m) = put ++ f :: rest)
      (hShort : ∀ t ∈ after, (J.marshal t.1).length ≤ 40000) :
      Account J true (before ++ after) ((before.flatMap fun t => frames t.2 (J.marshal t.1)) ++ put ++
        after.flatMap fun t => frames t.2 (J.marshal t.1))

theorem frames_short {J : JSON M N} {m : M} (id : Int64) (h : (J.marshal m).length ≤ 40000) :
    frames id (J.marshal m) = [J.marshal m] := by
  rw [frames, if_neg (Nat.not_lt.mpr h)]

/-! ### The sends of a session -/

section
variable {J : JSON M N} {torn : Bool} {sent : List (M × Int64)} {log : List Bytes} {m : M} {id : Int64}

/-- One more message is accounted for; behind a torn one it is in one frame. -/
theorem Account.snoc (h : Account J torn sent log)
    (hShort : torn = true → (J.marshal m).length ≤ 40000) :
    Account J torn (sent ++ [(m, id)]) (log ++ frames id (J.marshal m)) := by
  cases h with
  | whole =>
      have hWhole := Account.whole (J := J) (sent ++ [(m, id)])
      rwa [List.flatMap_append, List.flatMap_singleton] at hWhole
  | @torn before after m' id' put rest f hTorn hAfter =>
      have hTail := Account.torn before (after ++ [(m, id)]) hTorn fun t ht => by
        rcases List.mem_append.mp ht with ht | ht
        · exact hAfter t ht
        · rw [List.mem_singleton.mp ht]
          exact hShort rfl
      rwa [List.flatMap_append, List.flatMap_singleton, ← List.append_assoc, ← List.append_assoc]
        at hTail

/-- The holder of the mutex has put some frames of its message. The loop's
messages may be of any length, but it sends none after a torn one. -/
inductive Tally (J : JSON M N) (torn : Bool) :
    Option (Sender × List Bytes) → List (M × Int64) → List Bytes → Prop where
  | free {sent : List (M × Int64)} {log : List Bytes} (h : Account J torn sent log) :
      Tally J torn none sent log
  | held {sent : List (M × Int64)} {log put rest : List Bytes} {who : Sender} {m : M} {id : Int64}
      (h : Account J torn sent log) (hPut : frames id (J.marshal m) = put ++ rest)
      (hWho : (who = .loop ∧ torn = false) ∨ (J.marshal m).length ≤ 40000) :
      Tally J torn (some (who, rest)) (sent ++ [(m, id)]) (log ++ put)

theorem short_of_torn {who : Sender} (h : (who = .loop ∧ torn = false) ∨ (J.marshal m).length ≤ 40000)
    (hTorn : torn = true) : (J.marshal m).length ≤ 40000 := by
  rcases h with ⟨-, hWhole⟩ | hShort
  · rw [hWhole] at hTorn
    cases hTorn
  · exact hShort

/-- With the frames still to be put, the log is that of all sends. -/
theorem Tally.account {holder : Option (Sender × List Bytes)} (h : Tally J torn holder sent log) :
    ∃ rest, Account J torn sent (log ++ rest) := by
  cases h with
  | free h => exact ⟨[], by rwa [List.append_nil]⟩
  | @held sent log put rest who m id h hPut hWho =>
      refine ⟨rest, ?_⟩
      rw [List.append_assoc, ← hPut]
      exact h.snoc (short_of_torn hWho)

variable {s s' : Sending M} {who : Sender}

/-- Taking the lock counts the message as sent. -/
theorem Tally.lock (h : Tally J torn s.holder sent log) (hLock : s.lock J who m id = some s')
    (hWho : (who = .loop ∧ torn = false) ∨ (J.marshal m).length ≤ 40000) :
    Tally J torn s'.holder (sent ++ [(m, id)]) log := by
  obtain ⟨hFree, rfl⟩ := Sending.lock_some hLock
  rw [hFree] at h
  cases h with
  | free h =>
      have hHeld : Tally J torn _ (sent ++ [(m, id)]) (log ++ []) := Tally.held h rfl hWho
      rwa [List.append_nil] at hHeld

/-- A frame that goes out is counted. -/
theorem Tally.put {f : Bytes} (h : Tally J torn s.holder sent log) (hPut : s.put = some (f, s')) :
    Tally J torn s'.holder sent (log ++ [f]) := by
  obtain ⟨who, rest, hHeld, rfl⟩ := Sending.put_some hPut
  rw [hHeld] at h
  cases h with
  | held h hFrames hWho =>
      rw [List.append_assoc]
      exact .held h (by rw [hFrames, List.append_assoc, List.singleton_append]) hWho

/-- The mutex is free again when all frames of the message are put. -/
theorem Tally.unlock (h : Tally J torn s.holder sent log) (hUnlock : s.unlock = some s') :
    Tally J torn s'.holder sent log := by
  obtain ⟨who, hHeld, rfl⟩ := Sending.unlock_some hUnlock
  rw [hHeld] at h
  obtain ⟨rest, hAccount⟩ := h.account
  cases h with
  | held h hFrames hWho =>
      refine .free ?_
      rw [List.append_nil] at hFrames
      rw [← hFrames]
      exact h.snoc (short_of_torn hWho)

/-- What is left of a send that fails before its last frame: nothing, or the
frames of the loop's last send. -/
theorem Tally.fail {f : Bytes} {rest : List Bytes} (h : Tally J torn (some (who, f :: rest)) sent log) :
    ∃ torn', Tally J torn' none sent.dropLast log ∧ (torn' = torn ∨ who = .loop) := by
  cases h with
  | @held sent log put rest who m id h hFrames hWho =>
      rw [List.dropLast_concat]
      rcases hWho with ⟨hLoop, hWhole⟩ | hShort
      · subst hWhole
        cases h with
        | whole =>
            have hTorn := Account.torn sent [] hFrames (by simp)
            rw [List.append_nil, List.flatMap_nil, List.append_nil] at hTorn
            exact ⟨true, .free hTorn, .inr hLoop⟩
      · rw [frames_short id hShort] at hFrames
        have hLength := congrArg List.length hFrames
        simp only [List.length_append, List.length_cons, List.length_nil] at hLength
        obtain rfl : put = [] := List.eq_nil_of_length_eq_zero (by omega)
        exact ⟨torn, .free (by rwa [List.append_nil]), .inl rfl⟩

end

variable [DecidableEq N]

/-! ### One frame -/

/-- One message at most is dispatched, and none by what closes the link. -/
theorem receive_cases (J : JSON M N) (depth : Nat) (l : Link M N) (m : Incoming M N) :
    (l.receive J depth m).1.dispatched = l.dispatched ∨
      ((l.receive J depth m).1.closed = l.closed ∧ (l.receive J depth m).2 = false ∧
        ∃ told, (l.receive J depth m).1.dispatched = l.dispatched ++ [told]) := by
  induction depth generalizing l m with
  | zero =>
      cases m with
      | message m => exact .inr ⟨rfl, rfl, m, rfl⟩
      | chunk id data last => exact .inl rfl
  | succ depth ih =>
      cases m with
      | message m => exact .inr ⟨rfl, rfl, m, rfl⟩
      | chunk id data last =>
          simp only [Link.receive]
          split
          · exact .inl rfl
          · split
            · exact .inl (by unfold Link.fail; split <;> rfl)
            · split
              · split
                · exact .inl rfl
                · exact ih _ _
              · exact .inl rfl

/-- A frame completes one message at most. -/
theorem deliver_cases (J : JSON M N) (depth : Nat) (l : Link M N) (f : Path × Bytes) :
    (l.deliver J depth f).dispatched = l.dispatched ∨
      ((l.deliver J depth f).closed = l.closed ∧
        ∃ told, (l.deliver J depth f).dispatched = l.dispatched ++ [told]) := by
  have hFail : ∀ k : Link M N, k.fail.dispatched = k.dispatched := fun k => by
    unfold Link.fail
    split <;> rfl
  unfold Link.deliver
  split
  · split
    · exact .inl (hFail l)
    · exact .inl rfl
  · next m hParse =>
      dsimp only
      rcases receive_cases J depth l m with hSame | ⟨hClosed, hQuiet, told, hTold⟩
      · split
        · exact .inl ((hFail _).trans hSame)
        · exact .inl hSame
      · rw [if_neg (by rw [hQuiet]; simp)]
        exact .inr ⟨hClosed, told, hTold⟩

theorem closed_foldl {J : JSON M N} {depth : Nat} {l : Link M N} (fs : List (Path × Bytes))
    (h : l.closed = true) : (fs.foldl (Link.deliver J depth) l).closed = true :=
  (grows_foldl J depth l fs).closed h

/-! ### The frames of one message -/

section
variable {J : JSON M N} {number : Int64 → N} {depth : Nat} {key : N} {buffers : List Bytes}
  {dispatched : List M} {b : Bytes}

/-- A piece too many closes the link. -/
theorem deliver_over {f : Path × Bytes} {last : Bool}
    (hParse : J.parse f.2 = some (.chunk key (Base64.encode b) last))
    (h : Link.maxMessage < (buffers ++ [b]).flatten.length) :
    (Link.deliver J (depth + 1) ⟨collecting key buffers, dispatched, false⟩ f).closed = true := by
  have hOver : Link.maxMessage < buffers.flatten.length + b.length := by
    rwa [List.flatten_append, List.length_append, List.flatten_singleton] at h
  have hReceive : Link.receive J (depth + 1) ⟨collecting key buffers, dispatched, false⟩
      (.chunk key (Base64.encode b) last) = (⟨∅, dispatched, true⟩, false) := by
    simp only [Link.receive, Base64.atob_encode, lookup_collecting]
    rw [if_pos (.inl hOver)]
    rfl
  rw [deliver_of_parse hParse hReceive]

/-- A message that is too long closes the link. -/
theorem closed_of_pieces (hJ : ReadsBack J number) (id : Int64) {b : Bytes}
    (hLong : Link.maxMessage < b.length) {xs : Bytes} (hNonempty : xs ≠ []) :
    ∀ (buffers : List Bytes) (fs : List (Path × Bytes)),
      fs.map Prod.snd = (pieces 24000 xs).map (fun p => chunkFrame id p.1 p.2) →
      buffers.flatten ++ xs = b →
      (fs.foldl (Link.deliver J (depth + 1))
        ⟨collecting (number id) buffers, dispatched, false⟩).closed = true := by
  refine pieces_induction (n := 24000) (by decide) (P := fun xs => ∀ (buffers : List Bytes)
      (fs : List (Path × Bytes)),
      fs.map Prod.snd = (pieces 24000 xs).map (fun p => chunkFrame id p.1 p.2) →
      buffers.flatten ++ xs = b →
      (fs.foldl (Link.deliver J (depth + 1))
        ⟨collecting (number id) buffers, dispatched, false⟩).closed = true) ?_ ?_ xs hNonempty
  · intro xs hxs hLast buffers fs hFrames hBytes
    rw [pieces_last hxs hLast] at hFrames
    obtain ⟨f, rfl, hf⟩ := List.map_eq_singleton_iff.mp hFrames
    have hAll : (buffers ++ [xs]).flatten = b := by simpa using hBytes
    exact deliver_over (by rw [hf]; exact hJ.chunk id xs true) (by rw [hAll]; exact hLong)
  · intro xs hMore ih buffers fs hFrames hBytes
    rw [pieces_more (by decide) hMore, List.map_cons] at hFrames
    obtain ⟨f, rest, rfl, hf, hRest⟩ := List.map_eq_cons_iff.mp hFrames
    have hParse : J.parse f.2 = some (.chunk (number id) (Base64.encode (xs.take 24000)) false) := by
      rw [hf]
      exact hJ.chunk id _ false
    rw [List.foldl_cons]
    rcases Nat.lt_or_ge Link.maxMessage (buffers ++ [xs.take 24000]).flatten.length with hOver | hFits
    · exact closed_foldl rest (deliver_over hParse hOver)
    · rw [deliver_of_parse hParse (receive_more hFits)]
      exact ih _ rest hRest (by simpa using hBytes)

/-- All frames of a message. -/
theorem deliver_whole (depth : Nat) (dispatched : List M) (hJ : ReadsBack J number) (id : Int64) {m : M} {fs : List (Path × Bytes)}
    (hFrames : fs.map Prod.snd = frames id (J.marshal m)) :
    (fs.foldl (Link.deliver J (depth + 1)) ⟨∅, dispatched, false⟩).closed = true ∨
      fs.foldl (Link.deliver J (depth + 1)) ⟨∅, dispatched, false⟩ = ⟨∅, dispatched ++ [m], false⟩ := by
  rcases Nat.lt_or_ge Link.maxMessage (J.marshal m).length with hLong | hSize
  · have hCut : 40000 < (J.marshal m).length := by
      rw [Link.maxMessage] at hLong
      omega
    rw [frames, if_pos hCut] at hFrames
    exact .inl (closed_of_pieces hJ id hLong (List.ne_nil_of_length_pos (by omega)) [] fs hFrames rfl)
  · exact .inr (deliver_frames hJ id hSize hFrames)

/-- Some pieces of a message, but not the last one. -/
theorem deliver_pieces_torn (hJ : ReadsBack J number) (id : Int64) {xs : Bytes}
    (hNonempty : xs ≠ []) :
    ∀ (buffers : List Bytes) (fs : List (Path × Bytes)) (f : Bytes) (rest : List Bytes),
      (pieces 24000 xs).map (fun p => chunkFrame id p.1 p.2) = fs.map Prod.snd ++ f :: rest →
      (fs.foldl (Link.deliver J (depth + 1))
          ⟨collecting (number id) buffers, dispatched, false⟩).closed = true ∨
        ∃ parts, fs.foldl (Link.deliver J (depth + 1))
          ⟨collecting (number id) buffers, dispatched, false⟩ = ⟨parts, dispatched, false⟩ := by
  refine pieces_induction (n := 24000) (by decide) (P := fun xs => ∀ (buffers : List Bytes)
      (fs : List (Path × Bytes)) (f : Bytes) (rest : List Bytes),
      (pieces 24000 xs).map (fun p => chunkFrame id p.1 p.2) = fs.map Prod.snd ++ f :: rest →
      (fs.foldl (Link.deliver J (depth + 1))
          ⟨collecting (number id) buffers, dispatched, false⟩).closed = true ∨
        ∃ parts, fs.foldl (Link.deliver J (depth + 1))
          ⟨collecting (number id) buffers, dispatched, false⟩ = ⟨parts, dispatched, false⟩) ?_ ?_
    xs hNonempty
  · intro xs hxs hLast buffers fs f rest hFrames
    rw [pieces_last hxs hLast] at hFrames
    have hLength := congrArg List.length hFrames
    simp only [List.map_cons, List.map_nil, List.length_append, List.length_cons, List.length_nil,
      List.length_map] at hLength
    obtain rfl : fs = [] := List.eq_nil_of_length_eq_zero (by omega)
    exact .inr ⟨_, rfl⟩
  · intro xs hMore ih buffers fs f rest hFrames
    cases fs with
    | nil => exact .inr ⟨_, rfl⟩
    | cons first others =>
        rw [pieces_more (by decide) hMore] at hFrames
        obtain ⟨hFirst, hOthers⟩ := List.cons.inj hFrames
        have hParse : J.parse first.2 =
            some (.chunk (number id) (Base64.encode (xs.take 24000)) false) := by
          rw [← hFirst]
          exact hJ.chunk id _ false
        rw [List.foldl_cons]
        rcases Nat.lt_or_ge Link.maxMessage (buffers ++ [xs.take 24000]).flatten.length with
          hOver | hFits
        · exact .inl (closed_foldl others (deliver_over hParse hOver))
        · rw [deliver_of_parse hParse (receive_more hFits)]
          exact ih _ others f rest hOthers

/-- Some frames of a message, but not the last one. -/
theorem deliver_torn (depth : Nat) (dispatched : List M) (hJ : ReadsBack J number) {id : Int64} {m : M} {fs : List (Path × Bytes)}
    {f : Bytes} {rest : List Bytes} (h : frames id (J.marshal m) = fs.map Prod.snd ++ f :: rest) :
    (fs.foldl (Link.deliver J (depth + 1)) ⟨∅, dispatched, false⟩).closed = true ∨
      ∃ parts, fs.foldl (Link.deliver J (depth + 1)) ⟨∅, dispatched, false⟩ =
        ⟨parts, dispatched, false⟩ := by
  unfold frames at h
  split at h
  · next hLong =>
      exact deliver_pieces_torn hJ id (List.ne_nil_of_length_pos (by omega)) [] fs f rest h
  · have hLength := congrArg List.length h
    simp only [List.length_append, List.length_cons, List.length_nil, List.length_map] at hLength
    obtain rfl : fs = [] := List.eq_nil_of_length_eq_zero (by omega)
    exact .inr ⟨∅, rfl⟩

end

/-! ### The frames of all sends -/

section
variable {J : JSON M N} {number : Int64 → N} {depth : Nat} {dispatched : List M}

/-- A link that gets all frames of the messages has dispatched them, or is closed. -/
theorem deliver_sent (depth : Nat) (dispatched : List M) (hJ : ReadsBack J number) {sent : List (M × Int64)} {fs : List (Path × Bytes)}
    (hFrames : fs.map Prod.snd = sent.flatMap fun t => frames t.2 (J.marshal t.1)) :
    (fs.foldl (Link.deliver J (depth + 1)) ⟨∅, dispatched, false⟩).closed = true ∨
      fs.foldl (Link.deliver J (depth + 1)) ⟨∅, dispatched, false⟩ =
        ⟨∅, dispatched ++ sent.map Prod.fst, false⟩ := by
  induction sent generalizing fs dispatched with
  | nil =>
      obtain rfl : fs = [] := by simpa using hFrames
      exact .inr (by simp)
  | cons t sent ih =>
      rw [List.flatMap_cons] at hFrames
      obtain ⟨first, others, rfl, hFirst, hOthers⟩ := List.map_eq_append_iff.mp hFrames
      rw [List.foldl_append]
      rcases deliver_whole depth dispatched hJ t.2 hFirst with
        hClosed | hWhole
      · exact .inl (closed_foldl others hClosed)
      · rw [hWhole]
        rcases ih (dispatched ++ [t.1]) hOthers with hClosed | hRest
        · exact .inl hClosed
        · exact .inr (by rw [hRest]; simp)

/-- The first frames of some sends. -/
theorem deliver_some (depth : Nat) (dispatched : List M) (hJ : ReadsBack J number) {sent : List (M × Int64)} {fs : List (Path × Bytes)}
    {rest : List Bytes}
    (hFrames : fs.map Prod.snd ++ rest = sent.flatMap fun t => frames t.2 (J.marshal t.1)) :
    (fs.foldl (Link.deliver J (depth + 1)) ⟨∅, dispatched, false⟩).closed = true ∨
      (fs.foldl (Link.deliver J (depth + 1)) ⟨∅, dispatched, false⟩).dispatched <+:
        dispatched ++ sent.map Prod.fst := by
  induction sent generalizing fs dispatched with
  | nil =>
      obtain rfl : fs = [] := by simp at hFrames; exact hFrames.1
      exact .inr (by simp)
  | cons t sent ih =>
      rw [List.flatMap_cons] at hFrames
      rcases List.append_eq_append_iff.mp hFrames with ⟨missing, hFirst, -⟩ | ⟨more, hMore, hRest⟩
      · cases missing with
        | nil =>
            rw [List.append_nil] at hFirst
            rcases deliver_whole depth dispatched hJ t.2 hFirst.symm with
              hClosed | hWhole
            · exact .inl hClosed
            · refine .inr ?_
              rw [hWhole]
              exact ⟨sent.map Prod.fst, by simp⟩
        | cons f missing =>
            rcases deliver_torn depth dispatched hJ hFirst with
              hClosed | ⟨parts, hTorn⟩
            · exact .inl hClosed
            · refine .inr ?_
              rw [hTorn]
              exact List.prefix_append ..
      · obtain ⟨first, others, rfl, hFirst, hOthers⟩ := List.map_eq_append_iff.mp hMore
        rw [List.foldl_append]
        rcases deliver_whole depth dispatched hJ t.2 hFirst with
          hClosed | hWhole
        · exact .inl (closed_foldl others hClosed)
        · rw [hWhole]
          have hTail := ih (dispatched ++ [t.1]) (show others.map Prod.snd ++ rest = _ by
            rw [hOthers, hRest])
          rwa [List.append_assoc, List.singleton_append, ← List.map_cons] at hTail

/-- Messages of one frame each, whatever parts there are. -/
theorem deliver_short (dispatched : List M) (hJ : ReadsBack J number) {sent : List (M × Int64)}
    (hShort : ∀ t ∈ sent, (J.marshal t.1).length ≤ 40000) (parts : AList fun _ : N => Part)
    {fs : List (Path × Bytes)} {rest : List Bytes}
    (hFrames : fs.map Prod.snd ++ rest = sent.flatMap fun t => frames t.2 (J.marshal t.1)) :
    (fs.foldl (Link.deliver J depth) ⟨parts, dispatched, false⟩).dispatched <+:
      dispatched ++ sent.map Prod.fst := by
  induction sent generalizing fs dispatched with
  | nil =>
      obtain rfl : fs = [] := by simp at hFrames; exact hFrames.1
      simp
  | cons t sent ih =>
      rw [List.flatMap_cons, frames_short t.2 (hShort t (List.mem_cons_self ..))] at hFrames
      cases fs with
      | nil => exact List.prefix_append ..
      | cons f others =>
          obtain ⟨hFirst, hOthers⟩ := List.cons.inj hFrames
          have hDelivered : Link.deliver J depth ⟨parts, dispatched, false⟩ f =
              ⟨parts, dispatched ++ [t.1], false⟩ := by
            refine deliver_of_parse (m := .message t.1) ?_ ?_
            · rw [hFirst]
              exact hJ.message t.1
            · cases depth <;> rfl
          have hTail := ih (dispatched ++ [t.1]) (fun u hu => hShort u (List.mem_cons_of_mem t hu))
            hOthers
          rw [List.foldl_cons, hDelivered]
          rwa [List.append_assoc, List.singleton_append, ← List.map_cons] at hTail

/-- The frames that a torn send put, and the first ones of the sends after it. -/
theorem deliver_after_torn (hJ : ReadsBack J number) {after : List (M × Int64)} {m : M} {id : Int64}
    {put missing rest : List Bytes} {f : Bytes}
    (hTorn : frames id (J.marshal m) = put ++ f :: missing)
    (hShort : ∀ t ∈ after, (J.marshal t.1).length ≤ 40000) {fs : List (Path × Bytes)}
    (hFrames : fs.map Prod.snd ++ rest = put ++ after.flatMap fun t => frames t.2 (J.marshal t.1)) :
    (fs.foldl (Link.deliver J (depth + 1)) ⟨∅, dispatched, false⟩).closed = true ∨
      (fs.foldl (Link.deliver J (depth + 1)) ⟨∅, dispatched, false⟩).dispatched <+:
        dispatched ++ after.map Prod.fst := by
  rcases List.append_eq_append_iff.mp hFrames with ⟨late, hPut, -⟩ | ⟨more, hMore, hRest⟩
  · have hSome : frames id (J.marshal m) = fs.map Prod.snd ++ (late ++ f :: missing) := by
      rw [hTorn, hPut, List.append_assoc]
    obtain ⟨g, others, hLate⟩ : ∃ g others, late ++ f :: missing = g :: others := by
      cases late with
      | nil => exact ⟨f, missing, rfl⟩
      | cons g others => exact ⟨g, others ++ f :: missing, rfl⟩
    rw [hLate] at hSome
    rcases deliver_torn depth dispatched hJ hSome with
      hClosed | ⟨parts, hParts⟩
    · exact .inl hClosed
    · rw [hParts]
      exact .inr (List.prefix_append ..)
  · obtain ⟨first, others, rfl, hFirst, hOthers⟩ := List.map_eq_append_iff.mp hMore
    rw [List.foldl_append]
    rw [← hFirst] at hTorn
    rcases deliver_torn depth dispatched hJ hTorn with
      hClosed | ⟨parts, hParts⟩
    · exact .inl (closed_foldl others hClosed)
    · rw [hParts]
      exact .inr (deliver_short _ hJ hShort parts (by rw [hOthers, hRest]))

/-- While the link is open, what it has dispatched are the first of the
messages whose sends have not failed. -/
theorem dispatched_of_account (depth : Nat) (hJ : ReadsBack J number) {sent : List (M × Int64)}
    {torn : Bool} {log rest : List Bytes} (h : Account J torn sent log) {fs : List (Path × Bytes)}
    (hFrames : fs.map Prod.snd ++ rest = log) :
    (fs.foldl (Link.deliver J (depth + 1)) Link.new).closed = true ∨
      (fs.foldl (Link.deliver J (depth + 1)) Link.new).dispatched <+: sent.map Prod.fst := by
  rw [show Link.new = (⟨∅, [], false⟩ : Link M N) from rfl]
  cases h with
  | whole => exact deliver_some depth [] hJ hFrames
  | @torn before after m id put missing f hTorn hShort =>
      rw [List.append_assoc] at hFrames
      rcases List.append_eq_append_iff.mp hFrames with ⟨late, hEarly, -⟩ | ⟨more, hMore, hRest⟩
      · rcases deliver_some depth [] hJ hEarly.symm with hClosed | hSome
        · exact .inl hClosed
        · refine .inr (hSome.trans ?_)
          rw [List.map_append, List.nil_append]
          exact List.prefix_append ..
      · obtain ⟨first, others, rfl, hFirst, hOthers⟩ := List.map_eq_append_iff.mp hMore
        rw [List.foldl_append]
        rcases deliver_sent depth [] hJ hFirst with hClosed | hSent
        · exact .inl (closed_foldl others hClosed)
        · rw [hSent, List.nil_append, List.map_append]
          exact deliver_after_torn hJ hTorn hShort (by rw [hOthers, hRest])

end
end NetConductor
