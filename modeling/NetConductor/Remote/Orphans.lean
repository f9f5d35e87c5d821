import NetConductor.Remote.Confinement

/-! What becomes of a session on a device: the device drops it when it reads a
close, which the handler of its request writes last. -/
namespace NetConductor
open Transition

variable {S : Type} {C : SDPCodec S}

def isClose (s : Option Nat × Message) : Bool := s.2.type = "close"

/-- No close is before an offer of the same id. -/
def OffersFirst (sent : List (Option Nat × Message)) : Prop :=
  sent.Pairwise fun s s' => isClose s = true → isOffer s' = true → s.2.sid ≠ s'.2.sid

/-- A message keeps the order when its session was not closed before. -/
theorem OffersFirst.append {sent : List (Option Nat × Message)} {s : Option Nat × Message}
    (hOrder : OffersFirst sent)
    (hs : isOffer s = true → ∀ s' ∈ sent, isClose s' = true → s'.2.sid ≠ s.2.sid) :
    OffersFirst (sent ++ [s]) := by
  refine List.pairwise_append.mpr ⟨hOrder, List.pairwise_singleton _ _, fun s' hs' x hx hClose hOffer => ?_⟩
  rw [List.mem_singleton.mp hx] at hOffer ⊢
  exact hs hOffer s' hs' hClose

namespace BrowserPhase

/-- The close is written, if that succeeded. -/
def signedOff : BrowserPhase → Bool
  | .unregistering | .ending | .closing | .done => true
  | _ => false

/-- The handler has not returned. -/
def running : BrowserPhase → Bool
  | .answered _ | .done => false
  | _ => true

end BrowserPhase

/-- The device has no session of that id, and has no offer of it to read. -/
def AgentConn.Forgotten (c : AgentConn) (sid : String) : Prop :=
  c.sessions.lookup sid = none ∧ ∀ s ∈ c.sent.drop c.read, isOffer s = true → s.2.sid ≠ sid

/-- The sessions kept are those of offers read, and of no close read. -/
structure AgentConn.Keeps (c : AgentConn) : Prop where
  offered : ∀ sid, c.sessions.lookup sid ≠ none →
    ∃ s ∈ c.sent.take c.read, isOffer s = true ∧ s.2.sid = sid
  open_ : ∀ sid, c.sessions.lookup sid ≠ none →
    ∀ s ∈ c.sent.take c.read, isClose s = true → s.2.sid ≠ sid
  bounded : c.sessions.entries.length ≤ 8
  read : c.read ≤ c.sent.length

namespace Hub

/-- Each session a device keeps has a running handler bound to its connection, or
a close on the way to it, or the connection is closed. -/
def NoOrphans (h : Hub) : Prop :=
  ∀ (n : Nat) (c : AgentConn), h.conns[n]? = some c → ∀ sid, c.sessions.lookup sid ≠ none →
    (∃ (b : Nat) (w : Browser), h.handlers[b]? = some w ∧ w.sid = some sid ∧ w.agent = some n ∧
      w.phase.running = true) ∨
    (∃ s ∈ c.sent.drop c.read, s.2.type = "close" ∧ s.2.sid = sid) ∨
    .agent n ∈ h.closed ∨ c.ended = true

/-- The write of a close fails only on a connection that is closed, or where the
device has nothing of that session. -/
def closesArrive (h : Hub) : HubLabel → Prop
  | .browser b (.sendClose false) => ∀ w ∈ h.handlers[b]?, ∀ n ∈ w.agent, ∀ c ∈ h.conns[n]?,
      .agent n ∈ h.closed ∨ c.ended = true ∨ c.Forgotten (w.sid.getD "")
  | _ => True

instance (c : AgentConn) (sid : String) : Decidable (c.Forgotten sid) :=
  inferInstanceAs (Decidable (_ ∧ _))

instance (h : Hub) (l : HubLabel) : Decidable (h.closesArrive l) := by
  unfold closesArrive
  split <;> infer_instance

variable {h t : Hub} {l : HubLabel} {b n : Nat} {w w' : Browser} {c c' : AgentConn}

/-! ### The device -/

/-- Messages that are not read yet change nothing. -/
theorem keeps_sent (hc : c.Keeps) (tail : List (Option Nat × Message)) :
    ({ c with sent := c.sent ++ tail } : AgentConn).Keeps where
  offered sid hSession := by
    simp only [List.take_append_of_le_length hc.read]
    exact hc.offered sid hSession
  open_ sid hSession := by
    simp only [List.take_append_of_le_length hc.read]
    exact hc.open_ sid hSession
  bounded := hc.bounded
  read := by
    rw [List.length_append]
    exact Nat.le_trans hc.read (Nat.le_add_right _ _)

/-- Reading keeps it: a session comes with an offer and goes with a close. -/
theorem keeps_reads {b : Option Nat} {m : Message} {failure : Option String} (hc : c.Keeps)
    (hOrder : OffersFirst c.sent) (hNext : c.sent[c.read]? = some (b, m)) :
    ({ c with read := c.read + 1 }.receive C m failure).Keeps := by
  have hTake : c.sent.take (c.read + 1) = c.sent.take c.read ++ [(b, m)] := by
    rw [List.take_add_one, hNext]
    rfl
  have hRead : c.read + 1 ≤ c.sent.length := (List.getElem?_eq_some_iff.mp hNext).1
  have hOffered : ∀ sid, c.sessions.lookup sid ≠ none →
      ∃ s ∈ c.sent.take (c.read + 1), isOffer s = true ∧ s.2.sid = sid := by
    intro sid hSession
    obtain ⟨s, hs, hOffer⟩ := hc.offered sid hSession
    exact ⟨s, hTake ▸ List.mem_append_left _ hs, hOffer⟩
  have hOpen : ∀ sid, c.sessions.lookup sid ≠ none → (isClose (b, m) = true → m.sid ≠ sid) →
      ∀ s ∈ c.sent.take (c.read + 1), isClose s = true → s.2.sid ≠ sid := by
    intro sid hSession hLast s hs
    rw [hTake] at hs
    rcases List.mem_append.mp hs with hOld | hNew
    · exact hc.open_ sid hSession s hOld
    · rw [List.mem_singleton.mp hNew]
      exact hLast
  rcases AgentConn.receive_cases C m failure { c with read := c.read + 1 } with ⟨hType, hSame⟩ |
    ⟨hType, o, session, -, -, hAbsent, hRoom, hOffer⟩ | ⟨hType, hClose⟩
  · rw [hSame]
    refine ⟨hOffered, fun sid hSession => hOpen sid hSession fun hClose => ?_, hc.bounded, hRead⟩
    exact absurd (by simpa [isClose] using hClose) hType
  · rw [hOffer]
    have hNot : isClose (b, m) = false := by simp [isClose, hType]
    refine ⟨fun sid hSession => ?_, fun sid hSession => ?_, ?_, hRead⟩
    · by_cases hSID : sid = m.sid
      · refine ⟨(b, m), ?_, by simp [isOffer, hType], hSID.symm⟩
        exact hTake ▸ List.mem_append_right _ (List.mem_singleton_self _)
      · rw [AList.lookup_insert_ne hSID] at hSession
        exact hOffered sid hSession
    · by_cases hSID : sid = m.sid
      · -- a close that was read is before this offer
        subst hSID
        intro s hs hClose
        rw [hTake] at hs
        rcases List.mem_append.mp hs with hOld | hNew
        · obtain ⟨hLength, hGet⟩ := List.getElem?_eq_some_iff.mp hNext
          have hSplit : c.sent = c.sent.take c.read ++ (b, m) :: c.sent.drop (c.read + 1) := by
            rw [← hGet, List.getElem_cons_drop, List.take_append_drop]
          rw [OffersFirst, hSplit] at hOrder
          exact (List.pairwise_append.mp hOrder).2.2 s hOld (b, m) List.mem_cons_self hClose
            (by simp [isOffer, hType])
        · rw [List.mem_singleton.mp hNew, hNot] at hClose
          cases hClose
      · rw [AList.lookup_insert_ne hSID] at hSession
        exact hOpen sid hSession fun hClose => by rw [hNot] at hClose; cases hClose
    · change (c.sessions.insert m.sid c.created.length).entries.length ≤ 8
      rw [AList.entries_insert, List.length_cons]
      exact Nat.succ_le_of_lt (Nat.lt_of_le_of_lt (List.kerase_sublist _ _).length_le hRoom)
  · rw [hClose]
    refine ⟨fun sid hSession => ?_, fun sid hSession => ?_, ?_, hRead⟩
    · obtain ⟨i, hi⟩ := Option.ne_none_iff_exists'.mp hSession
      exact hOffered sid (by simp [(lookup_of_erase hi).2])
    · obtain ⟨i, hi⟩ := Option.ne_none_iff_exists'.mp hSession
      exact hOpen sid (by simp [(lookup_of_erase hi).2]) fun _ => Ne.symm (lookup_of_erase hi).1
    · exact Nat.le_trans (List.kerase_sublist _ _).length_le hc.bounded

/-- Whatever else happens to a connection, its sessions are those of offers read. -/
theorem keeps_changes (hc : c.Keeps) (hOrder : OffersFirst c.sent)
    (hChange : ConnChanges C h n c c') : c'.Keeps := by
  cases hChange with
  | same => exact hc
  | moves hMoves =>
      cases hMoves with
      | turns => exact ⟨hc.offered, hc.open_, hc.bounded, hc.read⟩
      | reads failure hOpen hNext => exact keeps_reads hc hOrder hNext
      | ends => exact ⟨fun sid hSession => absurd rfl hSession, fun sid hSession => absurd rfl hSession,
          Nat.zero_le _, hc.read⟩
      | handles => exact ⟨hc.offered, hc.open_, hc.bounded, hc.read⟩
  | found => exact ⟨hc.offered, hc.open_, hc.bounded, hc.read⟩
  | ponged =>
      have hSent := keeps_sent hc [(none, pong)]
      exact ⟨hSent.offered, hSent.open_, hSent.bounded, hSent.read⟩
  | hears => exact keeps_sent hc _

/-- A device without a session of an id gets none from other messages. -/
theorem forgotten_reads {b : Option Nat} {m : Message} {failure : Option String} {sid : String}
    (hGone : c.Forgotten sid) (hNext : c.sent[c.read]? = some (b, m)) :
    ({ c with read := c.read + 1 }.receive C m failure).Forgotten sid := by
  obtain ⟨hLength, hGet⟩ := List.getElem?_eq_some_iff.mp hNext
  have hDrop : c.sent.drop c.read = (b, m) :: c.sent.drop (c.read + 1) := by
    rw [← hGet, List.getElem_cons_drop]
  have hRest : ∀ s ∈ c.sent.drop (c.read + 1), isOffer s = true → s.2.sid ≠ sid :=
    fun s hs => hGone.2 s (hDrop ▸ List.mem_cons_of_mem _ hs)
  rcases AgentConn.receive_cases C m failure { c with read := c.read + 1 } with ⟨-, hSame⟩ |
    ⟨hType, o, session, -, -, -, -, hOffer⟩ | ⟨-, hClose⟩
  · rw [hSame]
    exact ⟨hGone.1, hRest⟩
  · rw [hOffer]
    have hOther : m.sid ≠ sid :=
      hGone.2 (b, m) (hDrop ▸ List.mem_cons_self) (by simp [isOffer, hType])
    exact ⟨(AList.lookup_insert_ne (Ne.symm hOther)).trans hGone.1, hRest⟩
  · rw [hClose]
    refine ⟨?_, hRest⟩
    by_contra hSession
    obtain ⟨i, hi⟩ := Option.ne_none_iff_exists'.mp hSession
    have hOld : c.sessions.lookup sid = some i := (lookup_of_erase hi).2
    rw [hGone.1] at hOld
    cases hOld

/-- What is forgotten stays forgotten. -/
theorem forgotten_sent {sid : String} (hGone : c.Forgotten sid) {s : Option Nat × Message}
    (hs : isOffer s = true → s.2.sid ≠ sid) :
    ({ c with sent := c.sent ++ [s] } : AgentConn).Forgotten sid := by
  refine ⟨hGone.1, fun x hx => ?_⟩
  simp only [List.drop_append] at hx
  rcases List.mem_append.mp hx with hOld | hNew
  · exact hGone.2 x hOld
  · rw [List.mem_singleton.mp (List.mem_of_mem_drop hNew)]
    exact hs

/-! ### The handlers -/

/-- A handler writes a close when it is done with offers. -/
structure Closing (h : Hub) : Prop where
  signedOff : ∀ (b : Nat) (w : Browser) (n : Nat) (c : AgentConn), h.handlers[b]? = some w →
    h.conns[n]? = some c → ∀ s ∈ c.sent, wrote b "close" s = true → w.phase.signedOff = true
  order : ∀ (n : Nat) (c : AgentConn), h.conns[n]? = some c → OffersFirst c.sent
  keeps : ∀ (n : Nat) (c : AgentConn), h.conns[n]? = some c → c.Keeps

/-- A request that has signed off stays so. -/
theorem signedOff_changes (hChange : BrowserChanges C h b w w') (hOff : w.phase.signedOff = true) :
    w'.phase.signedOff = true := by
  cases hChange with
  | same => exact hOff
  | moves hMoves =>
      cases hMoves with
      | handles => exact hOff
      | stays => exact hOff
      | refused => rfl
      | skipped => rfl
      | ending => rfl
      | closing => rfl
      | _ hPhase => simp [hPhase, BrowserPhase.signedOff] at hOff
  | closed => rfl
  | removed => rfl
  | counted hPhase => simp [hPhase, BrowserPhase.signedOff] at hOff
  | upgraded hPhase => simp [hPhase, BrowserPhase.signedOff] at hOff
  | inserted hPhase => simp [hPhase, BrowserPhase.signedOff] at hOff
  | forwarded hPhase => simp [hPhase, BrowserPhase.signedOff] at hOff

/-- A message with a request's id was written by that request. -/
theorem Addressed.wrote_by (hAddr : Addressed h) (hw : h.handlers[b]? = some w)
    (hc : h.conns[n]? = some c) {s : Option Nat × Message} (hs : s ∈ c.sent)
    (hSID : w.sid = some s.2.sid) (hNot : s.2 ≠ pong) :
    wrote b s.2.type s = true ∧ w.agent = some n := by
  have hMay := hAddr.sent n c hc s hs
  obtain ⟨_ | b', m⟩ := s
  · exact absurd hMay hNot
  · obtain ⟨⟨w', hw', -, hSID'⟩, w₂, hw₂, hAgent⟩ := hMay
    obtain rfl := hAddr.unique b b' w w' m.sid hw hw' hSID hSID'
    cases hw.symm.trans hw₂
    exact ⟨by simp [wrote], hAgent⟩

/-- Every step keeps the closes behind the offers, and those of requests that have
signed off. -/
theorem Closing.step (hInv : Closing h) (hModed : Moded C h) (hStep : Step C h l t) : Closing t where
  keeps := by
    refine hStep.conns.forall hInv.keeps (fun n c c' hc hKeeps hChange => ?_) fun n c hNew => ?_
    · exact keeps_changes hKeeps (hInv.order n c hc) hChange
    · obtain ⟨credentials, cfg, rfl⟩ := hNew
      constructor <;> simp
  signedOff := by
    intro b w' n c' hw' hc' s hs hWrote
    rcases hStep.writes with hQuiet | ⟨b₀, w₀, n₀, m, p, hWrites⟩
    · rcases hQuiet.conns.before n c' hc' with ⟨c, hc, -, hSent⟩ | ⟨-, _, _, rfl⟩
      · have hOld : s ∈ c.sent := by
          rcases hSent with hSent | hSent
          · rwa [hSent] at hs
          · rw [hSent] at hs
            rcases List.mem_append.mp hs with hOld | hNew
            · exact hOld
            · rw [List.mem_singleton.mp hNew, not_wrote_pong] at hWrote
              cases hWrote
        rcases hQuiet.handlers.before b w' hw' with ⟨w, hw, hChange, -⟩ | ⟨hNone, -⟩
        · exact signedOff_changes hChange (hInv.signedOff b w n c hw hc s hOld hWrote)
        · rw [hModed.addressed.not_wrote hNone hc hOld] at hWrote
          cases hWrote
      · simp at hs
    · -- the writer is signed off if the message is a close
      have hOld : ∀ c : AgentConn, h.conns[n]? = some c → s ∈ c.sent → w'.phase.signedOff = true := by
        intro c hc hs
        rcases hWrites.handler hw' with ⟨rfl, rfl⟩ | ⟨-, hw⟩
        · have hOff := hInv.signedOff b w₀ n c hWrites.browser hc s hs hWrote
          rcases hWrites.phase with ⟨hPhase, -⟩ | ⟨hPhase, -⟩ <;>
            simp [hPhase, BrowserPhase.signedOff] at hOff
        · exact hInv.signedOff b w' n c hw hc s hs hWrote
      rcases hWrites.conn hc' with ⟨-, c₀, hc₀, rfl⟩ | ⟨-, hc⟩
      · rcases List.mem_append.mp hs with hs | hNew
        · exact hOld c₀ hc₀ hs
        · rw [List.mem_singleton.mp hNew] at hWrote
          obtain ⟨rfl, hType⟩ := wrote_new.mp hWrote
          rcases hWrites.handler hw' with ⟨-, rfl⟩ | ⟨hOther, -⟩
          · rcases hWrites.phase with ⟨hPhase, -⟩ | ⟨-, -, rfl⟩
            · rcases ((hModed.checked _ _ hWrites.browser).forwarding m hPhase).2.2 with
                ⟨hOffer, -⟩ | hRelay
              · rw [hOffer] at hType
                exact absurd hType (by decide)
              · rw [hRelay] at hType
                exact absurd hType (by decide)
            · rfl
          · exact absurd rfl hOther
      · exact hOld c' hc hs
  order := by
    intro n c' hc'
    rcases hStep.writes with hQuiet | ⟨b₀, w₀, n₀, m, p, hWrites⟩
    · rcases hQuiet.conns.before n c' hc' with ⟨c, hc, -, hSent | hSent⟩ | ⟨-, _, _, rfl⟩
      · rw [hSent]
        exact hInv.order n c hc
      · rw [hSent]
        exact (hInv.order n c hc).append fun hOffer => by cases hOffer
      · exact List.Pairwise.nil
    · rcases hWrites.conn hc' with ⟨rfl, c₀, hc₀, rfl⟩ | ⟨-, hc⟩
      · refine (hInv.order n c₀ hc₀).append fun hOffer s hs hClose hSID => ?_
        have hType : s.2.type = "close" := by simpa [isClose] using hClose
        have hOwn := sid_of_writes (hModed.addressed.placed _ _ hWrites.browser)
          (hWrites.phase.imp And.left fun hLeft => ⟨hLeft.1, hLeft.2.1⟩)
        have hWrote := (hModed.addressed.wrote_by hWrites.browser hc₀ hs (hSID ▸ hOwn)
          fun hPong => by rw [hPong] at hType; exact absurd hType (by decide)).1
        have hOff := hInv.signedOff _ _ _ _ hWrites.browser hc₀ s hs (hType ▸ hWrote)
        rcases hWrites.phase with ⟨hPhase, -⟩ | ⟨hPhase, -⟩ <;>
          simp [hPhase, BrowserPhase.signedOff] at hOff
      · exact hInv.order n c' hc

/-! ### Requests that have signed off -/

/-- The device drops the session, or has no session to drop. -/
def Gone (closed : List WebSocket) (b n : Nat) (c : AgentConn) (sid : String) : Prop :=
  .agent n ∈ closed ∨ c.ended = true ∨ (∃ s ∈ c.sent, wrote b "close" s = true) ∨ c.Forgotten sid

def AllGone (h : Hub) : Prop :=
  ∀ (b : Nat) (w : Browser) (n : Nat) (c : AgentConn) (sid : String), h.handlers[b]? = some w →
    w.phase.signedOff = true → w.agent = some n → w.sid = some sid → h.conns[n]? = some c →
    Gone h.closed b n c sid

/-- A session that is gone, or about to be, stays so. -/
theorem gone_changes {closed closed' : List WebSocket} {sid : String}
    (hClosed : closed ⊆ closed') (hChange : ConnChanges C h n c c') (hPongs : OnlyPongs c c')
    (hGone : Gone closed b n c sid) : Gone closed' b n c' sid := by
  have hSent : (∃ s ∈ c.sent, wrote b "close" s = true) → ∃ s ∈ c'.sent, wrote b "close" s = true := by
    rintro ⟨s, hs, hWrote⟩
    refine ⟨s, ?_, hWrote⟩
    rcases hPongs with hSame | hPong
    · rwa [hSame]
    · rw [hPong]
      exact List.mem_append_left _ hs
  have hEnded : c.ended = true → c'.ended = true := by
    intro hEnded
    cases hChange with
    | moves hMoves =>
        cases hMoves with
        | reads failure hOpen => simp [hEnded] at hOpen
        | ends => rfl
        | _ => exact hEnded
    | _ => exact hEnded
  have hForgotten : c.Forgotten sid → c'.ended = true ∨ c'.Forgotten sid := by
    intro hOld
    cases hChange with
    | same => exact .inr hOld
    | moves hMoves =>
        cases hMoves with
        | turns => exact .inr hOld
        | reads failure hOpen hNext => exact .inr (forgotten_reads hOld hNext)
        | ends => exact .inl rfl
        | handles => exact .inr hOld
    | found => exact .inr hOld
    | ponged => exact .inr (forgotten_sent hOld fun hOffer => by cases hOffer)
    | hears => rcases hPongs with hSame | hPong
               · simp at hSame
               · simp at hPong
  rcases hGone with hShut | hEnd | hClose | hOld
  · exact .inl (hClosed hShut)
  · exact .inr (.inl (hEnded hEnd))
  · exact .inr (.inr (.inl (hSent hClose)))
  · exact (hForgotten hOld).elim (fun hEnd => .inr (.inl hEnd)) fun hNew => .inr (.inr (.inr hNew))

/-- Who has signed off had done so before, was only just admitted, or was leaving. -/
theorem signedOff_before (hChange : BrowserChanges C h b w w') (hOff : w'.phase.signedOff = true) :
    w'.agent = w.agent ∧ w'.sid = w.sid ∧
      (w.phase.signedOff = true ∨ w.phase = .admitted ∨ w.phase = .leaving) := by
  cases hChange with
  | same => exact ⟨rfl, rfl, .inl hOff⟩
  | moves hMoves =>
      cases hMoves with
      | refused hPhase => exact ⟨rfl, rfl, .inr (.inl hPhase)⟩
      | skipped hPhase => exact ⟨rfl, rfl, .inr (.inr hPhase)⟩
      | ending hPhase => exact ⟨rfl, rfl, .inl (by rw [hPhase]; rfl)⟩
      | closing hPhase => exact ⟨rfl, rfl, .inl (by rw [hPhase]; rfl)⟩
      | handles => exact ⟨rfl, rfl, .inl hOff⟩
      | stays => exact ⟨rfl, rfl, .inl hOff⟩
      | makes => exact ⟨rfl, rfl, .inl hOff⟩
      | _ => cases hOff
  | counted => rcases h.count_cases w with ⟨r, hCount⟩ | ⟨-, -, hCount⟩ <;> rw [hCount] at hOff <;> cases hOff
  | closed hPhase => exact ⟨rfl, rfl, .inr (.inr hPhase)⟩
  | removed hPhase => exact ⟨rfl, rfl, .inl (by rw [hPhase]; rfl)⟩
  | _ => cases hOff

/-- A step that writes nothing leaves the sessions of those who signed off. -/
theorem AllGone.quiet (hInv : AllGone h) (hAddr : Addressed h) (hAllowed : h.closesArrive l)
    (hClosed : h.closed ⊆ t.closed) (hQuiet : Quiet C h l t) : AllGone t := by
  intro b w' n c' sid hw' hOff hAgent hSID hc'
  rcases hQuiet.handlers.before b w' hw' with ⟨w, hw, hChange, -, hLeaves⟩ | ⟨-, hNew⟩
  · obtain ⟨hAgent', hSID', hWas⟩ := signedOff_before hChange hOff
    rw [hAgent'] at hAgent
    rw [hSID'] at hSID
    obtain ⟨c₀, hc₀, -⟩ := hAddr.bound b w hw n hAgent
    rcases hQuiet.conns.before n c' hc' with ⟨c, hc, hConn, hPongs⟩ | ⟨hNone, -⟩
    · refine gone_changes hClosed hConn hPongs ?_
      rcases hWas with hWas | hWas | hWas
      · exact hInv b w n c sid hw hWas hAgent hSID hc
      · have hPlaced := hAddr.placed b w hw
        simp only [Browser.Placed, hWas, hSID] at hPlaced
        cases hPlaced
      · rcases hLeaves hWas (by simp [hAgent]) with hStays | rfl
        · rw [hStays] at hOff
          cases hOff
        · have hArrives := hAllowed w hw n hAgent c hc
          rw [hSID] at hArrives
          exact hArrives.imp_right fun hRest => hRest.imp_right .inr
    · rw [hNone] at hc₀
      cases hc₀
  · rcases (openRequest_new hNew).2.2.2.2.2.2 with ⟨r, hPhase⟩ | hPhase <;>
      simp [hPhase, BrowserPhase.signedOff] at hOff

/-- A write is of a request that has not signed off, or it is the close. -/
theorem AllGone.writes {b₀ n₀ : Nat} {w₀ : Browser} {m : Message} {p : BrowserPhase}
    (hInv : AllGone h) (hAddr : Addressed h) (hWrites : Writes h t b₀ w₀ n₀ m p) : AllGone t := by
  intro b w n c sid hw hOff hAgent hSID hc
  rw [hWrites.closed]
  rcases hWrites.handler hw with ⟨rfl, rfl⟩ | ⟨hb, hw⟩
  · -- the writer itself: it has just written its close
    rcases hWrites.phase with ⟨-, rfl⟩ | ⟨-, rfl, -⟩
    · cases hOff
    · cases hWrites.agent.symm.trans hAgent
      rcases hWrites.conn hc with ⟨-, c₀, -, rfl⟩ | ⟨hOther, -⟩
      · exact .inr (.inr (.inl ⟨_, List.mem_append_right _ (List.mem_singleton_self _),
          wrote_new.mpr ⟨rfl, rfl⟩⟩))
      · exact absurd rfl hOther
  · rcases hWrites.conn hc with ⟨rfl, c₀, hc₀, rfl⟩ | ⟨-, hc⟩
    · rcases hInv b w n c₀ sid hw hOff hAgent hSID hc₀ with hShut | hEnd | ⟨s, hs, hWrote⟩ | hOld
      · exact .inl hShut
      · exact .inr (.inl hEnd)
      · exact .inr (.inr (.inl ⟨s, List.mem_append_left _ hs, hWrote⟩))
      · refine .inr (.inr (.inr (forgotten_sent hOld fun _ hSame => hb ?_)))
        have hOwn := sid_of_writes (hAddr.placed _ _ hWrites.browser)
          (hWrites.phase.imp And.left fun hLeft => ⟨hLeft.1, hLeft.2.1⟩)
        exact hAddr.unique b b₀ w w₀ sid hw hWrites.browser hSID (hSame ▸ hOwn)
    · exact hInv b w n c sid hw hOff hAgent hSID hc

/-! ### Runs -/

/-- In every reachable state. -/
theorem closing_reachable {allowed : Hub → HubLabel → Prop} (hReach : Reachable (system C allowed) h) :
    Closing h := by
  have hBoth : Moded C h ∧ Closing h := by
    refine hReach.invariant (I := fun h => Moded C h ∧ Closing h) ?_ ?_
    · rintro s ⟨server, rfl⟩
      refine ⟨moded_start server, ?_⟩
      constructor <;> simp [start]
    · rintro s l t ⟨hModed, hInv⟩ ⟨-, hStep⟩
      exact ⟨hModed.step (step_sound hStep), hInv.step hModed (step_sound hStep)⟩
  exact hBoth.2

/-- In every run in which the closes arrive, nobody who signed off has a session left.
-/
theorem allGone_reachable (hReach : Reachable (system C closesArrive) h) : AllGone h := by
  have hBoth : Addressed h ∧ AllGone h := by
    refine hReach.invariant (I := fun h => Addressed h ∧ AllGone h) ?_ ?_
    · rintro s ⟨server, rfl⟩
      refine ⟨addressed_start server, ?_⟩
      intro b w n c sid hw
      simp [start] at hw
    · rintro s l t ⟨hAddr, hInv⟩ ⟨hAllowed, hStep⟩
      refine ⟨hAddr.step (step_sound hStep), ?_⟩
      rcases (step_sound hStep).writes with hQuiet | ⟨b, w, n, m, p, hWrites⟩
      · exact hInv.quiet hAddr hAllowed (step_sound hStep).closed hQuiet
      · exact hInv.writes hAddr hWrites
  exact hBoth.2

/-- A kept session comes from an offer that a request wrote; if that request has
signed off, its close is not read yet. -/
theorem noOrphans_of (hAddr : Addressed h) (hClosing : Closing h) (hGone : AllGone h) :
    h.NoOrphans := by
  intro n c hc sid hSession
  have hKeeps := hClosing.keeps n c hc
  obtain ⟨⟨_ | b, m⟩, hs, hOffer, rfl⟩ := hKeeps.offered sid hSession
  · obtain rfl : m = pong := hAddr.sent n c hc _ (List.mem_of_mem_take hs)
    cases hOffer
  obtain ⟨⟨w, hw, -, hSID⟩, w₂, hw₂, hAgent⟩ := hAddr.sent n c hc _ (List.mem_of_mem_take hs)
  cases hw.symm.trans hw₂
  cases hOff : w.phase.signedOff with
  | false =>
      refine .inl ⟨b, w, hw, hSID, hAgent, ?_⟩
      have hPlaced := hAddr.placed b w hw
      cases hPhase : w.phase with
      | answered r => simp [Browser.Placed, hPhase, hSID] at hPlaced
      | done => simp [hPhase, BrowserPhase.signedOff] at hOff
      | _ => rfl
  | true =>
      rcases hGone b w n c m.sid hw hOff hAgent hSID hc with hShut | hEnd | ⟨s, hClose, hWrote⟩ | hOld
      · exact .inr (.inr (.inl hShut))
      · exact .inr (.inr (.inr hEnd))
      · -- the close is one of this id, so it cannot be among the messages read
        obtain ⟨hSender, hType⟩ : s.1 = some b ∧ s.2.type = "close" := by simpa [wrote] using hWrote
        obtain ⟨_, m'⟩ := s
        cases hSender
        obtain ⟨⟨w', hw', -, hSID'⟩, -⟩ := hAddr.sent n c hc _ hClose
        cases hw.symm.trans hw'
        have hSame : m'.sid = m.sid := Option.some.inj (hSID'.symm.trans hSID)
        refine .inr (.inl ⟨_, ?_, hType, hSame⟩)
        rw [← List.take_append_drop c.read c.sent] at hClose
        rcases List.mem_append.mp hClose with hRead | hFlight
        · exact absurd hSame (hKeeps.open_ m.sid hSession _ hRead (by simpa [isClose] using hType))
        · exact hFlight
      · exact absurd hOld.1 hSession

end Hub
/-- In a run in which a close is not written only where the connection is closed
or the device has nothing of the session: each session that a device keeps has a
running handler bound to its connection, or a close on the way, or the connection
is closed. No close is before its offer, and a device keeps eight sessions at
most. -/
theorem no_orphan_sessions (C : SDPCodec S) {h : Hub}
    (hReach : Reachable (Hub.system C Hub.closesArrive) h) :
    h.NoOrphans ∧ ∀ (n : Nat) (c : AgentConn), h.conns[n]? = some c →
      OffersFirst c.sent ∧ c.sessions.entries.length ≤ 8 := by
  have hClosing := Hub.closing_reachable hReach
  exact ⟨Hub.noOrphans_of (Hub.addressed_reachable hReach) hClosing (Hub.allGone_reachable hReach),
    fun n c hc => ⟨hClosing.order n c hc, (hClosing.keeps n c hc).bounded⟩⟩

/-- The browser leaves, and its handler returns; the close is written or not. -/
def leaves (b : Nat) (written : Bool) : List HubLabel :=
  [.browser b .fails, .browser b (.sendClose written), .browser b .remove, .browser b (.auditClose 0),
    .browser b .close]

/-- A session whose close is on its way. -/
theorem closing_session_kept :
    ∃ h, Reachable (Hub.system textCodec Hub.closesArrive) h ∧
      (h.conns[0]?.map fun c => (c.sessions.keys, c.sent.map fun s => s.2.type)) =
        some (["s"], ["offer", "close"]) ∧ h.NoOrphans := by
  obtain ⟨h, hReach, hView⟩ := Hub.exists_reachable textCodec Hub.closesArrive hubServer
    (connects 0 ++ opens 0 "desktop" "s" ++ offersDesktop 0 ++ [.far 0 (.receive none)] ++ leaves 0 true)
    (fun h => h.conns[0]?.map fun c => (c.sessions.keys, c.sent.map fun s => s.2.type))
    (some (["s"], ["offer", "close"])) (by decide +kernel)
  exact ⟨h, hReach, hView, (no_orphan_sessions textCodec hReach).1⟩

/-- The write of the close fails on a connection that stays open. -/
theorem session_orphaned : ¬∀ h, Reachable (Hub.system textCodec anyStep) h → h.NoOrphans := by
  intro hAll
  obtain ⟨h, hReach, hView⟩ := Hub.exists_reachable textCodec anyStep hubServer
    (connects 0 ++ opens 0 "desktop" "s" ++ offersDesktop 0 ++ [.far 0 (.receive none)] ++ leaves 0 false)
    (fun h => h.conns[0]?.map fun c =>
      (c.sessions.keys, (c.sent.drop c.read).isEmpty,
        h.handlers.any (fun w => w.phase.running) || h.closed.contains (.agent 0) || c.ended))
    (some (["s"], true, false)) (by decide +kernel)
  obtain ⟨c, hc, hKept⟩ := Option.map_eq_some_iff.mp hView
  simp only [Prod.mk.injEq, List.isEmpty_iff, Bool.or_eq_false_iff] at hKept
  obtain ⟨hKeys, hRead, ⟨hHandlers, hOpen⟩, hEnded⟩ := hKept
  have hSession : c.sessions.lookup "s" ≠ none := by
    rw [Ne, AList.lookup_eq_none, not_not, AList.mem_keys, hKeys]
    exact List.mem_singleton_self _
  rcases hAll h hReach 0 c hc "s" hSession with ⟨b, w, hw, -, -, hRunning⟩ | ⟨s, hs, -⟩ | hShut | hEnd
  · exact absurd hRunning (List.any_eq_false.mp hHandlers w (List.mem_of_getElem? hw))
  · rw [hRead] at hs
    cases hs
  · rw [List.contains_iff_mem.mpr hShut] at hOpen
    cases hOpen
  · rw [hEnded] at hEnd
    cases hEnd

end NetConductor
