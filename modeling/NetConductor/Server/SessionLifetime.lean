import NetConductor.Semantics.History
import NetConductor.Semantics.Transition
import NetConductor.Server.Sessions

/-! How long a session of the administrator lasts: from a login to its logout,
and no longer than twelve hours. -/
namespace NetConductor
open Durable History Transition

inductive SessionEvent where
  | issued (time : Time) (cookie : String)
  | loggedOut (cookie : String)
  | asked (time : Time) (headers : AdminHeaders) (accepted : Bool)
deriving DecidableEq

/-- The process, with what was answered to logins, logouts and guarded requests. -/
structure Door where
  process : Process
  now : Time
  log : List SessionEvent

/-- Everything else that the process does is a task. -/
inductive DoorLabel where
  | login (now : Time) (ip token : String) (body : Decoded String)
  | logout (now : Time) (headers : AdminHeaders)
  | guarded (now : Time) (headers : AdminHeaders)
  | task (op : Op) (saved : Bool)

/-- The cookie was issued at the time, and not logged out since. -/
def LiveSince (log : List SessionEvent) (cookie : String) (time : Time) : Prop :=
  ∃ before after, log = before ++ .issued time cookie :: after ∧ .loggedOut cookie ∉ after

/-- Without the password, a request passes exactly with a cookie that was issued
less than twelve hours ago and not logged out since. -/
def LifetimeLaw (cfg : ServerConfig) (log : List SessionEvent) : SessionEvent → Prop
  | .asked now h accepted => equal (bearer h.authorization) cfg.adminToken = false →
      (accepted = true ↔ ∃ cookie time, h.cookie = some cookie ∧ LiveSince log cookie time ∧
        now < time + 12 * hour)
  | _ => True

namespace Door

def issues (now : Time) : Except Server.Failure String → List SessionEvent
  | .ok cookie => [.issued now cookie]
  | .error _ => []

def withServer (s : Server) (w : Door) : Door := { w with process := { w.process with server := s } }

def step (w : Door) : DoorLabel → Option Door
  | .login now ip token body =>
      let out := w.process.server.login now ip token body
      if now < w.now then none
      else some { w.withServer out.1 with now := now, log := w.log ++ issues now out.2 }
  | .logout now h =>
      if now < w.now then none
      else some { w.withServer (w.process.server.logout h) with
        now := now, log := w.log ++ (h.cookie.map SessionEvent.loggedOut).toList }
  | .guarded now h =>
      if now < w.now then none
      else some { w with now := now, log := w.log ++ [.asked now h (w.process.server.admin now h)] }
  | .task op saved => (w.process.exec op).map fun sec => { w with process := (sec.result saved).1 }

/-- `Token()` returns a cookie that was never issued before. -/
def Fresh (w : Door) : DoorLabel → Prop
  | .login _ _ token _ => ∀ time, .issued time token ∉ w.log
  | _ => True

/-- All runs of a process from its start, with a clock that never goes back. -/
def system (cfg : ServerConfig) : System Door DoorLabel where
  initial w := ∃ st now, w = ⟨.ofServer (newServer cfg st), now, []⟩
  step w l v := w.Fresh l ∧ w.step l = some v

/-- The table has the live cookies, but for some that are over. -/
structure Tracks (cfg : ServerConfig) (w : Door) : Prop where
  cfg : w.process.server.cfg = cfg
  held : ∀ cookie t, w.process.server.sessions.lookup cookie = some t →
    ∃ time, LiveSince w.log cookie time ∧ t = time + 12 * hour
  live : ∀ cookie time, LiveSince w.log cookie time →
    w.process.server.sessions.lookup cookie = some (time + 12 * hour) ∨ time + 12 * hour < w.now

end Door

/-! ### Live cookies -/

theorem LiveSince.mem {log : List SessionEvent} {cookie : String} {time : Time}
    (h : LiveSince log cookie time) : .issued time cookie ∈ log := by
  obtain ⟨before, after, rfl, -⟩ := h
  simp

/-- One more event. -/
theorem liveSince_snoc {log : List SessionEvent} {e : SessionEvent} {cookie : String} {time : Time} :
    LiveSince (log ++ [e]) cookie time ↔
      (LiveSince log cookie time ∧ e ≠ .loggedOut cookie) ∨ e = .issued time cookie := by
  constructor
  · rintro ⟨before, after, hSplit, hAfter⟩
    rcases List.eq_nil_or_concat' after with rfl | ⟨rest, last, rfl⟩
    · obtain ⟨-, hLast⟩ := List.append_inj' hSplit rfl
      exact .inr (List.singleton_inj.mp hLast)
    · rw [← List.cons_append, ← List.append_assoc] at hSplit
      obtain ⟨rfl, hLast⟩ := List.append_inj' hSplit rfl
      obtain rfl := List.singleton_inj.mp hLast
      refine .inl ⟨⟨before, rest, rfl, fun h => hAfter (List.mem_append_left _ h)⟩, ?_⟩
      rintro rfl
      exact hAfter (by simp)
  · rintro (⟨⟨before, after, rfl, hAfter⟩, hOther⟩ | rfl)
    · refine ⟨before, after ++ [e], by simp, fun h => ?_⟩
      rcases List.mem_append.mp h with hOld | hNew
      · exact hAfter hOld
      · exact hOther (List.mem_singleton.mp hNew).symm
    · exact ⟨log, [], rfl, by simp⟩

namespace Door

variable {cfg : ServerConfig} {w v : Door}

/-- A request is answered as the law says, when the table is right. -/
theorem Tracks.asked (h : w.Tracks cfg) {now : Time} (hNow : w.now ≤ now) (headers : AdminHeaders) :
    LifetimeLaw cfg w.log (.asked now headers (w.process.server.admin now headers)) := by
  intro hPassword
  rw [← h.cfg] at hPassword
  simp only [Server.admin, hPassword, Bool.false_or]
  cases hCookie : headers.cookie with
  | none => simp
  | some cookie =>
      simp only [Option.some.injEq]
      constructor
      · intro hAccepted
        cases hLookup : w.process.server.sessions.lookup cookie with
        | none => simp [hLookup] at hAccepted
        | some t =>
            obtain ⟨time, hLive, rfl⟩ := h.held cookie t hLookup
            exact ⟨cookie, time, rfl, hLive, by simpa [hLookup] using hAccepted⟩
      · rintro ⟨cookie', time, rfl, hLive, hTime⟩
        rcases h.live cookie time hLive with hLookup | hOver
        · simpa [hLookup] using hTime
        · exact absurd hTime (Nat.not_lt.mpr (Nat.le_of_lt (Nat.lt_of_lt_of_le hOver hNow)))

/-- A login that opens a session, with a token that no session has had. -/
theorem Tracks.issue (h : w.Tracks cfg) {now : Time} (hNow : w.now ≤ now) {token : String}
    (hFresh : ∀ time, .issued time token ∉ w.log) {s : Server} (hCfg : s.cfg = w.process.server.cfg)
    (hSessions : s.sessions =
      (deleteIf w.process.server.sessions fun t => t < now).insert token (now + 12 * hour)) :
    Tracks cfg { w.withServer s with now := now, log := w.log ++ [.issued now token] } where
  cfg := hCfg.trans h.cfg
  held := by
    intro cookie t hLookup
    change s.sessions.lookup cookie = some t at hLookup
    rw [hSessions] at hLookup
    rcases lookup_of_insert hLookup with ⟨rfl, rfl⟩ | ⟨-, hOld⟩
    · exact ⟨now, liveSince_snoc.mpr (.inr rfl), rfl⟩
    · obtain ⟨time, hLive, hEnd⟩ := h.held cookie t (lookup_deleteIf.mp hOld).1
      exact ⟨time, liveSince_snoc.mpr (.inl ⟨hLive, by simp⟩), hEnd⟩
  live := by
    intro cookie time hLive
    change s.sessions.lookup cookie = _ ∨ time + 12 * hour < now
    rw [hSessions]
    rcases liveSince_snoc.mp hLive with ⟨hLive, -⟩ | hNew
    · have hOther : cookie ≠ token := fun hSame => hFresh time (hSame ▸ hLive.mem)
      rcases h.live cookie time hLive with hLookup | hOver
      · by_cases hEnd : time + 12 * hour < now
        · exact .inr hEnd
        · refine .inl ?_
          rw [AList.lookup_insert_ne hOther, lookup_deleteIf]
          exact ⟨hLookup, decide_eq_false hEnd⟩
      · exact .inr (Nat.lt_of_lt_of_le hOver hNow)
    · cases hNew
      exact .inl (AList.lookup_insert _)

/-- What leaves the table as it is, and neither issues a cookie nor takes one back. -/
theorem Tracks.quiet (h : w.Tracks cfg) {now : Time} (hNow : w.now ≤ now) {p : Process}
    (hCfg : p.server.cfg = w.process.server.cfg)
    (hSessions : p.server.sessions = w.process.server.sessions) {log : List SessionEvent}
    (hLive : ∀ cookie time, LiveSince log cookie time ↔ LiveSince w.log cookie time) :
    Tracks cfg ⟨p, now, log⟩ where
  cfg := hCfg.trans h.cfg
  held := fun cookie t hLookup => by
    simpa only [hLive] using h.held cookie t (hSessions ▸ hLookup)
  live := fun cookie time hOld => by
    rcases h.live cookie time ((hLive cookie time).mp hOld) with hLookup | hOver
    · exact .inl (hSessions ▸ hLookup)
    · exact .inr (Nat.lt_of_lt_of_le hOver hNow)

/-- A logout ends the session whose cookie it shows. -/
theorem Tracks.logout (h : w.Tracks cfg) {now : Time} (hNow : w.now ≤ now) (headers : AdminHeaders) :
    Tracks cfg { w.withServer (w.process.server.logout headers) with
      now := now, log := w.log ++ (headers.cookie.map SessionEvent.loggedOut).toList } := by
  cases hCookie : headers.cookie with
  | none =>
      simp only [Server.logout, hCookie]
      exact h.quiet hNow rfl rfl fun cookie time => by simp
  | some gone =>
      simp only [Server.logout, hCookie]
      refine ⟨h.cfg, fun cookie t hLookup => ?_, fun cookie time hLive => ?_⟩
      · obtain ⟨hOther, hOld⟩ := lookup_of_erase hLookup
        obtain ⟨time, hLive, hEnd⟩ := h.held cookie t hOld
        refine ⟨time, liveSince_snoc.mpr (.inl ⟨hLive, fun hSame => ?_⟩), hEnd⟩
        cases hSame
        exact hOther rfl
      · rcases liveSince_snoc.mp hLive with ⟨hLive, hKept⟩ | hNew
        · have hOther : cookie ≠ gone := fun hSame => hKept (by rw [hSame])
          rcases h.live cookie time hLive with hLookup | hOver
          · exact .inl ((AList.lookup_erase_ne hOther).trans hLookup)
          · exact .inr (Nat.lt_of_lt_of_le hOver hNow)
        · cases hNew

/-- Every step keeps the table right, and its answer to the law. -/
theorem Tracks.step (h : w.Tracks cfg ∧ Lawful (LifetimeLaw cfg) w.log) {l : DoorLabel}
    (hStep : (system cfg).step w l v) : v.Tracks cfg ∧ Lawful (LifetimeLaw cfg) v.log := by
  obtain ⟨hFresh, hStep⟩ := hStep
  obtain ⟨hTracks, hLaw⟩ := h
  cases l with
  | login now ip token body =>
      simp only [Door.step] at hStep
      split_ifs at hStep with hClock
      cases hStep
      have hNow := Nat.not_lt.mp hClock
      obtain ⟨hCfg, ⟨⟨e, hFail⟩, hSessions⟩ | ⟨hOk, hSessions⟩⟩ :=
        Server.login_sessions now ip token body w.process.server
      · rw [hFail, issues, List.append_nil]
        exact ⟨hTracks.quiet hNow hCfg hSessions fun _ _ => Iff.rfl, hLaw⟩
      · rw [hOk, issues]
        exact ⟨hTracks.issue hNow hFresh hCfg hSessions, hLaw.snoc trivial⟩
  | logout now headers =>
      simp only [Door.step] at hStep
      split_ifs at hStep with hClock
      cases hStep
      refine ⟨hTracks.logout (Nat.not_lt.mp hClock) headers, ?_⟩
      cases headers.cookie with
      | none => simpa using hLaw
      | some cookie => exact hLaw.snoc trivial
  | guarded now headers =>
      simp only [Door.step] at hStep
      split_ifs at hStep with hClock
      cases hStep
      have hNow := Nat.not_lt.mp hClock
      refine ⟨hTracks.quiet hNow rfl rfl fun cookie time => ?_, hLaw.snoc (hTracks.asked hNow headers)⟩
      rw [liveSince_snoc]
      simp
  | task op saved =>
      obtain ⟨sec, hExec, rfl⟩ := Option.map_eq_some_iff.mp hStep
      have hKept : w.process.server.SameAccess (sec.result saved).1.server :=
        (Process.exec_access hExec).result saved
      exact ⟨hTracks.quiet (Nat.le_refl _) hKept.cfg hKept.sessions fun _ _ => Iff.rfl, hLaw⟩

/-- In every run, each guarded request is answered as the law says: whoever else
logs in or out, and whatever is purged. -/
theorem sessions_lawful (h : Reachable (system cfg) w) : Lawful (LifetimeLaw cfg) w.log := by
  refine (h.invariant (I := fun w => w.Tracks cfg ∧ Lawful (LifetimeLaw cfg) w.log) ?_
    fun s l t hs => Tracks.step hs).2
  rintro _ ⟨st, now, rfl⟩
  refine ⟨⟨rfl, fun cookie t hLookup => ?_, fun cookie time hLive => ?_⟩, .nil⟩
  · cases hLookup
  · cases hLive.mem

/-- A login, and a request before and after the logout. -/
theorem visit_lawful : ∃ w : Door, Lawful (LifetimeLaw sampleConfig) w.log ∧
    w.log = [.issued 0 "a", .asked second ⟨"", some "a"⟩ true, .loggedOut "a",
      .asked minute ⟨"", some "a"⟩ false] := by
  have hStart : Reachable (system sampleConfig)
      ⟨.ofServer (newServer sampleConfig (firstState sampleConfig "")), 0, []⟩ :=
    .initial ⟨_, _, rfl⟩
  have hLogin := hStart.next (l := DoorLabel.login 0 "198.51.100.1" "a" (.ok sampleConfig.adminToken))
    ⟨fun _ h => (List.not_mem_nil h).elim, rfl⟩
  have hAsked := hLogin.next (l := DoorLabel.guarded second ⟨"", some "a"⟩) ⟨trivial, rfl⟩
  have hLeft := hAsked.next (l := DoorLabel.logout second ⟨"", some "a"⟩) ⟨trivial, rfl⟩
  have hRefused := hLeft.next (l := DoorLabel.guarded minute ⟨"", some "a"⟩) ⟨trivial, rfl⟩
  exact ⟨_, sessions_lawful hRefused, by decide +kernel⟩

end Door
end NetConductor
