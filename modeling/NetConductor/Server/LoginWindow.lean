import NetConductor.Semantics.History
import NetConductor.Server.Throttle

/-! A sequence of requests to `login`: which of them are refused for coming too
often. -/
namespace NetConductor
open History

/-- A decodable request to `login`, with what `Token()` returns for it. -/
structure LoginRequest where
  time : Time
  addr : String
  token : String
  password : String

structure LoginAnswer where
  time : Time
  addr : String
  answer : Except Server.Failure String

/-- The answer has status 429. -/
def LoginAnswer.refused (a : LoginAnswer) : Bool :=
  match a.answer with
  | .ok _ => false
  | .error e => e.status = 429

/-- The answer was given to the address, and is none with status 429. -/
def LoginAnswer.counts (addr : String) (a : LoginAnswer) : Bool := decide (a.addr = addr) && !a.refused

/-- An answer is a refusal exactly when ten answers to the address that were none
fall into the minute that ends with it. -/
def ExactWindow (log : List LoginAnswer) (a : LoginAnswer) : Prop :=
  a.refused = true ↔
    10 ≤ log.countP fun b => b.counts a.addr && decide (b.time ≤ a.time ∧ a.time < b.time + minute)

namespace Server

/-- All requests, one after the other. -/
def logins (s : Server) : List LoginRequest → List LoginAnswer
  | [] => []
  | r :: rest =>
      let out := s.login r.time r.addr r.token (.ok r.password)
      ⟨r.time, r.addr, out.2⟩ :: out.1.logins rest

/-- When an address was answered and not refused. -/
def admittedTimes (log : List LoginAnswer) (addr : String) : List Time :=
  (log.filter (LoginAnswer.counts addr)).map LoginAnswer.time

theorem admittedTimes_append (log : List LoginAnswer) (a : LoginAnswer) (addr : String) :
    admittedTimes (log ++ [a]) addr =
      admittedTimes log addr ++ if addr = a.addr ∧ a.refused = false then [a.time] else [] := by
  rw [admittedTimes, List.filter_append, List.map_append, ← admittedTimes, List.filter_singleton]
  by_cases hAddr : a.addr = addr
  · subst hAddr
    cases hRefused : a.refused <;> simp [LoginAnswer.counts, hRefused]
  · simp [LoginAnswer.counts, hAddr, Ne.symm hAddr]

/-- How many of the answers in a window count. -/
theorem length_admitted {log : List LoginAnswer} {addr : String} {now : Time}
    (hPast : ∀ a ∈ log, a.time ≤ now) :
    ((admittedTimes log addr).filter fun t => now - t < minute).length =
      log.countP fun b => b.counts addr && decide (b.time ≤ now ∧ now < b.time + minute) := by
  rw [admittedTimes, Window.length_recent, Window.recent]
  refine List.countP_congr fun b hb => ?_
  have hTime := hPast b hb
  have hAge : now - b.time < minute ↔ now < b.time + minute := Nat.sub_lt_iff_lt_add' hTime
  simp only [Bool.and_eq_true, decide_eq_true_eq, hAge]
  exact and_congr Iff.rfl ⟨fun h => ⟨hTime, h⟩, fun h => h.2⟩

variable {s : Server} {log : List LoginAnswer} {now : Time}

/-- The next request, when the server remembers the answers so far. -/
theorem login_windowed (h : s.Remembers now (admittedTimes log)) (hPast : ∀ a ∈ log, a.time ≤ now)
    (r : LoginRequest) (hTime : now ≤ r.time) {answer : LoginAnswer} {t : Server}
    (hAnswer : answer = ⟨r.time, r.addr, (s.login r.time r.addr r.token (.ok r.password)).2⟩)
    (hServer : t = (s.login r.time r.addr r.token (.ok r.password)).1) :
    ExactWindow log answer ∧ t.Remembers r.time (admittedTimes (log ++ [answer])) := by
  have hNow := h.mono hTime
  have hCount : ((s.pruneAttempts r.time).recentAttempts r.time r.addr).length =
      log.countP fun b => b.counts r.addr && decide (b.time ≤ r.time ∧ r.time < b.time + minute) := by
    rw [hNow.prune.attempts r.addr r.time (Nat.le_refl _)]
    exact length_admitted fun a ha => Nat.le_trans (hPast a ha) hTime
  have hLogin : (10 ≤ ((s.pruneAttempts r.time).recentAttempts r.time r.addr).length ∧
        answer.refused = true ∧ t = s.pruneAttempts r.time) ∨
      (¬10 ≤ ((s.pruneAttempts r.time).recentAttempts r.time r.addr).length ∧
        answer.refused = false ∧
        t.loginAttempts = ((s.pruneAttempts r.time).recordAttempt r.time r.addr).loginAttempts) := by
    rw [hAnswer, hServer]
    unfold login
    dsimp only
    split_ifs with hMany hWrong
    · exact .inl ⟨hMany, rfl, rfl⟩
    · exact .inr ⟨hMany, rfl, rfl⟩
    · exact .inr ⟨hMany, rfl, rfl⟩
  have hAddr : answer.addr = r.addr := by rw [hAnswer]
  have hWhen : answer.time = r.time := by rw [hAnswer]
  have hTimes : admittedTimes (log ++ [answer]) = fun addr => admittedTimes log addr ++
      if addr = r.addr ∧ answer.refused = false then [r.time] else [] := by
    funext addr
    rw [admittedTimes_append, hAddr, hWhen]
  rcases hLogin with ⟨hMany, hRefused, rfl⟩ | ⟨hFew, hRefused, hAttempts⟩
  · refine ⟨?_, ?_⟩
    · rw [ExactWindow, hRefused, hAddr, hWhen, ← hCount]
      exact iff_of_true rfl hMany
    · rw [hTimes, hRefused]
      simpa using hNow.prune
  · refine ⟨?_, ?_⟩
    · rw [ExactWindow, hRefused, hAddr, hWhen, ← hCount]
      exact iff_of_false (by simp) hFew
    · rw [hTimes, hRefused]
      simpa using (hNow.prune.record r.addr).congr hAttempts

/-- From any past on the logins of one address keep to the window. -/
theorem logins_lawful {requests : List LoginRequest} (h : s.Remembers now (admittedTimes log))
    (hPast : ∀ a ∈ log, a.time ≤ now) (hLater : ∀ r ∈ requests, now ≤ r.time)
    (hClock : requests.Pairwise fun r q => r.time ≤ q.time) (hLog : Lawful ExactWindow log) :
    Lawful ExactWindow (log ++ s.logins requests) := by
  induction requests generalizing s log now with
  | nil => simpa [logins] using hLog
  | cons r rest ih =>
      obtain ⟨hFirst, hRest⟩ := List.pairwise_cons.mp hClock
      have hTime := hLater r List.mem_cons_self
      obtain ⟨hExact, hRemembers⟩ := login_windowed h hPast r hTime rfl rfl
      rw [logins, List.append_cons]
      refine ih hRemembers (fun a ha => ?_) hFirst hRest (hLog.snoc hExact)
      rcases List.mem_append.mp ha with hOld | hNew
      · exact Nat.le_trans (hPast a hOld) hTime
      · obtain rfl := List.mem_singleton.mp hNew
        exact Nat.le_refl _

/-- What a decodable login does to the attempts that count. -/
theorem recentAttempts_login (h : s.AttemptsSorted now) {time : Time} (hTime : now ≤ time)
    (ip token password addr : String) :
    (s.login time ip token (.ok password)).1.AttemptsSorted time ∧
    (s.login time ip token (.ok password)).1.cfg = s.cfg ∧
    ∀ later, time ≤ later → (s.login time ip token (.ok password)).1.recentAttempts later addr =
      s.recentAttempts later addr ++ if (s.recentAttempts time ip).length < 10 ∧ addr = ip then
        [time].filter fun t => later - t < minute else [] := by
  have hNow := h.mono hTime
  have hPruned : ∀ who later, time ≤ later →
      (s.pruneAttempts time).recentAttempts later who = s.recentAttempts later who := fun who later hLater =>
    recentAttempts_prune (fun addr ts hLookup => (hNow addr ts hLookup).1) hLater
  have hCfg : (s.pruneAttempts time).cfg = s.cfg := by
    unfold pruneAttempts
    split_ifs <;> rfl
  by_cases hMany : 10 ≤ (s.recentAttempts time ip).length
  · have hLogin : (s.login time ip token (.ok password)).1 = s.pruneAttempts time := by
      simp only [login, hPruned ip time (Nat.le_refl _), if_pos hMany]
    rw [hLogin]
    refine ⟨hNow.prune time, hCfg, fun later hLater => ?_⟩
    rw [hPruned addr later hLater, if_neg fun hFew => absurd hFew.1 (not_lt.mpr hMany), List.append_nil]
  · have hAttempts : (s.login time ip token (.ok password)).1.loginAttempts =
        ((s.pruneAttempts time).recordAttempt time ip).loginAttempts ∧
        (s.login time ip token (.ok password)).1.cfg = s.cfg := by
      simp only [login, hPruned ip time (Nat.le_refl _), if_neg hMany]
      split_ifs
      · exact ⟨rfl, hCfg⟩
      · exact ⟨rfl, hCfg⟩
    refine ⟨((hNow.prune time).record ip).congr hAttempts.1, hAttempts.2, fun later hLater => ?_⟩
    rw [recentAttempts_congr hAttempts.1, recentAttempts_record (hNow.prune time) hLater,
      hPruned addr later hLater]
    simp only [not_le.mp hMany, true_and]

/-- The answers to one address are those of a server that is asked by nobody
else. -/
theorem logins_apart {requests : List LoginRequest} {s t : Server} {now : Time} (addr : String)
    (hSorted : s.AttemptsSorted now) (hSorted' : t.AttemptsSorted now) (hCfg : s.cfg = t.cfg)
    (hSame : ∀ later, now ≤ later → s.recentAttempts later addr = t.recentAttempts later addr)
    (hLater : ∀ r ∈ requests, now ≤ r.time)
    (hClock : requests.Pairwise fun r q => r.time ≤ q.time) :
    (s.logins requests).filter (fun a => a.addr = addr) =
      t.logins (requests.filter fun r => r.addr = addr) := by
  induction requests generalizing s t now with
  | nil => rfl
  | cons r rest ih =>
      obtain ⟨hFirst, hRest⟩ := List.pairwise_cons.mp hClock
      have hTime := hLater r List.mem_cons_self
      obtain ⟨hNext, hNextCfg, hRecent⟩ :=
        recentAttempts_login hSorted hTime r.addr r.token r.password addr
      by_cases hAddr : r.addr = addr
      · obtain ⟨hNext', hNextCfg', hRecent'⟩ :=
          recentAttempts_login hSorted' hTime r.addr r.token r.password addr
        have hAnswer : (s.login r.time r.addr r.token (.ok r.password)).2 =
            (t.login r.time r.addr r.token (.ok r.password)).2 := by
          have hPruned : ((s.pruneAttempts r.time).recentAttempts r.time r.addr) =
              ((t.pruneAttempts r.time).recentAttempts r.time r.addr) := by
            rw [recentAttempts_prune (fun addr ts h => (hSorted addr ts h).1) (Nat.le_refl _),
              recentAttempts_prune (fun addr ts h => (hSorted' addr ts h).1) (Nat.le_refl _), hAddr]
            exact hSame r.time hTime
          have hToken : ((s.pruneAttempts r.time).recordAttempt r.time r.addr).cfg.adminToken =
              ((t.pruneAttempts r.time).recordAttempt r.time r.addr).cfg.adminToken := by
            simp only [recordAttempt, pruneAttempts]
            split_ifs <;> rw [hCfg]
          simp only [login, hPruned, hToken]
          split_ifs <;> rfl
        have hTail := ih hNext hNext' (hNextCfg.trans (hCfg.trans hNextCfg'.symm))
          (fun later hl => by
            rw [hRecent later hl, hRecent' later hl, hSame later (Nat.le_trans hTime hl), hAddr,
              hSame r.time hTime]) hFirst hRest
        simp only [logins, List.filter_cons, hAddr, decide_true, if_true]
        rw [hAddr] at hTail hAnswer
        rw [hTail, hAnswer]
      · have hTail := ih hNext (hSorted'.mono hTime) (hNextCfg.trans hCfg)
          (fun later hl => by
            rw [hRecent later hl, if_neg fun h => hAddr h.2.symm, List.append_nil,
              hSame later (Nat.le_trans hTime hl)]) hFirst hRest
        simp only [logins, List.filter_cons, hAddr, decide_false, Bool.false_eq_true, if_false]
        exact hTail

/-- On a server that has no attempts on record, the refusals are exact, whatever
is purged in between; and nobody else has a part in them. -/
theorem logins_windowed (s : Server) (hNone : s.loginAttempts = ∅) (requests : List LoginRequest)
    (hClock : requests.Pairwise fun r q => r.time ≤ q.time) :
    Lawful ExactWindow (s.logins requests) ∧
    ∀ addr, (s.logins requests).filter (fun a => a.addr = addr) =
      s.logins (requests.filter fun r => r.addr = addr) := by
  have hSorted : s.AttemptsSorted 0 := by
    intro addr ts hLookup
    rw [hNone] at hLookup
    cases hLookup
  have hStart : s.Remembers 0 (admittedTimes []) := by
    refine ⟨hSorted, fun addr later _ => ?_⟩
    rw [recentAttempts, hNone]
    rfl
  refine ⟨?_, fun addr => ?_⟩
  · simpa using logins_lawful hStart (by simp) (fun r _ => Nat.zero_le _) hClock .nil
  · exact logins_apart addr hSorted hSorted rfl (fun _ _ => rfl) (fun r _ => Nat.zero_le _) hClock

/-- Eleven requests of one address in a minute, and one of another. -/
def burst : List LoginRequest :=
  (List.range 11).map (fun i => ⟨i * second, "198.51.100.1", "", "guess"⟩) ++
    [⟨11 * second, "198.51.100.2", "", "guess"⟩]

theorem burst_windowed : Lawful ExactWindow
      ((newServer sampleConfig (firstState sampleConfig "")).logins burst) ∧
    ((newServer sampleConfig (firstState sampleConfig "")).logins burst).map LoginAnswer.refused =
      List.replicate 10 false ++ [true, false] :=
  ⟨(logins_windowed _ rfl burst (by decide +kernel)).1, by decide +kernel⟩

end Server
end NetConductor
