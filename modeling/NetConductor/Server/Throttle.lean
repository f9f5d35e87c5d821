import NetConductor.Semantics.Transition
import NetConductor.Semantics.Window
import NetConductor.Server.Sessions

/-! Guesses at the administrator's password: `login` counts them for each
address; `guard`, and `remoteBrowser` once more for every message that it reads,
compare a Bearer credential without counting. -/
namespace NetConductor
open Durable Transition

/-- A secret that a client supplied was compared with the password, and the
client learned whether it is right. -/
structure Comparison where
  addr : String
  time : Time
  byLogin : Bool
  accepted : Bool
deriving DecidableEq

/-- A request to `remoteBrowser` that `guard` has let through: `admin` looks at
its headers again for every message of its WebSocket. -/
structure BrowserRequest where
  addr : String
  headers : AdminHeaders
deriving DecidableEq

/-- The process under any requests, with the comparisons it has answered and the
handlers of `remoteBrowser` that have not returned. -/
structure Gate where
  process : Process
  now : Time
  compared : List Comparison
  browsers : List BrowserRequest

/-- A request to a route of `Handler` passes `login`, `logout` or `guard` at
once; what a handler does after that, and everything else the process does, are
tasks of their own. A handler of `remoteBrowser` reads a `message`, or returns
for whatever reason: a check, a failing `Upgrade`, the end of its WebSocket. -/
inductive GateLabel where
  | request (now : Time) (addr : String) (headers : AdminHeaders) (route : Route) (token : String)
  | message (now : Time) (i : Nat)
  | leave (i : Nat)
  | task (op : Op) (saved : Bool)

/-- `login` has accepted or rejected the password. -/
def answersGuess : Except Server.Failure String → Bool
  | .ok _ => true
  | .error e => e.status = 401

/-- Attempts in order of time, none of them in the future. -/
def Server.AttemptsSorted (s : Server) (now : Time) : Prop :=
  ∀ addr ts, s.loginAttempts.lookup addr = some ts → ts.Pairwise (· ≤ ·) ∧ ∀ t ∈ ts, t ≤ now

namespace Gate

def server (w : Gate) : Server := w.process.server

def withServer (s : Server) (w : Gate) : Gate := { w with process := { w.process with server := s } }

/-- What is compared when `login` answers. -/
def loginGuess (now : Time) (addr : String) (answer : Except Server.Failure String) : List Comparison :=
  if answersGuess answer then [⟨addr, now, true, answer.isOk⟩] else []

/-- What `admin` compares in a request to a guarded route, if the request
carries anything. -/
def bearerGuess (now : Time) (addr : String) (h : AdminHeaders) (route : Route) (s : Server) :
    List Comparison :=
  if route.guarded = true ∧ bearer h.authorization ≠ "" then
    [⟨addr, now, false, equal (bearer h.authorization) s.cfg.adminToken⟩]
  else []

/-- The handlers of `remoteBrowser` after a request to a guarded route. -/
def admitted (now : Time) (addr : String) (h : AdminHeaders) (route : Route) (w : Gate) :
    List BrowserRequest :=
  if route = .remoteBrowser ∧ w.server.admin now h = true then w.browsers ++ [⟨addr, h⟩]
  else w.browsers

/-- The handlers after one of them has read a message: where the session is over
it returns. -/
def kept (now : Time) (i : Nat) (b : BrowserRequest) (w : Gate) : List BrowserRequest :=
  if w.server.admin now b.headers = true then w.browsers else w.browsers.eraseIdx i

def step (w : Gate) : GateLabel → Option Gate
  | .request now addr h route token =>
      if now < w.now then none
      else
        match route with
        | .login body =>
            let out := w.server.login now addr token body
            some { w.withServer out.1 with
              now := now, compared := w.compared ++ loginGuess now addr out.2 }
        | .logout => some { w.withServer (w.server.logout h) with now := now }
        | route => some { w with
            now := now, compared := w.compared ++ bearerGuess now addr h route w.server,
            browsers := w.admitted now addr h route }
  | .message now i =>
      if now < w.now then none
      else w.browsers[i]?.map fun b => { w with
        now := now,
        compared := w.compared ++ bearerGuess now b.addr b.headers .remoteBrowser w.server,
        browsers := w.kept now i b }
  | .leave i =>
      if i < w.browsers.length then some { w with browsers := w.browsers.eraseIdx i } else none
  | .task op saved => (w.process.exec op).map fun sec => { w with process := (sec.result saved).1 }

/-- All runs of a process from its start, with a clock that never goes back. -/
def system (cfg : ServerConfig) : System Gate GateLabel where
  initial w := ∃ st now, w = ⟨.ofServer (newServer cfg st), now, [], []⟩
  step w l v := w.step l = some v

/-- At most ten comparisons for one address in any minute. -/
def Throttled (w : Gate) : Prop :=
  ∀ addr, Window.Bounded Comparison.time (fun c => c.addr = addr) 10 minute w.compared

/-- The Bearer credentials of the address that were compared in the last
minute. -/
def recentBearers (now : Time) (addr : String) (w : Gate) : Nat :=
  Window.recent Comparison.time (fun c => decide (c.addr = addr) && !c.byLogin) now minute w.compared

/-- There is room for one more guess of the address, if the Bearer credentials
counted as attempts. -/
def Room (now : Time) (addr : String) (w : Gate) : Prop :=
  w.recentBearers now addr + (w.server.recentAttempts now addr).length < 10

/-- A Bearer credential is looked at, in a request or for a message, or `login`
lets an attempt pass, only while there is room. -/
def Spare (w : Gate) : GateLabel → Prop
  | .request now addr _ (.login (.ok _)) _ =>
      (w.server.recentAttempts now addr).length < 10 → w.Room now addr
  | .request _ _ _ (.login (.error _)) _ => True
  | .request now addr h route _ =>
      route.guarded = true → bearer h.authorization ≠ "" → w.Room now addr
  | .message now i => ∀ b ∈ w.browsers[i]?, bearer b.headers.authorization ≠ "" → w.Room now b.addr
  | .leave _ | .task .. => True

instance (now : Time) (addr : String) (w : Gate) : Decidable (w.Room now addr) :=
  inferInstanceAs (Decidable (_ < _))

instance (w : Gate) (l : GateLabel) : Decidable (w.Spare l) := by
  unfold Spare
  split <;> infer_instance

/-- The times of the guesses that `login` has answered. -/
def loginTimes (addr : String) (w : Gate) : List Time :=
  (w.compared.filter fun c => decide (c.addr = addr) && c.byLogin).map Comparison.time

/-- `login` has all its recent attempts on record, in order. -/
structure Recorded (w : Gate) : Prop where
  past : ∀ c ∈ w.compared, c.time ≤ w.now
  sorted : w.server.AttemptsSorted w.now
  attempts : ∀ addr now, w.now ≤ now →
    w.server.recentAttempts now addr = (w.loginTimes addr).filter fun t => now - t < minute

end Gate

/-! ### The table of attempts -/

theorem lookup_deleteIf_eq {V : Type} (m : GoMap V) (p : V → Bool) (key : String) :
    (deleteIf m p).lookup key = (m.lookup key).filter fun v => !p v := by
  refine Option.ext fun v => ?_
  rw [lookup_deleteIf, Option.filter_eq_some_iff]
  simp

namespace Server

variable {s : Server} {now : Time} {addr : String}

/-- Only attempts that no longer count are thrown away. -/
theorem recentAttempts_prune (hSorted : ∀ addr ts, s.loginAttempts.lookup addr = some ts →
    ts.Pairwise (· ≤ ·)) {later : Time} (hLater : now ≤ later) :
    (s.pruneAttempts now).recentAttempts later addr = s.recentAttempts later addr := by
  unfold pruneAttempts
  split
  · simp only [recentAttempts, lookup_deleteIf_eq]
    cases hLookup : s.loginAttempts.lookup addr with
    | none => rfl
    | some ts =>
        cases hStale : stale now ts with
        | false => simp [Option.filter, hStale]
        | true =>
            -- the last attempt is the newest, and it is too old
            have hOld : ∀ t ∈ ts, minute < now - t := by
              unfold stale at hStale
              split at hStale
              · next hNone => simp [List.getLast?_eq_none_iff.mp hNone]
              · next last hLast =>
                  obtain ⟨front, rfl⟩ := List.getLast?_eq_some_iff.mp hLast
                  have hOrder := (List.pairwise_append.mp (hSorted addr _ hLookup)).2.2
                  have hAge : minute < now - last := by simpa using hStale
                  intro t ht
                  rcases List.mem_append.mp ht with hFront | hEnd
                  · have hBefore : t ≤ last := hOrder t hFront last (by simp)
                    exact Nat.lt_of_lt_of_le hAge (Nat.sub_le_sub_left hBefore now)
                  · obtain rfl := List.mem_singleton.mp hEnd
                    exact hAge
            have hNone : ts.filter (fun t => decide (later - t < minute)) = [] := by
              refine List.filter_eq_nil_iff.mpr fun t ht => ?_
              have hAge := Nat.lt_of_lt_of_le (hOld t ht) (Nat.sub_le_sub_right hLater t)
              simpa using Nat.le_of_lt hAge
            simp [Option.filter, hStale, hNone]
  · rfl

/-- `login` refuses without a comparison, and at most throws away old attempts;
or it compares, and records the attempt. -/
theorem login_cases (now : Time) (ip token : String) (body : Decoded String) (s : Server) :
    ((∀ password, body = .ok password → 10 ≤ ((s.pruneAttempts now).recentAttempts now ip).length) ∧
      answersGuess (s.login now ip token body).2 = false ∧
      ((s.login now ip token body).1 = s ∨ (s.login now ip token body).1 = s.pruneAttempts now)) ∨
    (∃ password, body = .ok password) ∧
      ((s.pruneAttempts now).recentAttempts now ip).length < 10 ∧
      answersGuess (s.login now ip token body).2 = true ∧
      (s.login now ip token body).1.loginAttempts =
        ((s.pruneAttempts now).recordAttempt now ip).loginAttempts := by
  cases body with
  | error e => exact .inl ⟨by simp, rfl, .inl rfl⟩
  | ok password =>
      unfold login
      dsimp only
      split_ifs with hMany hWrong
      · exact .inl ⟨fun _ _ => hMany, rfl, .inr rfl⟩
      · exact .inr ⟨⟨password, rfl⟩, not_le.mp hMany, rfl, rfl⟩
      · exact .inr ⟨⟨password, rfl⟩, not_le.mp hMany, rfl, rfl⟩

end Server

/-! ### The record of attempts -/

namespace Server

theorem recentAttempts_congr {s t : Server} (h : t.loginAttempts = s.loginAttempts) (now : Time)
    (addr : String) : t.recentAttempts now addr = s.recentAttempts now addr := by
  rw [recentAttempts, h, recentAttempts]

theorem AttemptsSorted.mono {s : Server} {now later : Time} (h : s.AttemptsSorted now)
    (hLater : now ≤ later) : s.AttemptsSorted later := by
  intro addr ts hLookup
  obtain ⟨hOrder, hPast⟩ := h addr ts hLookup
  exact ⟨hOrder, fun t ht => Nat.le_trans (hPast t ht) hLater⟩

theorem AttemptsSorted.congr {s t : Server} {now : Time} (h : s.AttemptsSorted now)
    (hSame : t.loginAttempts = s.loginAttempts) : t.AttemptsSorted now := by
  intro addr ts hLookup
  exact h addr ts (hSame ▸ hLookup)

/-- Pruning keeps the order of the attempts. -/
theorem AttemptsSorted.prune {s : Server} {now : Time} (h : s.AttemptsSorted now) (now' : Time) :
    (s.pruneAttempts now').AttemptsSorted now := by
  intro addr ts hLookup
  unfold pruneAttempts at hLookup
  split at hLookup
  · exact h addr ts (lookup_deleteIf.mp hLookup).1
  · exact h addr ts hLookup

/-- The recent attempts of an address are in order. -/
theorem AttemptsSorted.recent {s : Server} {now : Time} (h : s.AttemptsSorted now) (now' : Time)
    (addr : String) : (s.recentAttempts now' addr).Pairwise (· ≤ ·) ∧
      ∀ t ∈ s.recentAttempts now' addr, t ≤ now := by
  unfold recentAttempts
  cases hLookup : s.loginAttempts.lookup addr with
  | none => simp
  | some ts =>
      obtain ⟨hOrder, hPast⟩ := h addr ts hLookup
      exact ⟨hOrder.filter _, fun t ht => hPast t (List.mem_of_mem_filter ht)⟩

/-- A new attempt is the latest one. -/
theorem AttemptsSorted.record {s : Server} {now : Time} (h : s.AttemptsSorted now) (addr : String) :
    (s.recordAttempt now addr).AttemptsSorted now := by
  intro other ts hLookup
  rcases lookup_of_insert hLookup with ⟨rfl, rfl⟩ | ⟨-, hOld⟩
  · obtain ⟨hOrder, hPast⟩ := h.recent now other
    refine ⟨List.pairwise_append.mpr ⟨hOrder, List.pairwise_singleton _ _, ?_⟩, fun t ht => ?_⟩
    · intro t ht u hu
      exact List.mem_singleton.mp hu ▸ hPast t ht
    · rcases List.mem_append.mp ht with hOld | hNew
      · exact hPast t hOld
      · exact Nat.le_of_eq (List.mem_singleton.mp hNew)
  · exact h other ts hOld

/-- What counts later, after an attempt is recorded. -/
theorem recentAttempts_record {s : Server} {now later : Time} (h : s.AttemptsSorted now)
    (hLater : now ≤ later) (ip addr : String) :
    (s.recordAttempt now ip).recentAttempts later addr =
      s.recentAttempts later addr ++
        if addr = ip then [now].filter fun t => later - t < minute else [] := by
  by_cases hAddr : addr = ip
  · subst hAddr
    have hPast : ∀ t ∈ (s.loginAttempts.lookup addr).getD [], t ≤ now := by
      cases hLookup : s.loginAttempts.lookup addr with
      | none => simp
      | some ts => exact (h addr ts hLookup).2
    rw [if_pos rfl, recentAttempts, recordAttempt, AList.lookup_insert, Option.getD_some,
      List.filter_append, recentAttempts, Window.filter_recent hLater hPast, recentAttempts]
  · rw [if_neg hAddr, List.append_nil, recentAttempts, recordAttempt, AList.lookup_insert_ne hAddr,
      recentAttempts]

/-- The attempts on record are the recent ones among the given times. -/
structure Remembers (s : Server) (now : Time) (times : String → List Time) : Prop where
  sorted : s.AttemptsSorted now
  attempts : ∀ addr later, now ≤ later →
    s.recentAttempts later addr = (times addr).filter fun t => later - t < minute

theorem Remembers.mono {s : Server} {now later : Time} {times : String → List Time}
    (h : s.Remembers now times) (hLater : now ≤ later) : s.Remembers later times :=
  ⟨h.sorted.mono hLater, fun addr t ht => h.attempts addr t (Nat.le_trans hLater ht)⟩

theorem Remembers.congr {s t : Server} {now : Time} {times : String → List Time}
    (h : s.Remembers now times) (hSame : t.loginAttempts = s.loginAttempts) : t.Remembers now times :=
  ⟨h.sorted.congr hSame, fun addr later hLater =>
    (recentAttempts_congr hSame later addr).trans (h.attempts addr later hLater)⟩

/-- Pruning forgets nothing that still counts. -/
theorem Remembers.prune {s : Server} {now : Time} {times : String → List Time}
    (h : s.Remembers now times) : (s.pruneAttempts now).Remembers now times :=
  ⟨h.sorted.prune now, fun addr later hLater =>
    (recentAttempts_prune (fun addr ts hLookup => (h.sorted addr ts hLookup).1) hLater).trans
      (h.attempts addr later hLater)⟩

/-- A recorded attempt is remembered. -/
theorem Remembers.record {s : Server} {now : Time} {times : String → List Time}
    (h : s.Remembers now times) (ip : String) : (s.recordAttempt now ip).Remembers now
      fun addr => times addr ++ if addr = ip then [now] else [] := by
  refine ⟨h.sorted.record ip, fun addr later hLater => ?_⟩
  rw [recentAttempts_record h.sorted hLater, h.attempts addr later hLater, List.filter_append]
  split_ifs <;> rfl

end Server

namespace Gate

variable {w v : Gate} {l : GateLabel}

/-- What a step does to the comparisons and to the attempts on record: nothing
new, and there need be no room; or one comparison, and there has to be. -/
def Effect (w : Gate) (l : GateLabel) (v : Gate) : Prop :=
  (v.compared = w.compared ∧ w.Spare l ∧
    (v.server.loginAttempts = w.server.loginAttempts ∨
      v.server.loginAttempts = (w.server.pruneAttempts v.now).loginAttempts)) ∨
  ∃ e : Comparison, e.time = v.now ∧ v.compared = w.compared ++ [e] ∧
    (w.Spare l ↔ w.Room v.now e.addr) ∧
    ((e.byLogin = false ∧ v.server.loginAttempts = w.server.loginAttempts) ∨
     (e.byLogin = true ∧ v.server.loginAttempts =
        ((w.server.pruneAttempts v.now).recordAttempt v.now e.addr).loginAttempts))

/-- `admin` looks at a Bearer credential. -/
theorem effect_bearer {addr : String} {h : AdminHeaders} {route : Route}
    (hCompared : v.compared = w.compared ++ bearerGuess v.now addr h route w.server)
    (hServer : v.server = w.server)
    (hSpare : w.Spare l ↔
      (route.guarded = true → bearer h.authorization ≠ "" → w.Room v.now addr)) : w.Effect l v := by
  by_cases hGuess : route.guarded = true ∧ bearer h.authorization ≠ ""
  · let e : Comparison := ⟨addr, v.now, false, equal (bearer h.authorization) w.server.cfg.adminToken⟩
    have hRoom : w.Spare l ↔ w.Room v.now e.addr :=
      hSpare.trans ⟨fun hs => hs hGuess.1 hGuess.2, fun hRoom _ _ => hRoom⟩
    refine .inr ⟨e, rfl, ?_, hRoom, .inl ⟨rfl, by rw [hServer]⟩⟩
    rw [hCompared, bearerGuess, if_pos hGuess]
  · have hSpared := hSpare.mpr fun hGuarded hBearer => absurd ⟨hGuarded, hBearer⟩ hGuess
    refine .inl ⟨?_, hSpared, .inl (by rw [hServer])⟩
    rw [hCompared, bearerGuess, if_neg hGuess, List.append_nil]

/-- `login` refuses without a comparison, or compares and records the attempt. -/
theorem effect_login (hSorted : w.server.AttemptsSorted w.now) {now : Time} {addr : String}
    {h : AdminHeaders} {body : Decoded String} {token : String}
    (hStep : w.step (.request now addr h (.login body) token) = some v) :
    w.Effect (.request now addr h (.login body) token) v := by
  have hRecent : (w.server.pruneAttempts now).recentAttempts now addr =
      w.server.recentAttempts now addr :=
    Server.recentAttempts_prune (fun addr ts hLookup => (hSorted addr ts hLookup).1) (Nat.le_refl now)
  simp only [step] at hStep
  split_ifs at hStep
  cases hStep
  rcases Server.login_cases now addr token body w.server with
    ⟨hRefused, hAnswer, hServer⟩ | ⟨⟨password, rfl⟩, hFew, hAnswer, hAttempts⟩
  · refine .inl ⟨by simp [loginGuess, hAnswer], ?_, ?_⟩
    · cases body with
      | error e => trivial
      | ok password =>
          intro hFew
          have hMany := hRefused password rfl
          rw [hRecent] at hMany
          omega
    · exact hServer.imp (congrArg Server.loginAttempts) (congrArg Server.loginAttempts)
  · rw [hRecent] at hFew
    let e : Comparison := ⟨addr, now, true, (w.server.login now addr token (.ok password)).2.isOk⟩
    have hSpare : w.Spare (.request now addr h (.login (.ok password)) token) ↔
        w.Room now addr := ⟨fun hSpare => hSpare hFew, fun hRoom _ => hRoom⟩
    refine .inr ⟨e, rfl, ?_, hSpare, .inr ⟨rfl, hAttempts⟩⟩
    simp only [loginGuess, hAnswer, if_pos, e]

/-- `logout` compares nothing. -/
theorem effect_logout {now : Time} {addr : String} {h : AdminHeaders} {token : String}
    (hStep : w.step (.request now addr h .logout token) = some v) :
    w.Effect (.request now addr h .logout token) v := by
  simp only [step] at hStep
  split_ifs at hStep
  cases hStep
  have hSpare : w.Spare (.request now addr h .logout token) := fun hGuarded => by cases hGuarded
  refine .inl ⟨rfl, hSpare, .inl ?_⟩
  change (w.server.logout h).loginAttempts = w.server.loginAttempts
  unfold Server.logout
  split <;> rfl

/-- Every step, by its label. -/
theorem step_effect (hSorted : w.server.AttemptsSorted w.now) (hStep : w.step l = some v) :
    w.now ≤ v.now ∧ w.Effect l v := by
  cases l with
  | task op saved =>
      obtain ⟨sec, hSec, rfl⟩ := Option.map_eq_some_iff.mp hStep
      have hSame := (Process.exec_access hSec).result saved
      exact ⟨Nat.le_refl _, .inl ⟨rfl, trivial, .inl hSame.loginAttempts⟩⟩
  | leave i =>
      simp only [step] at hStep
      split_ifs at hStep
      cases hStep
      exact ⟨Nat.le_refl _, .inl ⟨rfl, trivial, .inl rfl⟩⟩
  | message now i =>
      simp only [step] at hStep
      split_ifs at hStep with hClock
      obtain ⟨b, hb, rfl⟩ := Option.map_eq_some_iff.mp hStep
      refine ⟨Nat.not_lt.mp hClock, effect_bearer rfl rfl ?_⟩
      simp [Spare, hb, Route.guarded]
  | request now addr h route token =>
      have hClock : w.now ≤ v.now := by
        simp only [step] at hStep
        split_ifs at hStep with hClock
        split at hStep <;> cases hStep <;> exact Nat.not_lt.mp hClock
      refine ⟨hClock, ?_⟩
      cases route with
      | login body => exact effect_login hSorted hStep
      | logout => exact effect_logout hStep
      | _ =>
          simp only [step] at hStep
          split_ifs at hStep
          cases hStep
          exact effect_bearer rfl rfl Iff.rfl

theorem loginTimes_append {e : Comparison} (h : v.compared = w.compared ++ [e]) (addr : String) :
    v.loginTimes addr =
      w.loginTimes addr ++ if e.addr = addr ∧ e.byLogin = true then [e.time] else [] := by
  simp only [loginTimes, h, List.filter_append, List.map_append, List.append_cancel_left_eq]
  split_ifs with hOwn
  · simp [hOwn]
  · have hBit : (decide (e.addr = addr) && e.byLogin) = false := by simpa using hOwn
    rw [List.filter_singleton, hBit]
    rfl

theorem Recorded.remembers (h : w.Recorded) : w.server.Remembers w.now fun addr => w.loginTimes addr :=
  ⟨h.sorted, h.attempts⟩

/-- Every step keeps the attempts of the logins on record. -/
theorem Recorded.step (hInv : w.Recorded) (hStep : w.step l = some v) : v.Recorded := by
  obtain ⟨hClock, hEffect⟩ := step_effect hInv.sorted hStep
  have hOld := hInv.remembers.mono hClock
  rcases hEffect with ⟨hCompared, -, hAttempts⟩ | ⟨e, hTime, hCompared, -, hAttempts⟩
  · have hTimes : ∀ addr, v.loginTimes addr = w.loginTimes addr := fun addr => by
      rw [loginTimes, hCompared, loginTimes]
    have hNew : v.server.Remembers v.now fun addr => w.loginTimes addr := by
      rcases hAttempts with hSame | hSame
      · exact hOld.congr hSame
      · exact hOld.prune.congr hSame
    refine ⟨fun c hc => ?_, hNew.sorted, fun addr later hLater => ?_⟩
    · exact Nat.le_trans (hInv.past c (hCompared ▸ hc)) hClock
    · rw [hTimes, hNew.attempts addr later hLater]
  · have hNew : v.server.Remembers v.now fun addr =>
        w.loginTimes addr ++ if e.addr = addr ∧ e.byLogin = true then [e.time] else [] := by
      rcases hAttempts with ⟨hLogin, hSame⟩ | ⟨hLogin, hSame⟩
      · simpa [hLogin] using hOld.congr hSame
      · simpa [hLogin, hTime, eq_comm] using (hOld.prune.record e.addr).congr hSame
    refine ⟨fun c hc => ?_, hNew.sorted, fun addr later hLater => ?_⟩
    · rw [hCompared] at hc
      rcases List.mem_append.mp hc with hBefore | hLast
      · exact Nat.le_trans (hInv.past c hBefore) hClock
      · obtain rfl := List.mem_singleton.mp hLast
        exact Nat.le_of_eq hTime
    · rw [loginTimes_append hCompared, hNew.attempts addr later hLater]

theorem recorded_start {cfg : ServerConfig} (h : (system cfg).initial w) : w.Recorded := by
  obtain ⟨st, now, rfl⟩ := h
  refine ⟨by simp, fun addr ts hLookup => ?_, fun addr later _ => ?_⟩
  · cases hLookup
  · rfl

/-- All recent comparisons of an address: the Bearer credentials, and the
attempts on record. -/
theorem recent_comparisons (hInv : w.Recorded) {now : Time} (hNow : w.now ≤ now) (addr : String) :
    Window.recent Comparison.time (fun c => c.addr = addr) now minute w.compared =
      w.recentBearers now addr + (w.server.recentAttempts now addr).length := by
  rw [Window.recent_split Comparison.byLogin, hInv.attempts addr now hNow, loginTimes,
    Window.length_recent, recentBearers, Nat.add_comm]

/-- A step keeps the bound when there is room for what it compares, and only
then. -/
theorem throttled_step (hInv : w.Recorded) (hStep : w.step l = some v) :
    v.Throttled ↔ w.Throttled ∧ w.Spare l := by
  obtain ⟨hClock, ⟨hCompared, hSpare, -⟩ | ⟨e, hTime, hCompared, hSpare, -⟩⟩ :=
    step_effect hInv.sorted hStep
  · rw [Throttled, hCompared]
    exact ⟨fun h => ⟨h, hSpare⟩, fun h => h.1⟩
  have hPast : ∀ c ∈ w.compared, c.time ≤ e.time := fun c hc => by
    rw [hTime]
    exact Nat.le_trans (hInv.past c hc) hClock
  have hRoom : w.Spare l ↔
      Window.recent Comparison.time (fun c => c.addr = e.addr) e.time minute w.compared < 10 := by
    rw [hSpare, Room, hTime, recent_comparisons hInv hClock]
  rw [hRoom, Throttled, hCompared]
  constructor
  · intro h
    refine ⟨fun addr => (h addr).initial, ?_⟩
    exact ((Window.bounded_snoc (by simp) hPast (by decide)).mp (h e.addr)).2
  · rintro ⟨hBefore, hFew⟩ addr
    by_cases hAddr : e.addr = addr
    · subst hAddr
      exact (Window.bounded_snoc (by simp) hPast (by decide)).mpr ⟨hBefore e.addr, hFew⟩
    · exact (Window.bounded_skip (by simpa using hAddr)).mpr (hBefore addr)

/-- Guesses are throttled in exactly the runs in which every Bearer credential,
and every attempt that `login` lets pass, finds room. -/
theorem throttled_iff {cfg : ServerConfig} {labels : List GateLabel} (hStart : (system cfg).initial w)
    (run : Runs (system cfg) w labels v) :
    v.Throttled ↔ Runs ((system cfg).guarded Spare) w labels v := by
  refine Runs.guarded_iff (I := Recorded) (P := Throttled) ?_
    (fun _ _ _ h hStep => h.step hStep) (fun _ _ _ h hStep => throttled_step h hStep) run (recorded_start hStart) ?_
  · intro s l t u ht hu
    exact Option.some.inj (ht.symm.trans hu)
  · obtain ⟨st, now, rfl⟩ := hStart
    exact fun addr start => Nat.zero_le 10

/-- The process of a first start. -/
def first : Gate := ⟨.ofServer (newServer sampleConfig (firstState sampleConfig "secret")), 0, [], []⟩

/-- A request with a wrong password in its Authorization header. -/
def bearerRequest (now : Time) : GateLabel :=
  .request now "198.51.100.1" ⟨"Bearer guess", none⟩ .state ""

def loginRequest (now : Time) : GateLabel :=
  .request now "198.51.100.1" ⟨"", none⟩ (.login (.ok "guess")) ""

theorem first_initial : (system sampleConfig).initial first := ⟨_, 0, rfl⟩

/-- An administrator's remote session by Bearer credential: the request and
eight messages. Then a login, and ten more a minute later with one that is turned
away. -/
def mixedGuesses : List GateLabel :=
  [.request 0 "198.51.100.1" ⟨"Bearer 0123456789abcdef01234567", none⟩ .remoteBrowser ""] ++
    List.replicate 8 (.message 0 0) ++ [loginRequest 0, .leave 0] ++
    List.replicate 11 (loginRequest minute)

/-- A remote session and logins from one address, within the limit. -/
theorem mixed_guesses_throttled : ∃ v : Gate, v.Throttled ∧ v.compared.length = 20 := by
  have hRun : ∃ v, follow (fun w l => if w.Spare l then w.step l else none) first mixedGuesses =
      some v ∧ v.compared.length = 20 := by
    refine ⟨_, rfl, ?_⟩
    decide +kernel
  obtain ⟨v, hFollow, hLength⟩ := hRun
  have hGuarded : Runs ((system sampleConfig).guarded Spare) first
      mixedGuesses v := by
    refine runs_of_follow (fun w l u hStep => ?_) hFollow
    split_ifs at hStep with hSpare
    exact ⟨hSpare, hStep⟩
  exact ⟨v, (throttled_iff first_initial hGuarded.of_guarded).mpr hGuarded, hLength⟩

/-- Eleven guesses in one moment. -/
theorem bearer_guesses_unthrottled :
    ¬∀ (cfg : ServerConfig) (w v : Gate) (labels : List GateLabel), (system cfg).initial w →
      Runs (system cfg) w labels v → v.Throttled := by
  intro hAll
  have hRun : ∃ v, follow step first (List.replicate 11 (bearerRequest 0)) = some v ∧
      Window.count Comparison.time (fun c => c.addr = "198.51.100.1") 0 minute v.compared = 11 := by
    refine ⟨_, rfl, ?_⟩
    decide +kernel
  obtain ⟨v, hFollow, hCount⟩ := hRun
  have hThrottled := hAll sampleConfig first v _ first_initial
    (runs_of_follow (fun _ _ _ h => h) hFollow) "198.51.100.1" 0
  rw [hCount] at hThrottled
  exact absurd hThrottled (by decide)

end Gate
end NetConductor
