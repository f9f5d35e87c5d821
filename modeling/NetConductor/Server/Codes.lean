import NetConductor.Semantics.Tables
import NetConductor.Server.Runs

/-! Enrollment codes: `createCode` hands them out for ten minutes, `join` redeems
each of them once, over all runs with a clock that never goes back. -/
namespace NetConductor
open Durable Transition

/-- When a request or task reads the clock, if it does. -/
def Op.time : Op → Option Time
  | .createCode env _ | .join env _ | .heartbeat env _ _ | .updateDevice env _ _ |
    .putPolicy env _ _ | .auditSession env _ _ | .putMapping env _ | .commitMapping env |
    .deleteMapping env _ => some env.now
  | _ => none

/-- The value of `Token()` that is to be a code. -/
def Op.newCode : Op → Option String
  | .createCode env _ => some env.token
  | _ => none

structure Issue where
  code : String
  ip : String
  time : Time

structure Redemption where
  code : String
  time : Time
  device : Device

/-- The code that an answer hands out. -/
def issued : Event Op Answer → Option Issue
  | .answered (.createCode env (.ok ip)) ⟨.json (.code code _), _⟩ => some ⟨code, ip, env.now⟩
  | _ => none

/-- The code that a join has used up, when its answer says so; a join that dies
before it answers may have used it up as well. -/
def redeemed (e : Event Op Answer) : Option Redemption :=
  match e.op, e.ans with
  | .join env (.ok req), ⟨.json (.joined d _ _ _ _ _), _⟩ => some ⟨req.code, env.now, d⟩
  | _, _ => none

/-- The clock has not gone back since any earlier request, and a new code has
not been handed out before. -/
def Admissible (history : List (Event Op Answer)) (op : Op) : Prop :=
  ∀ e ∈ history, (∀ t ∈ e.op.time, ∀ u ∈ op.time, t ≤ u) ∧ ∀ c ∈ op.newCode, e.op.newCode ≠ some c

instance (history : List (Event Op Answer)) (op : Op) : Decidable (Admissible history op) :=
  inferInstanceAs (Decidable (∀ e ∈ history, _ ∧ _))

/-- All runs from an empty state file under such a clock and such codes. -/
def codeRuns (cfg : ServerConfig) (token : String) :
    System (Machine Process State Op Answer) (Label Op) where
  initial s := s = ⟨some (firstProcess cfg token), firstState cfg token, []⟩
  step s l t := (∀ op, l.op = some op → Admissible s.history op) ∧ (service cfg).step s l = some t

/-- No code is redeemed twice, and every redemption is of a code handed out
before it, at most ten minutes ago, with the address that was preset in it. -/
structure SingleUse (history : List (Event Op Answer)) : Prop where
  once : history.Pairwise fun e e' => ∀ r ∈ redeemed e, ∀ r' ∈ redeemed e', r.code ≠ r'.code
  inTime : ∀ before e after, history = before ++ e :: after → ∀ r ∈ redeemed e,
    ∃ e' ∈ before, ∃ i ∈ issued e', i.code = r.code ∧ i.time ≤ r.time ∧
      r.time ≤ i.time + 10 * minute ∧ (i.ip ≠ "" → r.device.ip = i.ip)

/-- Codes, devices and configuration are all that `join` looks at. -/
theorem joinPlan_congr {s t : Server} (hCfg : t.cfg = s.cfg) (hCodes : t.codes = s.codes)
    (hDevices : t.state.devices = s.state.devices) (req : Server.JoinRequest) (env : Env) :
    t.joinPlan req env = s.joinPlan req env := by
  have hUsed : ∀ existing c, t.addressUsed existing c = s.addressUsed existing c := fun existing c => by
    simp only [Server.addressUsed, hCfg, hDevices]
  have hAllocate : ∀ existing, t.allocate existing = s.allocate existing := fun existing => by
    simp only [Server.allocate, hCfg, hUsed]
  simp only [Server.joinPlan, Server.addressPlan, Server.assigned, hCodes, hDevices, hAllocate]

/-- A join that is answered with an error leaves every code as redeemable as it
was: whatever request comes next, `join` decides on it as before. -/
theorem join_error {s : Server} {env : Env} {body : Decoded Server.JoinRequest} {saved : Bool}
    (h : ((s.join env body).result saved).2.reply.isError = true) :
    ((s.join env body).result saved).1.codes = s.codes ∧
      ∀ req env', ((s.join env body).result saved).1.joinPlan req env' = s.joinPlan req env' := by
  rcases Server.join_cases env body s with ⟨status, e, wg, hJoin⟩ | ⟨req, plan, -, -, hJoin⟩
  · rw [hJoin]
    exact ⟨rfl, fun _ _ => rfl⟩
  · rw [hJoin] at h ⊢
    cases saved with
    | true => cases h
    | false =>
        refine ⟨by simp [Section.result], joinPlan_congr ?_ ?_ ?_⟩ <;> simp [Section.result]

namespace Server

/-- `createCode` refuses, at most dropping codes that have expired, or it hands
out a code beside at most 99 others. -/
theorem createCode_issue (env : Env) (body : Decoded String) (s : Server) :
    (∃ codes status e, s.createCode env body = ({ s with codes := codes }, .fail status e) ∧
      ∃ p, codes = deleteIf s.codes p) ∨
    ∃ ip p, body = .ok ip ∧ (deleteIf s.codes p).entries.length < 100 ∧
      s.createCode env body =
        ({ s with codes := (deleteIf s.codes p).insert env.token ⟨env.now + 10 * minute, ip⟩ },
          .json (.code env.token 600)) := by
  have hNone : deleteIf s.codes (fun _ => false) = s.codes := by
    apply AList.ext
    simp [deleteIf]
  unfold createCode
  cases body with
  | error e => exact .inl ⟨_, _, _, rfl, _, hNone.symm⟩
  | ok ip =>
      dsimp only
      split_ifs with hPreset hMany
      · exact .inl ⟨_, _, _, rfl, _, hNone.symm⟩
      · exact .inl ⟨_, _, _, rfl, _, rfl⟩
      · exact .inr ⟨ip, _, rfl, not_le.mp hMany, rfl⟩

end Server

theorem length_deleteIf {V : Type} (m : GoMap V) (p : V → Bool) :
    (deleteIf m p).entries.length ≤ m.entries.length := List.length_filter_le ..

/-- A code in the table was handed out for ten minutes and has not been used up. -/
def Unused (history : List (Event Op Answer)) (key : String) (code : Enrollment) : Prop :=
  (∃ e ∈ history, ∃ i ∈ issued e, i.code = key ∧ i.ip = code.ip ∧
    code.expires = i.time + 10 * minute) ∧
  ∀ e ∈ history, ∀ r ∈ redeemed e, r.code ≠ key

structure CodesInvariant (s : Machine Process State Op Answer) : Prop where
  use : SingleUse s.history
  drawn : ∀ e ∈ s.history, ∀ i ∈ issued e, e.op.newCode = some i.code
  few : ∀ p, s.mem = some p → p.server.codes.entries.length ≤ 100
  unused : ∀ p, s.mem = some p → ∀ key code, p.server.codes.lookup key = some code →
    Unused s.history key code

/-- A code is issued at the time of its request. -/
theorem issued_code {e : Event Op Answer} {i : Issue} (h : i ∈ issued e) : e.op.time = some i.time := by
  unfold issued at h
  split at h
  · cases h
    rfl
  · cases h

/-- One more event: what it redeems, if anything, has not been redeemed before
and was handed out in time. -/
theorem SingleUse.append {history : List (Event Op Answer)} (h : SingleUse history)
    {e : Event Op Answer} (hNew : ∀ r ∈ redeemed e, (∀ e' ∈ history, ∀ r' ∈ redeemed e',
      r'.code ≠ r.code) ∧ ∃ e' ∈ history, ∃ i ∈ issued e', i.code = r.code ∧ i.time ≤ r.time ∧
        r.time ≤ i.time + 10 * minute ∧ (i.ip ≠ "" → r.device.ip = i.ip)) :
    SingleUse (history ++ [e]) where
  once := by
    refine List.pairwise_append.mpr ⟨h.once, List.pairwise_singleton .., fun e' he' x hx => ?_⟩
    obtain rfl := List.mem_singleton.mp hx
    exact fun r' hr' r hr => (hNew r hr).1 e' he' r' hr'
  inTime before x after hSplit r hr := by
    rcases List.eq_nil_or_concat after with rfl | ⟨middle, last, rfl⟩
    · obtain ⟨rfl, hx⟩ := List.append_inj' hSplit rfl
      obtain rfl := List.singleton_inj.mp hx
      exact (hNew r hr).2
    · rw [List.concat_eq_append, ← List.cons_append, ← List.append_assoc] at hSplit
      exact h.inTime before x middle (List.append_inj' hSplit rfl).1 r hr

theorem SingleUse.silent {history : List (Event Op Answer)} (h : SingleUse history)
    {e : Event Op Answer} (hNone : redeemed e = none) : SingleUse (history ++ [e]) :=
  h.append fun r hr => by simp [hNone] at hr

/-- Only a join redeems. -/
theorem redeemed_none {e : Event Op Answer} (h : ∀ env body, e.op ≠ .join env body) :
    redeemed e = none := by
  unfold redeemed
  split
  · next hOp _ => exact absurd hOp (h _ _)
  · rfl

/-- Only `createCode` hands out. -/
theorem issued_none {e : Event Op Answer} (h : ∀ env body, e.op ≠ .createCode env body) :
    issued e = none := by
  unfold issued
  split
  · exact absurd rfl (h _ _)
  · rfl

/-- A code stays unused until an event redeems it. -/
theorem Unused.append {history : List (Event Op Answer)} {key : String} {code : Enrollment}
    (h : Unused history key code) {e : Event Op Answer} (hOther : ∀ r ∈ redeemed e, r.code ≠ key) :
    Unused (history ++ [e]) key code := by
  obtain ⟨⟨e', he', hIssue⟩, hNever⟩ := h
  refine ⟨⟨e', List.mem_append_left _ he', hIssue⟩, fun x hx => ?_⟩
  rcases List.mem_append.mp hx with hx | hx
  · exact hNever x hx
  · rw [List.mem_singleton.mp hx]
    exact hOther

variable {cfg : ServerConfig} {s t : Machine Process State Op Answer}

/-- A request that leaves the codes alone and redeems none. -/
theorem CodesInvariant.other (h : CodesInvariant s) {e : Event Op Answer} {mem : Option Process}
    {disk : State} (hNone : redeemed e = none) (hSilent : issued e = none)
    (hCodes : ∀ q, mem = some q → ∃ p, s.mem = some p ∧
      q.server.codes.entries.length ≤ p.server.codes.entries.length ∧
      ∀ key code, q.server.codes.lookup key = some code → p.server.codes.lookup key = some code) :
    CodesInvariant ⟨mem, disk, s.history ++ [e]⟩ where
  use := h.use.silent hNone
  drawn x hx i hi := by
    rcases List.mem_append.mp hx with hx | hx
    · exact h.drawn x hx i hi
    · rw [List.mem_singleton.mp hx, hSilent] at hi
      cases hi
  few q hq := by
    obtain ⟨p, hp, hLength, -⟩ := hCodes q hq
    exact hLength.trans (h.few p hp)
  unused q hq key code hLookup := by
    obtain ⟨p, hp, -, hOld⟩ := hCodes q hq
    exact (h.unused p hp key code (hOld key code hLookup)).append fun r hr => by simp [hNone] at hr

/-- What an accepted join redeems was handed out in time and is still unused. -/
theorem CodesInvariant.redeem (h : CodesInvariant s) {p : Process} (hp : s.mem = some p)
    {env : Env} {req : Server.JoinRequest} {plan : Server.JoinPlan}
    (hAdmissible : Admissible s.history (.join env (.ok req)))
    (hPlan : p.server.joinPlan req env = .ok plan) :
    (∀ e ∈ s.history, ∀ r ∈ redeemed e, r.code ≠ req.code) ∧
    ∃ e ∈ s.history, ∃ i ∈ issued e, i.code = req.code ∧ i.time ≤ env.now ∧
      env.now ≤ i.time + 10 * minute ∧
      (i.ip ≠ "" → (Server.joinedDevice req env plan.ip).ip = i.ip) := by
  obtain ⟨-, -, code, existing, hCode, hTime, -, -, hAssigned, -, -, -⟩ := Server.joinPlan_ok hPlan
  obtain ⟨⟨e, he, i, hi, hKey, hIP, hExpires⟩, hNever⟩ := h.unused p hp req.code code hCode
  refine ⟨hNever, e, he, i, hi, hKey, ?_, hExpires ▸ hTime, fun hPreset => ?_⟩
  · exact (hAdmissible e he).1 _ (issued_code hi) _ rfl
  · rw [hIP] at hPreset
    rw [Server.assigned, if_pos hPreset, Option.some.injEq] at hAssigned
    rw [hIP, hAssigned]
    rfl

/-- A join takes the code that it used out of the table, and only if the device is
saved. -/
theorem CodesInvariant.join (h : CodesInvariant s) {p : Process} (hp : s.mem = some p) {env : Env}
    {body : Decoded Server.JoinRequest} (hAdmissible : Admissible s.history (.join env body))
    {e : Event Op Answer} (hOp : e.op = .join env body)
    (hAns : ∃ saved, e.ans = ((p.server.join env body).result saved).2) {mem : Option Process}
    {disk : State} (hMem : ∀ q, mem = some q → ∃ saved,
      e.ans = ((p.server.join env body).result saved).2 ∧
      q.server = ((p.server.join env body).result saved).1) :
    CodesInvariant ⟨mem, disk, s.history ++ [e]⟩ := by
  by_cases hFail : e.ans.reply.isError = true
  · refine h.other ?_ (issued_none (by simp [hOp])) fun q hq => ?_
    · unfold redeemed
      split
      · next hReply => simp [hReply, Reply.isError] at hFail
      · rfl
    · obtain ⟨saved, hSaved, hServer⟩ := hMem q hq
      rw [hSaved] at hFail
      have hCodes : q.server.codes = p.server.codes := by rw [hServer, (join_error hFail).1]
      exact ⟨p, hp, by rw [hCodes], fun key code hLookup => by rwa [hCodes] at hLookup⟩
  · rcases Server.join_cases env body p.server with ⟨status, text, wg, hJoin⟩ |
      ⟨req, plan, rfl, hPlan, hJoin⟩
    · obtain ⟨saved, hSaved⟩ := hAns
      rw [hJoin] at hSaved
      rw [hSaved] at hFail
      exact absurd rfl hFail
    · have hSuccess : ∀ saved, e.ans = ((p.server.join env (.ok req)).result saved).2 →
          saved = true := by
        intro saved hSaved
        rw [hJoin] at hSaved
        cases saved with
        | true => rfl
        | false =>
            rw [hSaved] at hFail
            exact absurd rfl hFail
      obtain ⟨saved, hSaved⟩ := hAns
      obtain rfl := hSuccess saved hSaved
      have hRedeemed : redeemed e = some ⟨req.code, env.now, Server.joinedDevice req env plan.ip⟩ := by
        rw [redeemed, hOp, hSaved, hJoin]
        rfl
      obtain ⟨hNever, hIssue⟩ := h.redeem hp hAdmissible hPlan
      refine ⟨h.use.append fun r hr => ?_, fun x hx i hi => ?_, fun q hq => ?_,
        fun q hq key code hLookup => ?_⟩
      · rw [hRedeemed, Option.mem_some_iff] at hr
        subst hr
        exact ⟨hNever, hIssue⟩
      · rcases List.mem_append.mp hx with hx | hx
        · exact h.drawn x hx i hi
        · rw [List.mem_singleton.mp hx, issued_none (by simp [hOp])] at hi
          cases hi
      · obtain ⟨saved, hSaved, hServer⟩ := hMem q hq
        obtain rfl := hSuccess saved hSaved
        rw [hServer, hJoin]
        exact (Tables.length_erase _ _).trans (by simpa using h.few p hp)
      · obtain ⟨saved, hSaved, hServer⟩ := hMem q hq
        obtain rfl := hSuccess saved hSaved
        rw [hServer, hJoin] at hLookup
        simp only [Section.result, Server.addDevice_codes] at hLookup
        have hKey : key ≠ req.code := by
          rintro rfl
          simp at hLookup
        rw [AList.lookup_erase_ne hKey] at hLookup
        refine (h.unused p hp key code hLookup).append fun r hr => ?_
        rw [hRedeemed, Option.mem_some_iff] at hr
        subst hr
        exact Ne.symm hKey

/-- A new code is one that was never there before. -/
theorem CodesInvariant.createCode (h : CodesInvariant s) {p : Process} (hp : s.mem = some p)
    {env : Env} {body : Decoded String} (hAdmissible : Admissible s.history (.createCode env body))
    (disk : State) (wg : List (WGCommand × Bool)) :
    CodesInvariant ⟨some { p with server := (p.server.createCode env body).1 }, disk,
      s.history ++ [.answered (.createCode env body) ⟨(p.server.createCode env body).2, wg⟩]⟩ := by
  rcases Server.createCode_issue env body p.server with ⟨codes, status, e, hCreate, drop, rfl⟩ |
    ⟨ip, drop, rfl, hRoom, hCreate⟩
  · rw [hCreate]
    refine h.other (redeemed_none (by simp [Event.op])) ?_ fun q hq => ?_
    · cases body <;> rfl
    obtain rfl := Option.some.inj hq
    exact ⟨p, hp, length_deleteIf _ _, fun key code hLookup => (lookup_deleteIf.mp hLookup).1⟩
  · rw [hCreate]
    have hNone : redeemed (.answered (.createCode env (.ok ip)) ⟨.json (.code env.token 600), wg⟩) =
        none := rfl
    refine ⟨h.use.silent hNone, fun x hx i hi => ?_, fun q hq => ?_, fun q hq key code hLookup => ?_⟩
    · rcases List.mem_append.mp hx with hx | hx
      · exact h.drawn x hx i hi
      · rw [List.mem_singleton.mp hx] at hi ⊢
        obtain rfl := Option.some.inj hi
        rfl
    · obtain rfl := Option.some.inj hq
      exact (Tables.length_insert _ _ _).trans hRoom
    · obtain rfl := Option.some.inj hq
      by_cases hKey : key = env.token
      · subst hKey
        simp only [AList.lookup_insert, Option.some.injEq] at hLookup
        subst hLookup
        refine ⟨⟨_, List.mem_append_right _ (List.mem_singleton.mpr rfl), _, rfl, rfl, rfl, rfl⟩,
          fun x hx r hr hCode => ?_⟩
        rcases List.mem_append.mp hx with hx | hx
        · -- a code that was redeemed was handed out before, this one was not
          obtain ⟨before, after, hSplit⟩ := List.append_of_mem hx
          obtain ⟨e', he', i, hi, hIssued, -⟩ := h.use.inTime before x after hSplit r hr
          have he' : e' ∈ s.history := by
            rw [hSplit]
            exact List.mem_append_left _ he'
          exact (hAdmissible e' he').2 _ rfl ((h.drawn e' he' i hi).trans (by rw [hIssued, hCode]))
        · rw [List.mem_singleton.mp hx, hNone] at hr
          cases hr
      · simp only at hLookup
        rw [AList.lookup_insert_ne hKey] at hLookup
        exact (h.unused p hp key code (lookup_deleteIf.mp hLookup).1).append fun r hr => by
          simp [hNone] at hr

/-- Any other request or task. -/
theorem codes_exec {p : Process} {op : Op} {sec : Section Process Answer} (h : p.exec op = some sec)
    (hCreate : ∀ env body, op ≠ .createCode env body) (hJoin : ∀ env body, op ≠ .join env body) :
    sec.Holds (fun q => q.server.codes = p.server.codes) fun _ => True := by
  by_cases hQuiet : op.quiet = true
  · refine (Process.exec_quiet hQuiet h).mono ?_ fun _ _ => trivial
    rintro q ⟨s, hs, rfl⟩
    exact hs.codes
  by_cases hForwarding : op.forwarding = true
  · exact (Process.exec_forwarding hForwarding h).mono (fun q hq => hq.codes) fun _ _ => trivial
  cases op with
  | createCode env body => exact absurd rfl (hCreate env body)
  | join env body => exact absurd rfl (hJoin env body)
  | heartbeat | updateDevice | putPolicy | setActive | writeProbe | saveProbe | auditSession =>
      exact absurd rfl hQuiet
  | putMapping | openMapping | commitMapping | deleteMapping | restoreMappings | restoreNext
  | restoreMark => exact absurd rfl hForwarding

/-- Whatever became of the request: answered, or cut off by the end of the process. -/
theorem CodesInvariant.request (h : CodesInvariant s) {p : Process} (hp : s.mem = some p) {op : Op}
    {sec : Section Process Answer} (hAdmissible : Admissible s.history op)
    (hSec : p.exec op = some sec) (saved : Bool) (disk : State) :
    CodesInvariant ⟨some (sec.result saved).1, disk, s.history ++ [.answered op (sec.result saved).2]⟩ ∧
    CodesInvariant ⟨none, disk, s.history ++ [.interrupted op (sec.result true).2]⟩ := by
  by_cases hJoin : ∃ env body, op = .join env body
  · obtain ⟨env, body, rfl⟩ := hJoin
    obtain rfl := Option.some.inj hSec
    rw [Section.result_map, Section.result_map]
    constructor
    · refine h.join hp hAdmissible (e := .answered (.join env body) _) rfl ⟨saved, rfl⟩
        fun q hq => ⟨saved, rfl, ?_⟩
      obtain rfl := Option.some.inj hq
      rfl
    · exact h.join hp hAdmissible (e := .interrupted (.join env body) _) rfl ⟨true, rfl⟩
        fun q hq => by cases hq
  have hJoin' : ∀ env body, op ≠ .join env body := fun env body hOp => hJoin ⟨env, body, hOp⟩
  constructor
  · by_cases hCreate : ∃ env body, op = .createCode env body
    · obtain ⟨env, body, rfl⟩ := hCreate
      obtain rfl := Option.some.inj hSec
      exact h.createCode hp hAdmissible disk []
    · have hCreate' : ∀ env body, op ≠ .createCode env body := fun env body hOp =>
        hCreate ⟨env, body, hOp⟩
      refine h.other (redeemed_none hJoin') (issued_none hCreate') fun q hq => ?_
      obtain rfl := Option.some.inj hq
      have hSame := (codes_exec hSec hCreate' hJoin').result saved
      exact ⟨p, hp, by rw [hSame], fun key code hLookup => by rwa [hSame] at hLookup⟩
  · exact h.other (redeemed_none hJoin') rfl fun q hq => by cases hq

/-- Every admissible step keeps it. -/
theorem codes_step {l : Label Op} (h : CodesInvariant s)
    (hAdmissible : ∀ op, l.op = some op → Admissible s.history op)
    (hStep : (service cfg).step s l = some t) : CodesInvariant t := by
  rcases Service.step_cases hStep with ⟨op, saved, p, sec, rfl, hp, hSec, rfl⟩ | ⟨p, rfl, hp, rfl⟩ |
    ⟨op, renamed, p, sec, rfl, hp, hSec, rfl⟩ | ⟨rfl, hp, rfl⟩
  · exact (h.request hp (hAdmissible op rfl) hSec saved _).1
  · exact ⟨h.use, h.drawn, by simp, by simp⟩
  · exact (h.request hp (hAdmissible op rfl) hSec true _).2
  · refine ⟨h.use, h.drawn, fun q hq => ?_, fun q hq key code hLookup => ?_⟩ <;>
      obtain rfl := Option.some.inj hq
    · exact Nat.zero_le 100
    · cases hLookup

/-- In every reachable state no code has been redeemed twice, or late, or for
another address than its own, and at most a hundred are outstanding; and a
join answered with an error leaves its code as it was. -/
theorem codes_single_use {cfg : ServerConfig} {token : String}
    {s : Machine Process State Op Answer} (h : Reachable (codeRuns cfg token) s) :
    SingleUse s.history ∧ ∀ p, s.mem = some p → p.server.codes.entries.length ≤ 100 ∧
      ∀ env body saved, ((p.server.join env body).result saved).2.reply.isError = true →
        ((p.server.join env body).result saved).1.codes = p.server.codes ∧
        ∀ req env', ((p.server.join env body).result saved).1.joinPlan req env' =
          p.server.joinPlan req env' := by
  have hInvariant : CodesInvariant s := by
    refine h.invariant (M := codeRuns cfg token) (I := CodesInvariant) (fun s hs => ?_)
      fun s l t hs hStep => codes_step hs hStep.1 hStep.2
    have hHistory : s.history = [] := by rw [hs]
    have hMem : ∀ p, s.mem = some p → p.server.codes = ∅ := by
      rintro p hp
      rw [hs] at hp
      obtain rfl := Option.some.inj hp
      rfl
    refine ⟨⟨by simp [hHistory], by simp [hHistory]⟩, by simp [hHistory], fun p hp => ?_,
      fun p hp key code hLookup => ?_⟩
    · rw [hMem p hp]
      exact Nat.zero_le 100
    · rw [hMem p hp] at hLookup
      cases hLookup
  exact ⟨hInvariant.use, fun p hp => ⟨hInvariant.few p hp, fun env body saved => join_error⟩⟩

/-- A code with an address, and its redemption nine minutes later. -/
theorem codes_redeemed :
    ∃ s : Machine Process State Op Answer, (s.history.filterMap redeemed).map
        (fun r => (r.code, r.time, r.device.ip)) = [(sampleToken 'c', 9 * minute, "10.77.0.5")] ∧
      SingleUse s.history := by
  have hRun : (follow (fun s l => if ∀ op ∈ l.op, Admissible s.history op then
        (service sampleConfig).step s l else none)
      ⟨some (firstProcess sampleConfig ""), firstState sampleConfig "", []⟩
      [.run (.createCode (sampleEnv 'c' 'c') (.ok "10.77.0.5")) true,
       .run (.join { sampleEnv 'a' 'b' with now := 9 * minute }
        (.ok ⟨sampleToken 'c', "laptop", sampleKey⟩)) true]).map
      (fun s => (s.history.filterMap redeemed).map fun r => (r.code, r.time, r.device.ip)) =
      some [(sampleToken 'c', 9 * minute, "10.77.0.5")] := by decide +kernel
  obtain ⟨s, hFollow, hView⟩ := Option.map_eq_some_iff.mp hRun
  have hReach : Reachable (codeRuns sampleConfig "") s := by
    refine ⟨_, _, rfl, runs_of_follow (fun s l t hStep => ?_) hFollow⟩
    split at hStep
    · next hAdmissible => exact ⟨hAdmissible, hStep⟩
    · cases hStep
  exact ⟨s, hView, (codes_single_use hReach).1⟩

end NetConductor
