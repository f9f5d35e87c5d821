import NetConductor.Server.Dial
import NetConductor.Server.Runs

/-! The exit in use, as the policy shows it: `dialPolicy` taken apart into the
moment when it reads the policy, its dials, and the moment when it stores the
outcome, with any other request in between. -/
namespace NetConductor
open Durable Transition Deadline

/-- Where a `dialPolicy` stands: exits still to be tried, or connected and about
to store through what. -/
inductive DialPhase where
  | trying (rest : List Device)
  | connected (active : String)

/-- A `dialPolicy` on its way, with the policy it read; `since` counts the
policies stored for the source before that. -/
structure Dial where
  source : String
  policy : Policy
  since : Nat
  phase : DialPhase

/-- What there is to remember: a policy was stored, or a dial has returned. -/
inductive DialEvent where
  | stored (source : String)
  | finished (source : String) (since : Nat) (failed : Bool)
deriving DecidableEq

/-- Whether a dial for the source has failed, if the event is its return. -/
def DialEvent.outcome (source : String) : DialEvent → Option Bool
  | .finished s _ failed => if s = source then some failed else none
  | .stored _ => none

structure Dialing where
  process : Process
  dials : List Dial
  events : List DialEvent

/-- `run` is any other request or task; the dials are named by their place in
the list, and `ok` tells how one of them went. -/
inductive DialLabel where
  | run (op : Op) (saved : Bool)
  | start (id : String)
  | attempt (i : Nat) (ok : Bool)
  | direct (i : Nat) (ok : Bool)
  | block (i : Nat)
  | report (i : Nat)

/-- An accepted `putPolicy` is remembered. -/
def storedEvents (op : Op) (ans : Answer) : List DialEvent :=
  match op, ans.reply with
  | .putPolicy _ id _, .json (.policy _) => [.stored id]
  | _, _ => []

namespace Dialing

def policies (w : Dialing) : List Policy := w.process.server.state.policies

/-- How many policies have been stored for the source. -/
def stored (w : Dialing) (source : String) : Nat := w.events.count (.stored source)

/-- `setActive` is a step of a dial here, and no request of its own. -/
def run (op : Op) (saved : Bool) (w : Dialing) : Option Dialing :=
  match op with
  | .setActive _ _ => none
  | op => (w.process.exec op).map fun sec =>
      { w with process := (sec.result saved).1
               events := w.events ++ storedEvents op (sec.result saved).2 }

/-- The snapshot. -/
def start (id : String) (w : Dialing) : Dialing :=
  let p := w.process.server.policyFor id Server.blockPolicy
  { w with dials := w.dials ++ [⟨id, p, w.stored id, .trying (w.process.server.exitsOf p)⟩] }

def move (i : Nat) (d : Dial) (phase : DialPhase) (w : Dialing) : Dialing :=
  { w with dials := w.dials.set i { d with phase := phase } }

/-- The dial returns. -/
def finish (i : Nat) (d : Dial) (failed : Bool) (w : Dialing) : Dialing :=
  { w with dials := w.dials.eraseIdx i, events := w.events ++ [.finished d.source d.since failed] }

def setActive (id active : String) (w : Dialing) : Dialing :=
  { w with process := { w.process with server := w.process.server.setActive id active } }

def step (w : Dialing) : DialLabel → Option Dialing
  | .run op saved => w.run op saved
  | .start id => some (w.start id)
  | .attempt i ok => w.dials[i]?.bind fun d =>
      match d.phase with
      | .trying (e :: rest) => some (w.move i d (if ok then .connected e.id else .trying rest))
      | _ => none
  | .direct i ok => w.dials[i]?.bind fun d =>
      match d.phase with
      | .trying [] =>
          if d.policy.onFailure = "direct" then
            if ok then some (w.move i d (.connected "DIRECT"))
            -- nothing is stored for a direct dial that fails
            else some (w.finish i d true)
          else none
      | _ => none
  | .block i => w.dials[i]?.bind fun d =>
      match d.phase with
      | .trying [] =>
          if d.policy.onFailure = "direct" then none
          else some ((w.setActive d.source "").finish i d true)
      | _ => none
  | .report i => w.dials[i]?.bind fun d =>
      match d.phase with
      | .connected active => some ((w.setActive d.source active).finish i d false)
      | _ => none

/-- All runs of one process from an empty state file, or those whose steps meet
a condition on the state they find. -/
def systemWhere (cfg : ServerConfig) (token : String) (allowed : Dialing → DialLabel → Prop) :
    System Dialing DialLabel where
  initial w := w = ⟨firstProcess cfg token, [], []⟩
  step w l w' := allowed w l ∧ w.step l = some w'

/-- A connection is reported under the policy it was dialed for, and a direct
dial fails only where no exit is shown as active. -/
def Timely (w : Dialing) : DialLabel → Prop
  | .report i => ∀ d ∈ w.dials[i]?, d.since = w.stored d.source
  | .direct i false => ∀ d ∈ w.dials[i]?, ∀ x ∈ w.policies, x.source = d.source → x.active = ""
  | _ => True

instance (w : Dialing) (l : DialLabel) : Decidable (w.Timely l) := by
  unfold Timely
  split <;> infer_instance

/-- What is shown as active is an exit of the policy, or a direct connection
where the policy allows it; it is nothing before a dial under the policy has
returned, and nothing after one that failed. -/
structure Truthful (w : Dialing) : Prop where
  named : ∀ x ∈ w.policies, x.active = "" ∨ x.active ∈ x.exits ∨
    (x.active = "DIRECT" ∧ x.onFailure = "direct")
  unused : ∀ x ∈ w.policies, (∀ failed, .finished x.source (w.stored x.source) failed ∉ w.events) →
    x.active = ""
  failed : ∀ x ∈ w.policies,
    (w.events.filterMap (DialEvent.outcome x.source)).getLast? = some true → x.active = ""

end Dialing

/-- What a dial has in hand comes from the policy it read. -/
def Dial.Sound (d : Dial) : Prop :=
  match d.phase with
  | .trying rest => ∀ e ∈ rest, e.id ∈ d.policy.exits
  | .connected active => active ∈ d.policy.exits ∨
      (active = "DIRECT" ∧ d.policy.onFailure = "direct")

/-- A dial that read the policy on record knows its exits. -/
structure Dial.Current (d : Dial) (x : Policy) : Prop where
  exits : x.exits = d.policy.exits
  onFailure : x.onFailure = d.policy.onFailure

namespace Dialing

structure Invariant (w : Dialing) : Prop where
  rows : ∀ x ∈ w.policies, ∀ y ∈ w.policies, x.source = y.source → x = y
  sound : ∀ d ∈ w.dials, d.Sound
  since : ∀ d ∈ w.dials, d.since ≤ w.stored d.source
  current : ∀ d ∈ w.dials, d.since = w.stored d.source →
    ∀ x ∈ w.policies, x.source = d.source → d.Current x
  truthful : w.Truthful

variable {w w' : Dialing}

theorem stored_finish (w : Dialing) (i : Nat) (d : Dial) (failed : Bool) (source : String) :
    (w.finish i d failed).stored source = w.stored source := by
  simp [stored, finish]

/-- The rows after `setActive`. -/
theorem mem_setActive {id active : String} {y : Policy} (h : y ∈ (w.setActive id active).policies) :
    ∃ x ∈ w.policies, y = if x.source = id then { x with active := active } else x := by
  obtain ⟨x, hx, rfl⟩ := List.mem_map.mp h
  exact ⟨x, hx, rfl⟩

/-- The policy that a snapshot reads is the one on record. -/
theorem policyFor_eq {s : Server} (hRows : ∀ x ∈ s.state.policies, ∀ y ∈ s.state.policies,
    x.source = y.source → x = y) {x : Policy} (hx : x ∈ s.state.policies) :
    s.policyFor x.source Server.blockPolicy = x := by
  rcases governs_policyFor s x.source with ⟨before, after, hSplit, hSource, -⟩ | ⟨hNone, -⟩
  · refine hRows _ ?_ x hx hSource
    rw [hSplit]
    simp
  · exact absurd rfl (hNone x hx)

theorem exitsOf_mem {s : Server} {p : Policy} {e : Device} (h : e ∈ s.exitsOf p) : e.id ∈ p.exits := by
  obtain ⟨id, hId, hDevice⟩ := List.mem_filterMap.mp h
  rwa [(Server.device_mem hDevice).2]

/-- A new dial has tried nothing yet. -/
theorem Invariant.start (h : w.Invariant) (id : String) : (w.start id).Invariant := by
  refine { h with sound := fun d hd => ?_, since := fun d hd => ?_, current := fun d hd => ?_,
                  truthful := ⟨h.truthful.named, h.truthful.unused, h.truthful.failed⟩ }
  · rcases List.mem_append.mp hd with hd | hd
    · exact h.sound d hd
    · rw [List.mem_singleton.mp hd]
      exact fun e he => exitsOf_mem he
  · rcases List.mem_append.mp hd with hd | hd
    · exact h.since d hd
    · rw [List.mem_singleton.mp hd]
      exact Nat.le_refl _
  · rcases List.mem_append.mp hd with hd | hd
    · exact h.current d hd
    · rw [List.mem_singleton.mp hd]
      rintro - x hx rfl
      have hRead := policyFor_eq h.rows hx
      exact ⟨congrArg Policy.exits hRead.symm, congrArg Policy.onFailure hRead.symm⟩

/-- A dial that goes on keeps its policy. -/
theorem Invariant.move (h : w.Invariant) {i : Nat} {d : Dial} (hd : w.dials[i]? = some d)
    {phase : DialPhase} (hSound : Dial.Sound { d with phase := phase }) :
    (w.move i d phase).Invariant := by
  have hMem : d ∈ w.dials := List.mem_of_getElem? hd
  refine { h with sound := fun e he => ?_, since := fun e he => ?_, current := fun e he => ?_,
                  truthful := ⟨h.truthful.named, h.truthful.unused, h.truthful.failed⟩ }
  · rcases List.mem_or_eq_of_mem_set he with he | rfl
    · exact h.sound e he
    · exact hSound
  · rcases List.mem_or_eq_of_mem_set he with he | rfl
    · exact h.since e he
    · exact h.since d hMem
  · rcases List.mem_or_eq_of_mem_set he with he | rfl
    · exact h.current e he
    · intro hSince x hx hSource
      obtain ⟨hExits, hOnFailure⟩ := h.current d hMem hSince x hx hSource
      exact ⟨hExits, hOnFailure⟩

/-- The last return that counts for a source, after one more. -/
theorem getLast_finish (w : Dialing) (i : Nat) (d : Dial) (failed : Bool) (source : String) :
    ((w.finish i d failed).events.filterMap (DialEvent.outcome source)).getLast? =
      if d.source = source then some failed
      else (w.events.filterMap (DialEvent.outcome source)).getLast? := by
  by_cases hSource : d.source = source <;> simp [finish, DialEvent.outcome, hSource]

/-- A dial that fails without storing anything finds nothing stored. -/
theorem Invariant.finish (h : w.Invariant) (i : Nat) {d : Dial}
    (hNone : ∀ x ∈ w.policies, x.source = d.source → x.active = "") :
    (w.finish i d true).Invariant := by
  have hDials : ∀ e ∈ (w.finish i d true).dials, e ∈ w.dials := fun e he =>
    List.mem_of_mem_eraseIdx he
  refine ⟨h.rows, fun e he => h.sound e (hDials e he), fun e he => ?_, fun e he hSince => ?_,
    h.truthful.named, fun x hx hUnused => ?_, fun x hx hLast => ?_⟩
  · rw [stored_finish]
    exact h.since e (hDials e he)
  · rw [stored_finish] at hSince
    exact h.current e (hDials e he) hSince
  · rw [stored_finish] at hUnused
    exact h.truthful.unused x hx fun failed hMem => hUnused failed (List.mem_append_left _ hMem)
  · rw [getLast_finish] at hLast
    split at hLast
    · next hSource => exact hNone x hx hSource.symm
    · exact h.truthful.failed x hx hLast

/-- A dial that stores its outcome: nothing, or the name of what it got through
while its policy is still the one on record. -/
theorem Invariant.report (h : w.Invariant) (i : Nat) {d : Dial} {active : String} {failed : Bool}
    (hNamed : ∀ x ∈ w.policies, x.source = d.source → active = "" ∨ active ∈ x.exits ∨
      (active = "DIRECT" ∧ x.onFailure = "direct"))
    (hTimely : active = "" ∨ d.since = w.stored d.source) (hFailed : failed = true → active = "") :
    ((w.setActive d.source active).finish i d failed).Invariant := by
  have hDials : ∀ e ∈ ((w.setActive d.source active).finish i d failed).dials, e ∈ w.dials :=
    fun e he => List.mem_of_mem_eraseIdx he
  have hStored : ∀ source, ((w.setActive d.source active).finish i d failed).stored source =
      w.stored source := stored_finish (w.setActive d.source active) i d failed
  refine ⟨fun x hx y hy hSource => ?_, fun e he => h.sound e (hDials e he), fun e he => ?_,
    fun e he hSince y hy hSource => ?_, fun y hy => ?_, fun y hy hUnused => ?_, fun y hy hLast => ?_⟩
  · obtain ⟨x, hMem, rfl⟩ := mem_setActive hx
    obtain ⟨y, hMem', rfl⟩ := mem_setActive hy
    have hSame : x.source = y.source := by
      split at hSource <;> split at hSource <;> exact hSource
    rw [h.rows x hMem y hMem' hSame]
  · rw [hStored]
    exact h.since e (hDials e he)
  · rw [hStored] at hSince
    obtain ⟨x, hx, rfl⟩ := mem_setActive hy
    split at hSource <;> split
    all_goals
      obtain ⟨hExits, hOnFailure⟩ := h.current e (hDials e he) hSince x hx hSource
      exact ⟨hExits, hOnFailure⟩
  · obtain ⟨x, hx, rfl⟩ := mem_setActive hy
    split
    · next hSource => exact hNamed x hx hSource
    · exact h.truthful.named x hx
  · rw [hStored] at hUnused
    obtain ⟨x, hx, rfl⟩ := mem_setActive hy
    by_cases hSource : x.source = d.source
    · rw [if_pos hSource] at hUnused ⊢
      -- the dial that returns is one under the policy on record
      refine hTimely.resolve_right fun hSince => hUnused failed ?_
      rw [hSource, ← hSince]
      exact List.mem_append_right _ (List.mem_singleton.mpr rfl)
    · rw [if_neg hSource] at hUnused ⊢
      exact h.truthful.unused x hx fun failed hMem => hUnused failed (List.mem_append_left _ hMem)
  · rw [getLast_finish] at hLast
    obtain ⟨x, hx, rfl⟩ := mem_setActive hy
    by_cases hSource : x.source = d.source
    · rw [if_pos hSource] at hLast ⊢
      rw [if_pos hSource.symm, Option.some.injEq] at hLast
      exact hFailed hLast
    · rw [if_neg hSource] at hLast ⊢
      rw [if_neg (Ne.symm hSource)] at hLast
      exact h.truthful.failed x hx hLast

end Dialing

/-! ### Other requests -/

/-- Every request but `putPolicy` and `setActive` leaves the policies alone. -/
theorem Process.exec_policies {p : Process} {op : Op} {sec : Section Process Answer}
    (h : p.exec op = some sec) (hPut : ∀ env id body, op ≠ .putPolicy env id body)
    (hSet : ∀ id active, op ≠ .setActive id active) :
    sec.Holds (fun q => q.server.state.policies = p.server.state.policies) fun _ => True := by
  have hOn : ∀ sec' : Section Server Answer,
      sec'.Holds (fun s => s.state.policies = p.server.state.policies) (fun _ => True) →
      p.onServer sec' = some sec →
      sec.Holds (fun q => q.server.state.policies = p.server.state.policies) fun _ => True := by
    rintro sec' hHolds hSec
    obtain rfl := Option.some.inj hSec
    rwa [Section.holds_map]
  cases op with
  | createCode env body =>
      obtain ⟨codes, hResult, -⟩ := Server.createCode_cases env body p.server
      exact hOn (.answer _ _) (by rw [hResult]; rfl) h
  | join env body =>
      refine hOn _ ?_ h
      rcases Server.join_cases env body p.server with ⟨status, e, wg, hJoin⟩ | ⟨req, plan, -, -, hJoin⟩
      · rw [hJoin]
        rfl
      · rw [hJoin]
        exact ⟨trivial, by simp, by simp⟩
  | heartbeat env authorization body =>
      refine hOn _ ((Server.heartbeat_holds (I := fun s => s.state.policies = p.server.state.policies)
        (fun s id f _ hs => hs) env authorization body rfl).mono (fun _ hs => hs) fun _ _ => trivial) h
  | updateDevice env id body =>
      refine hOn _ ?_ h
      rcases Server.updateDevice_cases env id body p.server with ⟨status, e, hUpdate⟩ |
        ⟨v, old, -, -, -, hUpdate⟩
      · rw [hUpdate]
        rfl
      · rw [hUpdate]
        exact ⟨trivial, by simp [Server.withSettings], by simp [Server.withSettings]⟩
  | putPolicy env id body => exact absurd rfl (hPut env id body)
  | setActive id active => exact absurd rfl (hSet id active)
  | writeProbe id result =>
      exact hOn (.answer (p.server.writeProbe id result) ⟨.done, []⟩) rfl h
  | saveProbe => exact hOn (.persist _ _ _) ⟨trivial, rfl, rfl⟩ h
  | auditSession env action detail =>
      have hSame := Server.audit_policies p.server env.now action detail
      exact hOn (p.server.auditSession env action detail) ⟨trivial, hSame, hSame⟩ h
  | putMapping env body =>
      rcases putMapping_cases h with ⟨status, e, rfl⟩ | ⟨m, -, -, -, -, rfl⟩ <;> rfl
  | openMapping listen =>
      obtain ⟨m, -, ⟨e, rfl⟩ | ⟨l, -, rfl⟩⟩ := openMapping_cases h <;> rfl
  | commitMapping env =>
      obtain ⟨m, stop, -, rfl⟩ := commitMapping_cases h
      exact ⟨trivial, by simp, by simp⟩
  | deleteMapping env id =>
      obtain ⟨-, rfl | ⟨-, rfl⟩⟩ := deleteMapping_cases h
      · rfl
      · exact ⟨trivial, by simp, by simp⟩
  | restoreMappings =>
      obtain ⟨-, -, rfl⟩ := restoreMappings_cases h
      rfl
  | restoreNext listen =>
      rcases restoreNext_cases h with ⟨-, rfl⟩ |
        ⟨m, todo, -, ⟨-, rfl⟩ | ⟨-, e, -, rfl⟩ | ⟨-, l, -, rfl⟩⟩ <;> rfl
  | restoreMark =>
      obtain ⟨id, error, todo, -, rfl⟩ := restoreMark_cases h
      rfl

namespace Dialing

variable {w w' : Dialing}

/-- Where the policies are the same and nothing is remembered, nothing changes. -/
theorem Invariant.other (h : w.Invariant) {p : Process}
    (hSame : p.server.state.policies = w.policies) : Invariant { w with process := p } := by
  have hRows : Dialing.policies { w with process := p } = w.policies := hSame
  refine ⟨?_, h.sound, h.since, ?_, ?_, ?_, ?_⟩ <;> rw [hRows]
  · exact h.rows
  · exact h.current
  · exact h.truthful.named
  · exact h.truthful.unused
  · exact h.truthful.failed

/-- A policy that is stored is shown without an active exit, and no dial has
read it yet. -/
theorem Invariant.stored (h : w.Invariant) {p : Process} (row : Policy) (hActive : row.active = "")
    (hRows : p.server.state.policies = Server.storePolicy row w.policies) :
    Invariant { w with process := p, events := w.events ++ [.stored row.source] } := by
  have hMem : ∀ x ∈ p.server.state.policies, x = row ∨ (x ∈ w.policies ∧ x.source ≠ row.source) := by
    intro x hx
    rw [hRows] at hx
    exact FirstMatch.mem_upsert hx
  have hCount : ∀ source, Dialing.stored ⟨p, w.dials, w.events ++ [.stored row.source]⟩ source =
      w.stored source + if row.source = source then 1 else 0 := by
    intro source
    simp [Dialing.stored, List.count_append, List.count_singleton]
  refine ⟨fun x hx y hy hSource => ?_, h.sound, fun d hd => ?_, fun d hd hSince x hx hSource => ?_,
    fun x hx => ?_, fun x hx hUnused => ?_, fun x hx hLast => ?_⟩
  · rcases hMem x hx with rfl | ⟨hx, hx'⟩ <;> rcases hMem y hy with rfl | ⟨hy, hy'⟩
    · rfl
    · exact absurd hSource.symm hy'
    · exact absurd hSource hx'
    · exact h.rows x hx y hy hSource
  · rw [hCount]
    exact Nat.le_add_right_of_le (h.since d hd)
  · have hOld := h.since d hd
    rw [hCount] at hSince
    split at hSince
    · omega
    · next hOther =>
        rcases hMem x hx with rfl | ⟨hx, -⟩
        · exact absurd hSource hOther
        · exact h.current d hd hSince x hx hSource
  · rcases hMem x hx with rfl | ⟨hx, -⟩
    · exact .inl hActive
    · exact h.truthful.named x hx
  · rcases hMem x hx with rfl | ⟨hx, hOther⟩
    · exact hActive
    · rw [hCount, if_neg (Ne.symm hOther), Nat.add_zero] at hUnused
      exact h.truthful.unused x hx fun failed hMem => hUnused failed (List.mem_append_left _ hMem)
  · rcases hMem x hx with rfl | ⟨hx, -⟩
    · exact hActive
    · rw [List.filterMap_append] at hLast
      exact h.truthful.failed x hx (by simpa [DialEvent.outcome] using hLast)

theorem storedEvents_nil {op : Op} (h : ∀ env id body, op ≠ .putPolicy env id body) (ans : Answer) :
    storedEvents op ans = [] := by
  cases op with
  | putPolicy env id body => exact absurd rfl (h env id body)
  | _ => rfl

/-- A request or task of the server, other than the end of a dial. -/
theorem run_some {op : Op} {saved : Bool} (h : w.run op saved = some w') :
    (∀ id active, op ≠ .setActive id active) ∧ ∃ sec, w.process.exec op = some sec ∧
      w' = { w with process := (sec.result saved).1
                    events := w.events ++ storedEvents op (sec.result saved).2 } := by
  unfold run at h
  split at h
  · cases h
  · next hSet =>
      obtain ⟨sec, hSec, rfl⟩ := Option.map_eq_some_iff.mp h
      exact ⟨hSet, sec, hSec, rfl⟩

/-- A request or task of the server keeps it; a policy that is put begins anew. -/
theorem Invariant.run (h : w.Invariant) {op : Op} {saved : Bool} (hRun : w.run op saved = some w') :
    w'.Invariant := by
  obtain ⟨hSet, sec, hSec, rfl⟩ := run_some hRun
  by_cases hPut : ∃ env id body, op = .putPolicy env id body
  · obtain ⟨env, id, body, rfl⟩ := hPut
    obtain rfl := Option.some.inj hSec
    rcases Server.putPolicy_cases env id body w.process.server with ⟨status, e, hAnswer⟩ |
      ⟨v, -, -, -, -, -, hStored⟩
    · rw [hAnswer]
      simp only [storedEvents, Section.map, Section.result, List.append_nil]
      exact h.other rfl
    · rw [hStored]
      cases saved with
      | false =>
          simp only [storedEvents, Section.map, Section.result, List.append_nil]
          exact h.other rfl
      | true =>
          exact h.stored (Server.storedPolicy id v) rfl (by simp [Section.map,
            Section.result, Server.withPolicy, Dialing.policies])
  · have hPut' : ∀ env id body, op ≠ .putPolicy env id body := fun env id body hOp =>
      hPut ⟨env, id, body, hOp⟩
    rw [storedEvents_nil hPut', List.append_nil]
    exact h.other ((Process.exec_policies hSec hPut' hSet).result saved)

/-- Every timely step keeps the exit in use the one that was dialled last. -/
theorem Invariant.step {l : DialLabel} (h : w.Invariant) (hTimely : w.Timely l)
    (hStep : w.step l = some w') : w'.Invariant := by
  cases l with
  | run op saved => exact h.run hStep
  | start id =>
      cases hStep
      exact h.start id
  | attempt i ok =>
      obtain ⟨d, hd, hStep⟩ := Option.bind_eq_some_iff.mp hStep
      have hSound := h.sound d (List.mem_of_getElem? hd)
      split at hStep
      · next e rest hPhase =>
          cases hStep
          rw [Dial.Sound, hPhase] at hSound
          refine h.move hd ?_
          cases ok with
          | true => exact .inl (hSound e (List.mem_cons_self ..))
          | false => exact fun e' he' => hSound e' (List.mem_cons_of_mem e he')
      · cases hStep
  | direct i ok =>
      obtain ⟨d, hd, hStep⟩ := Option.bind_eq_some_iff.mp hStep
      split at hStep
      · next hPhase =>
          split at hStep
          · next hDirect =>
              cases ok with
              | true =>
                  cases hStep
                  exact h.move hd (.inr ⟨rfl, hDirect⟩)
              | false =>
                  cases hStep
                  exact h.finish i (hTimely d hd)
          · cases hStep
      · cases hStep
  | block i =>
      obtain ⟨d, hd, hStep⟩ := Option.bind_eq_some_iff.mp hStep
      split at hStep
      · split at hStep
        · cases hStep
        · cases hStep
          exact h.report i (fun _ _ _ => .inl rfl) (.inl rfl) fun _ => rfl
      · cases hStep
  | report i =>
      obtain ⟨d, hd, hStep⟩ := Option.bind_eq_some_iff.mp hStep
      have hMem := List.mem_of_getElem? hd
      have hSound := h.sound d hMem
      split at hStep
      · next active hPhase =>
          cases hStep
          rw [Dial.Sound, hPhase] at hSound
          refine h.report i (fun x hx hSource => .inr ?_) (.inr (hTimely d hd)) (by simp)
          obtain ⟨hExits, hOnFailure⟩ := h.current d hMem (hTimely d hd) x hx hSource
          rwa [hExits, hOnFailure]
      · cases hStep

end Dialing

/-! ### The dial as a whole -/

section
variable {Conn : Type}

/-- What a dial with nothing in between leaves behind. -/
def Dialing.dialed (id : String) (run : DialRun (PolicyDial Conn) Conn) (w : Dialing) : Dialing :=
  { (match run.trace.active with
      | some active => w.setActive id active
      | none => w) with
    events := w.events ++ [.finished id (w.stored id) (match run.outcome.result with
      | .ok _ => false
      | .error _ => true)] }

/-- Where the attempts of a dial lead it. -/
def DialPhase.after (tried : List (Device × Timed String Conn)) : DialPhase :=
  match found tried with
  | some (d, _) => .connected d.id
  | none => .trying []

variable {cfg : ServerConfig} {token : String}

/-- The attempts of a dial, one after another, as its loop makes them. -/
theorem Dialing.runs_attempts (cfg : ServerConfig) (token : String) (task : Nat → Device → Task String Conn) (exits : List Device)
    (n : Nat) (left : Left) (w : Dialing) (before : List Dial) {d : Dial}
    (hDials : w.dials = before ++ [{ d with phase := .trying exits }]) :
    ∃ labels, Runs (Dialing.systemWhere cfg token fun _ _ => True) w labels
      { w with dials := before ++ [{ d with phase := .after (tryEach task n left exits) }] } := by
  induction exits generalizing n left w with
  | nil =>
      refine ⟨[], ?_⟩
      obtain ⟨process, dials, events⟩ := w
      obtain rfl := hDials
      exact Runs.nil _
  | cons e rest ih =>
      have hHere : w.dials[before.length]? = some { d with phase := .trying (e :: rest) } := by
        simp [hDials]
      have hSet : ∀ d', w.dials.set before.length d' = before ++ [d'] := by simp [hDials]
      have hStep : ∀ ok, Runs (Dialing.systemWhere cfg token fun _ _ => True) w
          [.attempt before.length ok]
          { w with dials := before ++
              [{ d with phase := if ok then .connected e.id else .trying rest }] } := by
        intro ok
        refine Runs.single ⟨trivial, ?_⟩
        rw [Dialing.step, hHere]
        simp only [Option.bind_some, Dialing.move, hSet]
      cases hResult : (task n e left).result with
      | ok c =>
          refine ⟨[.attempt before.length true], ?_⟩
          rw [tryEach, hResult, DialPhase.after, found, hResult]
          exact hStep true
      | error text =>
          obtain ⟨labels, run⟩ := ih (n + 1) (left.map (· - (task n e left).elapsed))
            { w with dials := before ++ [{ d with phase := .trying rest }] } rfl
          refine ⟨_ ++ labels, (hStep false).trans ?_⟩
          rw [tryEach, hResult, DialPhase.after, found, hResult]
          exact run

/-- A `dialPolicy` is a run of its steps: with nothing in between they store and
return what the call as a whole does. -/
theorem Dialing.runs_dialPolicy (lib : Stdlib Conn) (net : Nat → Network Conn) (id address : String)
    (left : Left) (w : Dialing) :
    ∃ labels, Runs (Dialing.systemWhere cfg token fun _ _ => True) w labels
      (w.dialed id (w.process.server.dialPolicy lib net id address left)) := by
  obtain ⟨labels, run⟩ := Dialing.runs_attempts cfg token
    (dialExit lib net address) (w.process.server.exitsOf (w.process.server.policyFor id
      Server.blockPolicy)) 0 left (w.start id) w.dials
    (d := ⟨id, w.process.server.policyFor id Server.blockPolicy, w.stored id, .trying []⟩) rfl
  have hStart : Runs (Dialing.systemWhere cfg token fun _ _ => True) w [.start id] (w.start id) :=
    Runs.single ⟨trivial, rfl⟩
  have hErase : ∀ d : Dial, (w.dials ++ [d]).eraseIdx w.dials.length = w.dials := by
    intro d
    rw [List.eraseIdx_append_of_length_le (Nat.le_refl _), Nat.sub_self]
    simp
  cases hFound : found (triedExits lib net w.process.server id address left) with
  | some dc =>
      obtain ⟨d, c⟩ := dc
      rw [dialPolicy_found hFound]
      unfold triedExits at hFound
      refine ⟨_, (hStart.trans run).trans (Runs.single (l := .report w.dials.length) ⟨trivial, ?_⟩)⟩
      simp [Dialing.step, DialPhase.after, hFound, Dialing.finish, hErase, Dialing.dialed,
        Dialing.setActive, Dialing.start]
  | none =>
      by_cases hDirect : (w.process.server.policyFor id Server.blockPolicy).onFailure = "direct"
      · have hNone : found (triedExits lib net w.process.server id address left) = none := hFound
        obtain ⟨r, -, hRun⟩ := dialPolicy_direct hNone hDirect
        rw [hRun]
        unfold triedExits at hFound
        cases hResult : r.result with
        | ok c =>
            let d : Dial := ⟨id, w.process.server.policyFor id Server.blockPolicy, w.stored id, .trying []⟩
            have hConnect : Runs (Dialing.systemWhere cfg token fun _ _ => True)
                { w.start id with dials := w.dials ++ [d] } [.direct w.dials.length true]
                { w.start id with dials := w.dials ++ [{ d with phase := .connected "DIRECT" }] } :=
              Runs.single ⟨trivial, by simp [Dialing.step, hDirect, Dialing.move, d]⟩
            rw [DialPhase.after, hFound] at run
            refine ⟨_, ((hStart.trans run).trans hConnect).trans (Runs.single
              (l := .report w.dials.length) ⟨trivial, ?_⟩)⟩
            simp [Dialing.step, Dialing.finish, hErase, Dialing.dialed, Dialing.setActive,
              Dialing.start, d]
        | error text =>
            refine ⟨_, (hStart.trans run).trans (Runs.single
              (l := .direct w.dials.length false) ⟨trivial, ?_⟩)⟩
            simp [Dialing.step, DialPhase.after, hFound, hDirect, Dialing.finish, hErase,
              Dialing.dialed, Dialing.start]
      · rw [dialPolicy_blocked hFound hDirect]
        unfold triedExits at hFound
        refine ⟨_, (hStart.trans run).trans (Runs.single (l := .block w.dials.length) ⟨trivial, ?_⟩)⟩
        simp [Dialing.step, DialPhase.after, hFound, hDirect, Dialing.finish, hErase, Dialing.dialed,
          Dialing.setActive, Dialing.start]

end

/-- In every run in which no dial reports a connection under a policy that has
been replaced, and no direct dial fails while an exit is shown as active, what
is shown is true in every reachable state. -/
theorem active_truthful {cfg : ServerConfig} {token : String} {w : Dialing}
    (h : Reachable (Dialing.systemWhere cfg token Dialing.Timely) w) : w.Truthful := by
  have hInvariant : w.Invariant := by
    refine h.invariant (fun w hw => ?_) fun w l w' hw hStep => hw.step hStep.1 hStep.2
    have hNone : w.policies = [] := by rw [hw]; rfl
    refine ⟨?_, ?_, ?_, ?_, ?_, ?_, ?_⟩
    all_goals first | simp [hNone] | simp [show w.dials = [] by rw [hw]]
  exact hInvariant.truthful

/-- The labels lead to a state, all of them under a condition. -/
def Dialing.observe {α : Type} (allowed : Dialing → DialLabel → Prop)
    [∀ w l, Decidable (allowed w l)] (labels : List DialLabel) (view : Dialing → α) : Option α :=
  (follow (fun w l => if allowed w l then w.step l else none) ⟨firstProcess sampleConfig "", [], []⟩
    labels).map view

theorem Dialing.exists_reachable {α : Type} (allowed : Dialing → DialLabel → Prop)
    [∀ w l, Decidable (allowed w l)] (labels : List DialLabel) (view : Dialing → α) (v : α)
    (h : Dialing.observe allowed labels view = some v) :
    ∃ w, Reachable (Dialing.systemWhere sampleConfig "" allowed) w ∧ view w = v := by
  obtain ⟨w, hFollow, hView⟩ := Option.map_eq_some_iff.mp h
  refine ⟨w, ⟨_, labels, rfl, runs_of_follow (fun s l t hStep => ?_) hFollow⟩, hView⟩
  split at hStep
  · next hAllowed => exact ⟨hAllowed, hStep⟩
  · cases hStep

/-- The server is made an exit for itself. -/
def useServer : List DialLabel :=
  [.run (.updateDevice (sampleEnv 'a' 'b') "cloud" (.ok ⟨"server", 1080, "socks5", "", "", 22⟩)) true,
   .run (.putPolicy (sampleEnv 'a' 'b') "cloud" (.ok ⟨"", ["cloud"], "block", ""⟩)) true]

theorem active_after_dial :
    ∃ w : Dialing, w.policies = [⟨"cloud", ["cloud"], "block", "cloud"⟩] ∧ w.Truthful := by
  obtain ⟨w, hReach, hPolicies⟩ := Dialing.exists_reachable Dialing.Timely
    (useServer ++ [.start "cloud", .attempt 0 true, .report 0]) Dialing.policies
    [⟨"cloud", ["cloud"], "block", "cloud"⟩] (by decide +kernel)
  exact ⟨w, hPolicies, active_truthful hReach⟩

/-- A dial that connects through an exit after a policy without exits has been
stored shows that exit. -/
theorem replaced_exit_shown :
    ¬∀ (cfg : ServerConfig) (token : String) (w : Dialing),
      Reachable (Dialing.systemWhere cfg token fun _ _ => True) w → w.Truthful := by
  intro hAll
  obtain ⟨w, hReach, hPolicies⟩ := Dialing.exists_reachable (fun _ _ => True)
    (useServer ++ [.start "cloud", .attempt 0 true,
      .run (.putPolicy (sampleEnv 'a' 'b') "cloud" (.ok ⟨"", [], "block", ""⟩)) true, .report 0])
    Dialing.policies [⟨"cloud", [], "block", "cloud"⟩] (by decide +kernel)
  have hNamed := (hAll sampleConfig "" w hReach).named ⟨"cloud", [], "block", "cloud"⟩
    (by simp [hPolicies])
  simp at hNamed

end NetConductor
