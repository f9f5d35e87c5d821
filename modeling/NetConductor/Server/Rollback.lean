import NetConductor.Server.Peers

/-! What a join that is answered with an error leaves of the WireGuard peer
table: `join` sets a peer before it saves, and removes it when the save fails. -/
namespace NetConductor
open Durable

/-- The table after a changing command, taken for itself: `set` replaces the
prefixes of its key, and a command that fails has no effect. -/
def PeerTable.after (T : PeerTable) : WGCommand × Bool → PeerTable
  | (.set key p, true) => T.insert key [p]
  | (.remove key, true) => T.erase key
  | (_, false) => T

/-- The same peers with the same prefixes. -/
def PeerTable.Same (T T' : PeerTable) : Prop := ∀ key, T'.lookup key = T.lookup key

/-- The address that a request is to get, where its checks pass, `wg` lists it
for no peer, and the peer is set. -/
def newPeer (s : Server) (env : Env) (body : Decoded Server.JoinRequest) : Option (String × String) :=
  match planned s env body with
  | some (req, plan) =>
      if plan.adopted = false ∧ env.wg.set = true then some (req.publicKey, Server.hostPrefix plan.ip)
      else none
  | none => none

/-- A peer that is set was no peer before and is removed again; if the removal
fails, it had that prefix and no other all along. -/
def RollsBack (T : PeerTable) (s : Server) (env : Env) (body : Decoded Server.JoinRequest) : Prop :=
  ∀ p ∈ newPeer s env body,
    if env.wg.remove = true then T.lookup p.1 = none else T.lookup p.1 = some [p.2]

namespace PeerTable

variable {T : PeerTable} {key p : String}

/-- Setting a peer changes nothing exactly where it was there as it is. -/
theorem same_set_iff : T.Same (T.after (.set key p, true)) ↔ T.lookup key = some [p] := by
  constructor
  · intro h
    rw [← h key]
    exact AList.lookup_insert T
  · intro h k
    by_cases hk : k = key
    · rw [hk, h]
      exact AList.lookup_insert T
    · exact AList.lookup_insert_ne hk

/-- Setting and removing it changes nothing exactly where it was not there. -/
theorem same_set_remove_iff :
    T.Same ((T.after (.set key p, true)).after (.remove key, true)) ↔ T.lookup key = none := by
  constructor
  · intro h
    rw [← h key]
    exact AList.lookup_erase key _
  · intro h k
    by_cases hk : k = key
    · rw [hk, h]
      exact AList.lookup_erase key _
    · exact (AList.lookup_erase_ne hk).trans (AList.lookup_insert_ne hk)

end PeerTable

theorem newPeer_none {s : Server} {env : Env} {body : Decoded Server.JoinRequest}
    (h : planned s env body = none) : newPeer s env body = none := by
  simp only [newPeer, h]

/-- A join that is answered with an error leaves the peer table as it was exactly
when the peer it set, if any, was not in the table before and could be removed
again. -/
theorem failedJoin_restores_iff (T : PeerTable) {s : Server} {env : Env}
    {body : Decoded Server.JoinRequest} {saved : Bool}
    (hError : ((s.join env body).result saved).2.reply.isError = true) :
    T.Same (((s.join env body).result saved).2.wg.foldl PeerTable.after T) ↔
      RollsBack T s env body := by
  cases hPlanned : planned s env body with
  | none =>
      obtain ⟨status, e, hJoin⟩ := join_unplanned hPlanned
      rw [hJoin, RollsBack, newPeer_none hPlanned]
      exact iff_of_true (fun _ => rfl) (by simp)
  | some p =>
      obtain ⟨req, plan⟩ := p
      obtain ⟨rfl, hPlan⟩ := planned_eq_some hPlanned
      rw [Server.join, hPlan] at hError ⊢
      -- adopted, not set, and set before a save that fails
      rcases Bool.eq_false_or_eq_true plan.adopted with hAdopted | hAdopted
      · have hNone : newPeer s env (.ok req) = none := by simp [newPeer, hPlanned, hAdopted]
        rw [RollsBack, hNone]
        refine iff_of_true ?_ (by simp)
        simp only [Server.commitJoin, Server.setPeer, Server.removePeer, hAdopted, Bool.true_eq_false,
          false_and, if_false, if_true, List.append_nil]
        cases saved <;> exact fun _ => rfl
      rcases Bool.eq_false_or_eq_true env.wg.set with hSet | hSet
      · have hNew : newPeer s env (.ok req) = some (req.publicKey, Server.hostPrefix plan.ip) := by
          simp [newPeer, hPlanned, hAdopted, hSet]
        rw [RollsBack, hNew]
        simp only [Server.commitJoin, Server.setPeer, Server.removePeer, hAdopted, hSet,
          Bool.true_eq_false, Bool.false_eq_true, and_false, if_false] at hError ⊢
        cases saved with
        | true => cases hError
        | false =>
            simp only [Section.result, List.singleton_append, List.foldl_cons, List.foldl_nil,
              Option.mem_some_iff, forall_eq']
            cases env.wg.remove with
            | true =>
                rw [if_pos rfl]
                exact PeerTable.same_set_remove_iff
            | false =>
                rw [if_neg (by simp)]
                exact PeerTable.same_set_iff
      · have hNone : newPeer s env (.ok req) = none := by simp [newPeer, hPlanned, hSet]
        rw [RollsBack, hNone]
        refine iff_of_true ?_ (by simp)
        simp only [Server.commitJoin, Server.setPeer, hAdopted, hSet, and_self, if_true,
          Bool.false_eq_true, if_false]
        exact fun _ => rfl

/-- A save that fails beside another peer: the new one is removed again. -/
theorem failedJoin_beside_a_peer :
    (onePeer "peer" ["10.77.0.9/32"]).Same
      ((((codeServer "10.77.0.5").join (tableEnv (onePeer "peer" ["10.77.0.9/32"])) sampleJoin).result
        false).2.wg.foldl PeerTable.after (onePeer "peer" ["10.77.0.9/32"])) := by
  refine (failedJoin_restores_iff _ (by decide +kernel)).mpr ?_
  have hNew : newPeer (codeServer "10.77.0.5") (tableEnv (onePeer "peer" ["10.77.0.9/32"]))
      sampleJoin = some (sampleKey, "10.77.0.5/32") := by decide +kernel
  rw [RollsBack, hNew]
  decide +kernel

/-- The requesting key is a peer already, with a prefix of its own: setting it
replaces the prefix, and taking that back removes the peer. -/
theorem own_peer_removed :
    ¬∀ (T : PeerTable) (s : Server) (env : Env) (body : Decoded Server.JoinRequest) (saved : Bool),
      Printable T → env.wg.allowedIPs = .ok (showAllowedIPs T) →
      env.wg.set = true → env.wg.remove = true →
      ((s.join env body).result saved).2.reply.isError = true →
      T.Same (((s.join env body).result saved).2.wg.foldl PeerTable.after T) := by
  intro hAll
  have hSame := hAll (onePeer sampleKey ["10.77.0.9/32"]) (codeServer "10.77.0.5")
    (tableEnv (onePeer sampleKey ["10.77.0.9/32"])) sampleJoin false (by decide +kernel) rfl rfl rfl
    (by decide +kernel) sampleKey
  revert hSame
  decide +kernel

end NetConductor
