import NetConductor.Semantics.Routes
import NetConductor.Server.Runs

/-! The WireGuard peer table as `join` and `reconcilePeers` see and change it.
Both look only at the first prefix of each printed line, and for a piece of
text in it. -/
namespace NetConductor
open GoText GoNet Durable Routes

/-- What is still to be done for the table of a reconcile pass: nothing for a
device whose address is listed on its key, nothing where another key has it. -/
def present (existing : String) (d : Device) : Bool :=
  (Server.peerHits existing d.ip).any (· = d.publicKey)

def conflict (existing : String) (d : Device) : Bool :=
  (Server.peerHits existing d.ip).any (· ≠ d.publicKey)

def managed (d : Device) : Bool := Server.validKey d.publicKey && (parseIPString d.ip).isSome

def needsPeer (existing : String) (d : Device) : Bool :=
  managed d && !present existing d && !conflict existing d

/-- One pass over a copy of the device list, with what `wg` answers if it is
told to set a device's peer; the answers are not looked at. -/
def reconcilePeers (existing : Except String String) (devices : List (Device × Bool)) :
    List (WGCommand × Bool) :=
  match existing with
  | .error _ => []
  | .ok existing => (devices.filter fun d => needsPeer existing d.1).map fun d =>
      (.set d.1.publicKey (Server.hostPrefix d.1.ip), d.2)

/-! ### The table -/

abbrev PeerTable := Table String String

/-- One line a peer: its key, then its prefixes. -/
def peerRows (T : PeerTable) : List (List Chars) :=
  T.entries.map fun e => e.1.toList :: e.2.map String.toList

/-- The output of `wg show allowed-ips` as `runWG` returns it. -/
def showAllowedIPs (T : PeerTable) : String :=
  String.ofList (trimSpace (unlines ((peerRows T).map unwords)))

/-- Keys and prefixes are printed without white space in them. -/
def Printable (T : PeerTable) : Prop :=
  ∀ e ∈ T.entries, IsWord e.1.toList ∧ ∀ q ∈ e.2, IsWord q.toList

instance (T : PeerTable) : Decidable (Printable T) :=
  inferInstanceAs (Decidable (∀ e ∈ T.entries, _))

/-- A command that fails has no effect. -/
def issue (T : PeerTable) : WGCommand × Bool → PeerTable
  | (.set key p, true) => assign T key p
  | (.remove key, true) => T.erase key
  | (_, false) => T

/-- Every command leaves each owner its routes, but for the device's own: the
one it sets, or `own` when it removes a peer. -/
def KeepsRoutes (own : String) : PeerTable → List (WGCommand × Bool) → Prop
  | _, [] => True
  | T, (.set key p, ok) :: rest =>
      Keeps T (issue T (.set key p, ok)) key p ∧ KeepsRoutes own (issue T (.set key p, ok)) rest
  | T, (.remove key, ok) :: rest =>
      Keeps T (issue T (.remove key, ok)) key own ∧
        KeepsRoutes own (issue T (.remove key, ok)) rest

/-- What a printed table gives back: a hit is a peer whose first prefix contains
the text. -/
theorem mem_peerHits {T : PeerTable} (hT : Printable T) {ip key : String} :
    key ∈ Server.peerHits (showAllowedIPs T) ip ↔
      ∃ first rest, (routes T key) = first :: rest ∧
        (Server.hostPrefix ip).toList <:+: first.toList := by
  have hRead : (lines (showAllowedIPs T).toList).map fields =
      if peerRows T = [] then [[]] else peerRows T := by
    rw [showAllowedIPs, String.toList_ofList]
    split
    · next hNone => rw [hNone]; exact read_no_rows
    · next hSome =>
        refine read_rows (fun row hRow => ?_) (fun row hRow w hw => ?_) hSome
        · obtain ⟨e, -, rfl⟩ := List.mem_map.mp hRow
          simp
        · obtain ⟨e, he, rfl⟩ := List.mem_map.mp hRow
          rcases List.mem_cons.mp hw with rfl | hw
          · exact (hT e he).1
          · obtain ⟨q, hq, rfl⟩ := List.mem_map.mp hw
            exact (hT e he).2 q hq
  have hHits : Server.peerHits (showAllowedIPs T) ip =
      (peerRows T).filterMap (Server.peerHit ip) := by
    have hMap : Server.peerHits (showAllowedIPs T) ip =
        ((lines (showAllowedIPs T).toList).map fields).filterMap (Server.peerHit ip) := by
      rw [List.filterMap_map]
      rfl
    rw [hMap, hRead]
    split
    · next hNone => rw [hNone]; rfl
    · rfl
  have hRoutes : ∀ ps, ⟨key, ps⟩ ∈ T.entries → routes T key = ps := by
    intro ps hEntry
    rw [routes, AList.mem_lookup_iff.mpr hEntry]
    rfl
  rw [hHits, List.mem_filterMap]
  constructor
  · rintro ⟨row, hRow, hHit⟩
    obtain ⟨⟨k, ps⟩, hEntry, rfl⟩ := List.mem_map.mp hRow
    cases ps with
    | nil => simp [Server.peerHit] at hHit
    | cons first rest =>
        simp only [Server.peerHit, List.map_cons, String.ofList_toList] at hHit
        split at hHit
        · next hText =>
            obtain rfl := Option.some.inj hHit
            exact ⟨first, rest, hRoutes _ hEntry, hText⟩
        · cases hHit
  · rintro ⟨first, rest, hFirst, hText⟩
    have hEntry : ⟨key, first :: rest⟩ ∈ T.entries := by
      refine AList.mem_lookup_iff.mp ?_
      unfold routes at hFirst
      cases hLookup : T.lookup key with
      | none => simp [hLookup] at hFirst
      | some ps => simpa [hLookup] using hFirst
    refine ⟨_, List.mem_map_of_mem hEntry, ?_⟩
    simp [Server.peerHit, hText]

/-- Where the look at the table hits nothing, the address is free for the key
exactly when the key has no prefix at all and no other peer has the address
behind its first prefix. -/
def Unseen (T : PeerTable) (key p : String) : Prop :=
  routes T key = [] ∧ ∀ k, k ≠ key → p ∉ (routes T k).tail

/-- Where the check finds no peer the route is free, unless the table has it where the
check does not look. -/
theorem free_iff_unseen {T : PeerTable} (hT : Printable T) {ip key : String}
    (hNone : Server.peerHits (showAllowedIPs T) ip = []) :
    Free T key (Server.hostPrefix ip) ↔ Unseen T key (Server.hostPrefix ip) := by
  have hFirst : ∀ k rest, routes T k ≠ Server.hostPrefix ip :: rest := by
    intro k rest hRoutes
    have hHit := (mem_peerHits hT).mpr ⟨_, rest, hRoutes, List.infix_refl _⟩
    simp [hNone] at hHit
  constructor
  · rintro ⟨hOwn, hOthers⟩
    refine ⟨?_, fun k hk hp => hOthers k hk (List.mem_of_mem_tail hp)⟩
    cases hRoutes : routes T key with
    | nil => rfl
    | cons first rest =>
        obtain rfl := hOwn first (by simp [hRoutes])
        exact absurd hRoutes (hFirst key rest)
  · rintro ⟨hEmpty, hOthers⟩
    refine ⟨fun q hq => by simp [hEmpty] at hq, fun k hk hp => ?_⟩
    cases hRoutes : routes T k with
    | nil => simp [hRoutes] at hp
    | cons first rest =>
        rw [hRoutes] at hp
        rcases List.mem_cons.mp hp with rfl | hp
        · exact hFirst k rest hRoutes
        · exact hOthers k hk (by rw [hRoutes]; exact hp)

/-! ### Joining -/

/-- The plan of a request, if its checks pass. -/
def planned (s : Server) (env : Env) : Decoded Server.JoinRequest →
    Option (Server.JoinRequest × Server.JoinPlan)
  | .error _ => none
  | .ok req =>
      match s.joinPlan req env with
      | .error _ => none
      | .ok plan => some (req, plan)

/-- Every command of the join keeps the routes of the table it finds, but for
the address it gives out, and a device that it adds without setting its peer is
routed by the table already. -/
def JoinRespects (T : PeerTable) (s : Server) (env : Env) (body : Decoded Server.JoinRequest) :
    Prop :=
  (∀ saved, KeepsRoutes (((planned s env body).map fun p => Server.hostPrefix p.2.ip).getD "") T
    ((s.join env body).result saved).2.wg) ∧
  ∀ d key endpoint network proxy adopted,
    ((s.join env body).result true).2 =
      ⟨.json (.joined d key endpoint network proxy adopted), []⟩ →
    Server.hostPrefix d.ip ∈ routes T d.publicKey

/-- Where the request's key is hit, it really has the address among its
prefixes; where nothing is hit and the peer is set, the address is unseen. -/
def JoinCondition (T : PeerTable) (s : Server) (env : Env) (body : Decoded Server.JoinRequest) :
    Prop :=
  ∀ p ∈ planned s env body,
    if Server.peerHits (showAllowedIPs T) p.2.ip = [] then
      env.wg.set = true → Unseen T p.1.publicKey (Server.hostPrefix p.2.ip)
    else Server.hostPrefix p.2.ip ∈ routes T p.1.publicKey

theorem planned_some {s : Server} {env : Env} {req : Server.JoinRequest}
    {plan : Server.JoinPlan} (h : s.joinPlan req env = .ok plan) :
    planned s env (.ok req) = some (req, plan) := by
  simp only [planned, h]

/-- What there is to a join that has a plan. -/
theorem planned_eq_some {s : Server} {env : Env} {body : Decoded Server.JoinRequest}
    {req : Server.JoinRequest} {plan : Server.JoinPlan} (h : planned s env body = some (req, plan)) :
    body = .ok req ∧ s.joinPlan req env = .ok plan := by
  cases body with
  | error e => cases h
  | ok req' =>
      cases hPlan : s.joinPlan req' env with
      | error e => simp [planned, hPlan] at h
      | ok plan' =>
          cases (planned_some hPlan).symm.trans h
          exact ⟨rfl, hPlan⟩

/-- Without a plan no command is issued. -/
theorem join_unplanned {s : Server} {env : Env} {body : Decoded Server.JoinRequest}
    (h : planned s env body = none) : ∃ status e, s.join env body = .answer s ⟨.fail status e, []⟩ := by
  cases body with
  | error e => exact ⟨400, e, rfl⟩
  | ok req =>
      cases hPlan : s.joinPlan req env with
      | error e => exact ⟨e.status, e.error, by simp only [Server.join, hPlan]⟩
      | ok plan => simp [planned_some hPlan] at h

theorem keeps_remove {T : PeerTable} {key p : String} (h : ∀ q ∈ routes T key, q = p) :
    Keeps T (T.erase key) key p := by
  intro k q hq
  by_cases hk : k = key
  · subst hk
    exact .inl ⟨rfl, h q hq⟩
  · exact .inr (by rwa [routes_erase_ne hk])

theorem keepsRoutes_set {T : PeerTable} {key p : String} :
    KeepsRoutes p T [(.set key p, true)] ↔ Free T key p := by
  simp [KeepsRoutes, issue, keeps_assign_iff]

/-- Setting a peer and taking it back after a failed save is as good as setting
it. -/
theorem keepsRoutes_set_remove {T : PeerTable} {key p : String} {removed : Bool} :
    KeepsRoutes p T [(.set key p, true), (.remove key, removed)] ↔ Free T key p := by
  have hRemove : Keeps (assign T key p) (issue (assign T key p) (.remove key, removed)) key p := by
    cases removed with
    | false => exact fun k q hq => .inr hq
    | true => exact keeps_remove fun q hq => by simpa [mem_assign] using hq
  simp only [KeepsRoutes, issue, keeps_assign_iff, and_true]
  exact ⟨fun h => h.1, fun h => ⟨h, hRemove⟩⟩

/-- A command that fails keeps everything. -/
theorem keepsRoutes_failed {T : PeerTable} {own key p : String} :
    KeepsRoutes own T [(.set key p, false)] := ⟨fun _ _ hq => .inr hq, trivial⟩

/-- A join takes no route from another peer exactly under the condition. -/
theorem join_respects_iff {T : PeerTable} (hT : Printable T) (s : Server) (env : Env)
    (body : Decoded Server.JoinRequest) (hShow : env.wg.allowedIPs = .ok (showAllowedIPs T)) :
    JoinRespects T s env body ↔ JoinCondition T s env body := by
  cases hPlanned : planned s env body with
  | none =>
      obtain ⟨status, e, hJoin⟩ := join_unplanned hPlanned
      refine iff_of_true ⟨fun saved => ?_, fun d key endpoint network proxy adopted hAnswer => ?_⟩
        fun p hp => ?_
      · rw [hJoin]
        trivial
      · simp [hJoin, Section.result] at hAnswer
      · simp [hPlanned] at hp
  | some p =>
      obtain ⟨req, plan⟩ := p
      obtain ⟨rfl, hPlan⟩ := planned_eq_some hPlanned
      obtain ⟨-, -, code, existing, -, -, hExisting, -, -, -, hHits, hAdopted⟩ :=
        Server.joinPlan_ok hPlan
      obtain rfl : existing = showAllowedIPs T := by simpa [hShow] using hExisting.symm
      simp only [JoinRespects, JoinCondition, hPlanned, Option.mem_some_iff, forall_eq',
        Option.map_some, Option.getD_some, Server.join, hPlan, Server.commitJoin, hAdopted]
      by_cases hNone : Server.peerHits (showAllowedIPs T) plan.ip = []
      · cases hSet : env.wg.set with
        | false =>
            simp [hNone, Section.result, Server.setPeer, hAdopted, hSet, keepsRoutes_failed]
        | true =>
            have hFree : Free T req.publicKey (Server.hostPrefix plan.ip) ↔ _ :=
              free_iff_unseen hT hNone
            simp [hNone, Section.result, Server.setPeer, Server.removePeer, hAdopted, hSet,
              keepsRoutes_set, keepsRoutes_set_remove, hFree]
      · simp only [hNone, Server.setPeer, Server.removePeer, hAdopted, ne_eq, not_false_eq_true,
          decide_true, if_true, List.append_nil, if_false, Bool.true_eq_false, false_and]
        constructor
        · exact fun h => h.2 _ _ _ _ _ _ rfl
        · refine fun h => ⟨fun saved => ?_, fun d key endpoint network proxy adopted hAnswer => ?_⟩
          · cases saved <;> trivial
          · cases hAnswer
            exact h

/-! ### Reconciling -/

/-- Every command of the pass keeps the routes of the table it finds, and a
device it takes for present is routed by the table. -/
def ReconcileRespects (T : PeerTable) (devices : List (Device × Bool)) : Prop :=
  KeepsRoutes "" T (reconcilePeers (.ok (showAllowedIPs T)) devices) ∧
  ∀ d ∈ devices, managed d.1 = true → present (showAllowedIPs T) d.1 = true →
    Server.hostPrefix d.1.ip ∈ routes T d.1.publicKey

/-- A device whose key is hit really has its address among the prefixes; the
address of a device whose peer is set is unseen, and two such devices share
their keys only as they share their addresses. -/
def ReconcileCondition (T : PeerTable) (devices : List (Device × Bool)) : Prop :=
  (∀ d ∈ devices, managed d.1 = true → present (showAllowedIPs T) d.1 = true →
    Server.hostPrefix d.1.ip ∈ routes T d.1.publicKey) ∧
  (∀ d ∈ devices, needsPeer (showAllowedIPs T) d.1 = true → d.2 = true →
    Unseen T d.1.publicKey (Server.hostPrefix d.1.ip)) ∧
  (devices.filter fun d => needsPeer (showAllowedIPs T) d.1 && d.2).Pairwise fun d e =>
    d.1.publicKey = e.1.publicKey ↔ Server.hostPrefix d.1.ip = Server.hostPrefix e.1.ip

theorem hits_of_needsPeer {existing : String} {d : Device} (h : needsPeer existing d = true) :
    Server.peerHits existing d.ip = [] := by
  simp only [needsPeer, present, conflict, Bool.and_eq_true, Bool.not_eq_true',
    List.any_eq_false, decide_eq_true_eq] at h
  obtain ⟨⟨-, hPresent⟩, hConflict⟩ := h
  refine List.eq_nil_iff_forall_not_mem.mpr fun hit hHit => ?_
  exact hConflict hit hHit (hPresent hit hHit)

/-- Only the commands that succeed matter. -/
theorem keepsRoutes_sets (own : String) (T : PeerTable) (devices : List (Device × Bool)) :
    KeepsRoutes own T (devices.map fun d =>
      (.set d.1.publicKey (Server.hostPrefix d.1.ip), d.2)) ↔
    Safe T ((devices.filter fun d => d.2).map fun d =>
      (d.1.publicKey, Server.hostPrefix d.1.ip)) := by
  induction devices generalizing T with
  | nil => simp [KeepsRoutes, Safe]
  | cons d rest ih =>
      obtain ⟨d, ok⟩ := d
      cases ok with
      | false =>
          have hSame : Keeps T T d.publicKey (Server.hostPrefix d.ip) := fun k q hq => .inr hq
          simpa [KeepsRoutes, issue, hSame] using ih T
      | true => simp [KeepsRoutes, issue, Safe, ih]

/-- The same of a pass of `reconcile`. -/
theorem reconcile_respects_iff {T : PeerTable} (hT : Printable T) (devices : List (Device × Bool)) :
    ReconcileRespects T devices ↔ ReconcileCondition T devices := by
  have hSafe : KeepsRoutes "" T (reconcilePeers (.ok (showAllowedIPs T)) devices) ↔
      (∀ d ∈ devices, needsPeer (showAllowedIPs T) d.1 = true → d.2 = true →
        Unseen T d.1.publicKey (Server.hostPrefix d.1.ip)) ∧
      (devices.filter fun d => needsPeer (showAllowedIPs T) d.1 && d.2).Pairwise fun d e =>
        d.1.publicKey = e.1.publicKey ↔ Server.hostPrefix d.1.ip = Server.hostPrefix e.1.ip := by
    rw [reconcilePeers, keepsRoutes_sets, safe_iff, List.pairwise_map, List.filter_filter]
    refine and_congr ?_ ?_
    · rw [List.forall_mem_map]
      simp only [List.mem_filter, Bool.and_eq_true, and_imp]
      refine forall₂_congr fun d hd => ?_
      constructor
      · exact fun h hNeeds hOk =>
          (free_iff_unseen hT (hits_of_needsPeer hNeeds)).mp (h hOk hNeeds)
      · exact fun h hOk hNeeds =>
          (free_iff_unseen hT (hits_of_needsPeer hNeeds)).mpr (h hNeeds hOk)
    · have hFilter : (devices.filter fun d => d.2 && needsPeer (showAllowedIPs T) d.1) =
          devices.filter fun d => needsPeer (showAllowedIPs T) d.1 && d.2 :=
        List.filter_congr fun d _ => Bool.and_comm _ _
      rw [hFilter]
  rw [ReconcileRespects, ReconcileCondition, hSafe]
  tauto

/-- For every printed table, a join and a reconcile pass overwrite nobody's
route exactly when the text they look for stands where they look. -/
theorem peers_respected_iff {T : PeerTable} (hT : Printable T) :
    (∀ (s : Server) (env : Env) (body : Decoded Server.JoinRequest),
      env.wg.allowedIPs = .ok (showAllowedIPs T) →
      (JoinRespects T s env body ↔ JoinCondition T s env body)) ∧
    ∀ devices : List (Device × Bool), ReconcileRespects T devices ↔ ReconcileCondition T devices :=
  ⟨fun s env body hShow => join_respects_iff hT s env body hShow, reconcile_respects_iff hT⟩

/-- A table with one peer. -/
def onePeer (key : String) (ps : List String) : PeerTable := (∅ : PeerTable).insert key ps

theorem routes_onePeer_ne {key k : String} {ps : List String} (h : k ≠ key) :
    routes (onePeer key ps) k = [] := by
  rw [onePeer, routes, AList.lookup_insert_ne h]
  rfl

/-- A server that has handed out a code for an address, and a peer table that
answers its requests. -/
def codeServer (ip : String) : Server :=
  (Server.createCode (sampleEnv 'c' 'c') (.ok ip)
    (newServer sampleConfig (firstState sampleConfig ""))).1

def tableEnv (T : PeerTable) : Env :=
  { sampleEnv 'a' 'b' with wg := ⟨some "server key", .ok (showAllowedIPs T), true, true⟩ }

def sampleJoin : Decoded Server.JoinRequest := .ok ⟨sampleToken 'c', "laptop", sampleKey⟩

/-- Beside a peer with another address a join and a pass take nothing. -/
theorem peers_respected_beside_a_peer :
    JoinRespects (onePeer "peer" ["10.77.0.9/32"]) (codeServer "10.77.0.5")
      (tableEnv (onePeer "peer" ["10.77.0.9/32"])) sampleJoin ∧
    ReconcileRespects (onePeer sampleKey ["10.77.0.9/32"])
      [({ Device.zero with publicKey := sampleKey, ip := "10.77.0.9" }, true)] := by
  constructor
  · refine ((peers_respected_iff (by decide +kernel)).1 _ _ _ rfl).mpr fun p hp => ?_
    have hPlan : (planned (codeServer "10.77.0.5")
        (tableEnv (onePeer "peer" ["10.77.0.9/32"])) sampleJoin).map (fun p => (p.1.publicKey, p.2.ip)) =
        some (sampleKey, "10.77.0.5") := by decide +kernel
    rw [Option.mem_def.mp hp, Option.map_some, Option.some.injEq, Prod.mk.injEq] at hPlan
    rw [hPlan.1, hPlan.2, if_pos (by decide +kernel)]
    refine fun _ => ⟨by decide +kernel, fun k hk hTail => ?_⟩
    by_cases hPeer : k = "peer"
    · subst hPeer
      revert hTail
      decide +kernel
    · simp [routes_onePeer_ne hPeer] at hTail
  · refine ((peers_respected_iff (by decide +kernel)).2 _).mpr ⟨by decide +kernel, ?_, by decide +kernel⟩
    intro d hd hNeeds
    have hPresent : ∀ d ∈ [(({ Device.zero with publicKey := sampleKey, ip := "10.77.0.9" } : Device), true)],
        needsPeer (showAllowedIPs (onePeer sampleKey ["10.77.0.9/32"])) d.1 = false := by decide +kernel
    simp [hPresent d hd] at hNeeds

/-- An address that another peer has behind its first prefix is not seen, and
`join` takes it away. -/
theorem second_route_taken :
    ¬∀ (T : PeerTable) (s : Server) (env : Env) (body : Decoded Server.JoinRequest),
      Printable T → env.wg.allowedIPs = .ok (showAllowedIPs T) → JoinRespects T s env body := by
  intro hAll
  have hJoin := (hAll (onePeer "peer" ["10.77.0.9/32", "10.77.0.5/32"]) (codeServer "10.77.0.5")
    (tableEnv (onePeer "peer" ["10.77.0.9/32", "10.77.0.5/32"])) sampleJoin (by decide +kernel)
    rfl).1 true
  have hWG : ((Server.join (tableEnv (onePeer "peer" ["10.77.0.9/32", "10.77.0.5/32"])) sampleJoin
      (codeServer "10.77.0.5")).result true).2.wg =
      [(.set sampleKey "10.77.0.5/32", true)] := by decide +kernel
  rw [hWG] at hJoin
  rcases hJoin.1 "peer" "10.77.0.5/32" (by decide +kernel) with ⟨hKey, -⟩ | hKept
  · exact absurd hKey (by decide +kernel)
  · exact absurd hKept (by decide +kernel)

end NetConductor
