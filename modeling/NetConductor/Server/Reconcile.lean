import NetConductor.Server.Identity
import NetConductor.Server.Peers
import NetConductor.Text.Decimal

/-! `reconcilePeers` is called at the start and every sixth tick. Pass by pass
it brings the WireGuard table back to the devices on record, whatever stood in
it, and then has nothing more to say. -/
namespace NetConductor
open GoText GoNet Durable Transition Routes

/-- The key and the address are written the way `wg` prints them. -/
def Plain (d : Device) : Prop :=
  (∃ bytes : List UInt8, bytes ≠ [] ∧ d.publicKey = String.ofList (Base64.encode bytes)) ∧
    ∃ a b c e : UInt8, d.ip = String.ofList (dotted a b c e)

/-- One pass: whether `wg show` answers, the copy of the device list, and
whether `wg` takes the command for each device. -/
structure Round where
  shown : Bool
  devices : List (Device × Bool)

/-- The commands of a pass that finds this table. -/
def Round.commands (r : Round) (T : PeerTable) : List (WGCommand × Bool) :=
  reconcilePeers (if r.shown then .ok (showAllowedIPs T) else .error "") r.devices

/-- The devices whose peer the pass sets. -/
def Round.settled (r : Round) (T : PeerTable) : List Device :=
  if r.shown then
    (r.devices.filter fun d => d.2 && needsPeer (showAllowedIPs T) d.1).map Prod.fst
  else []

/-- The table after some passes, and the devices whose peer they have set. -/
def reconciled : PeerTable → List Round → PeerTable × List Device
  | T, [] => (T, [])
  | T, r :: rest =>
      let after := reconciled ((r.commands T).foldl issue T) rest
      (after.1, r.settled T ++ after.2)

/-- The pass of a server whose `wg` always answers. -/
def allAnswered (devices : List Device) : Round := ⟨true, devices.map (·, true)⟩

/-- Every device with a key and an address is in the table, or somebody else is
there with its address. -/
def Listed (T : PeerTable) (devices : List Device) : Prop :=
  ∀ d ∈ devices, managed d = true → ∃ k first rest, routes T k = first :: rest ∧
    (Server.hostPrefix d.ip).toList <:+: first.toList

/-! ### Keys and addresses as words -/

/-- A key in Base64 is one word. -/
theorem isWord_encode {bytes : List UInt8} (h : bytes ≠ []) : IsWord (Base64.encode bytes) := by
  refine ⟨fun hNone => ?_, fun c hc => ?_⟩
  · have hLength := congrArg List.length hNone
    rw [Base64.encode_length] at hLength
    have hPos := List.length_pos_iff.mpr h
    simp at hLength
    omega
  · rcases List.mem_append.mp hc with hc | hc
    · obtain ⟨n, hn, rfl⟩ := Base64.mem_raw hc
      have hAll : ∀ n < 64, isSpace (Base64.digit n) = false := by decide +kernel
      exact hAll n hn
    · obtain rfl : c = '=' := List.eq_of_mem_replicate hc
      decide

theorem isWord_dotted (a b c d : UInt8) : IsWord (dotted a b c d) := by
  have hWord : ∀ n : Nat, IsWord (Nat.repr n).toList := fun n => by
    rw [Nat.repr, String.toList_ofList]
    exact isWord_toDigits n
  have hPart : ∀ n : Nat, IsWord ((Nat.repr n).toList ++ ['.']) := fun n =>
    (hWord n).append (by decide)
  simp only [dotted, List.map_cons, List.map_nil, List.intercalate_cons_cons,
    List.intercalate_singleton]
  exact (hPart _).append ((hPart _).append ((hPart _).append (hWord _)))

theorem Plain.words {d : Device} (h : Plain d) :
    IsWord d.publicKey.toList ∧ IsWord (Server.hostPrefix d.ip).toList := by
  obtain ⟨⟨bytes, hBytes, hKey⟩, a, b, c, e, hIP⟩ := h
  rw [hKey, hIP, Server.hostPrefix, String.toList_ofList, String.toList_append,
    String.toList_ofList]
  exact ⟨isWord_encode hBytes, (isWord_dotted a b c e).append (by decide)⟩

/-! ### One pass -/

/-- The peer of a device, as the server sets it. -/
def peerOf (d : Device) : String × String := (d.publicKey, Server.hostPrefix d.ip)

/-- The devices on record, told apart by key and by address, with words for both. -/
structure Addressed (devices : List Device) : Prop where
  keys : (devices.map Device.publicKey).Nodup
  prefixes : (devices.map fun d => Server.hostPrefix d.ip).Nodup
  words : ∀ d ∈ devices, managed d = true →
    IsWord d.publicKey.toList ∧ IsWord (Server.hostPrefix d.ip).toList

/-- The commands that fail change nothing. -/
theorem issue_commands (r : Round) (T : PeerTable) :
    (r.commands T).foldl issue T = assignAll T ((r.settled T).map peerOf) := by
  cases hShown : r.shown with
  | false => simp [Round.commands, Round.settled, reconcilePeers, assignAll, hShown]
  | true =>
      simp only [Round.commands, Round.settled, hShown, if_true, reconcilePeers]
      have hIssue : ∀ (devices : List (Device × Bool)) (now : PeerTable),
          ((devices.filter fun d => needsPeer (showAllowedIPs T) d.1).map fun d =>
            (WGCommand.set d.1.publicKey (Server.hostPrefix d.1.ip), d.2)).foldl issue now =
          assignAll now (((devices.filter fun d => d.2 && needsPeer (showAllowedIPs T) d.1).map
            Prod.fst).map peerOf) := by
        intro devices
        induction devices with
        | nil => exact fun now => rfl
        | cons d rest ih =>
            intro now
            obtain ⟨d, ok⟩ := d
            cases hNeeds : needsPeer (showAllowedIPs T) d <;> cases ok <;>
              simp [hNeeds, issue, peerOf, assignAll, ih]
      exact hIssue r.devices T

/-- A settled device is one of the round's, and needed its peer. -/
theorem mem_settled {r : Round} {T : PeerTable} {d : Device} (h : d ∈ r.settled T) :
    d ∈ r.devices.map Prod.fst ∧ needsPeer (showAllowedIPs T) d = true := by
  unfold Round.settled at h
  split_ifs at h
  · obtain ⟨pair, hPair, rfl⟩ := List.mem_map.mp h
    obtain ⟨hMem, hNeeds⟩ := List.mem_filter.mp hPair
    simp only [Bool.and_eq_true] at hNeeds
    exact ⟨List.mem_map_of_mem hMem, hNeeds.2⟩
  · cases h

theorem settled_sublist (r : Round) (T : PeerTable) :
    (r.settled T).Sublist (r.devices.map Prod.fst) := by
  unfold Round.settled
  split_ifs
  · exact List.filter_sublist.map Prod.fst
  · exact List.nil_sublist _

theorem managed_of_needsPeer {existing : String} {d : Device} (h : needsPeer existing d = true) :
    managed d = true := by
  simp only [needsPeer, Bool.and_eq_true] at h
  exact h.1.1

/-- Nobody has the address of such a device up front. -/
theorem unseen_of_needsPeer {T : PeerTable} (hT : Printable T) {d : Device}
    (h : needsPeer (showAllowedIPs T) d = true) {k first : String} {rest : List String}
    (hRoutes : routes T k = first :: rest) :
    ¬(Server.hostPrefix d.ip).toList <:+: first.toList := fun hText => by
  have hHit := (mem_peerHits hT).mpr ⟨first, rest, hRoutes, hText⟩
  simp [hits_of_needsPeer h] at hHit

/-- A device with its own route only needs nothing. -/
theorem not_needsPeer_of_settled {T : PeerTable} (hT : Printable T) {d : Device}
    (h : routes T d.publicKey = [Server.hostPrefix d.ip]) :
    needsPeer (showAllowedIPs T) d = false := by
  by_contra hNeeds
  exact unseen_of_needsPeer hT (by simpa using hNeeds) h (List.infix_refl _)

section Passes

variable {devices : List Device}

theorem Addressed.eq_of_key (h : Addressed devices) {d e : Device} (hd : d ∈ devices)
    (he : e ∈ devices) (hKey : d.publicKey = e.publicKey) : d = e :=
  List.inj_on_of_nodup_map h.keys hd he hKey

theorem Addressed.eq_of_prefix (h : Addressed devices) {d e : Device} (hd : d ∈ devices)
    (he : e ∈ devices) (hPrefix : Server.hostPrefix d.ip = Server.hostPrefix e.ip) : d = e :=
  List.inj_on_of_nodup_map h.prefixes hd he hPrefix

/-- Different devices on record have peers that do not cross. -/
theorem Addressed.uncrossed (h : Addressed devices) {some : List Device} (hNodup : some.Nodup)
    (hSome : ∀ d ∈ some, d ∈ devices) : Uncrossed (some.map peerOf) := by
  rw [Uncrossed, List.pairwise_map]
  refine hNodup.imp_of_mem fun {d e} hd he hNe => ⟨fun hKey => ?_, fun hPrefix => ?_⟩
  · exact hNe (h.eq_of_key (hSome d hd) (hSome e he) hKey)
  · exact hNe (h.eq_of_prefix (hSome d hd) (hSome e he) hPrefix)

/-- The table stays printable while the peers of such devices are set. -/
theorem Addressed.printable (h : Addressed devices) {T : PeerTable} (hT : Printable T)
    {some : List Device} (hSome : ∀ d ∈ some, d ∈ devices ∧ managed d = true) :
    Printable (assignAll T (some.map peerOf)) := by
  induction some generalizing T with
  | nil => exact hT
  | cons d rest ih =>
      obtain ⟨⟨hMem, hManaged⟩, hRest⟩ := List.forall_mem_cons.mp hSome
      have hWords := h.words d hMem hManaged
      refine ih (T := assign T d.publicKey (Server.hostPrefix d.ip)) (fun e he => ?_) hRest
      rw [assign, AList.entries_insert, List.mem_cons] at he
      rcases he with rfl | he
      · exact ⟨hWords.1, by simpa using hWords.2⟩
      · have hStrip := (List.kerase_sublist _ _).subset he
        obtain ⟨e', he', rfl⟩ := List.mem_map.mp hStrip
        exact ⟨(hT e' he').1, fun q hq => (hT e' he').2 q (List.mem_filter.mp hq).1⟩

/-- From one table to another by setting the peers of these devices, each of
which had something else, with everybody else's first prefix as it was. -/
structure Restores (devices : List Device) (T T' : PeerTable) (done : List Device) : Prop where
  printable : Printable T'
  table : T' = assignAll T (done.map peerOf)
  nodup : done.Nodup
  mem : ∀ d ∈ done, d ∈ devices ∧ managed d = true
  fresh : ∀ d ∈ done, routes T d.publicKey ≠ [Server.hostPrefix d.ip]
  first : ∀ k ∉ done.map Device.publicKey, (routes T' k).head? = (routes T k).head?

/-- A settled device has its own address, and no other. -/
theorem Restores.settled {T T' : PeerTable} {done : List Device} (hDevices : Addressed devices)
    (h : Restores devices T T' done) {d : Device} (hd : d ∈ done) :
    routes T' d.publicKey = [Server.hostPrefix d.ip] := by
  rw [h.table]
  exact routes_assignAll_of_mem (hDevices.uncrossed h.nodup fun e he => (h.mem e he).1)
    (List.mem_map_of_mem (f := peerOf) hd)

/-- The other peers lose only what the settled ones have. -/
theorem Restores.others {T T' : PeerTable} {done : List Device}
    (h : Restores devices T T' done) {k : String} (hk : k ∉ done.map Device.publicKey) :
    routes T' k =
      (routes T k).filter (· ∉ done.map fun d => Server.hostPrefix d.ip) := by
  have hKeys : k ∉ (done.map peerOf).map Prod.fst := by
    rwa [List.map_map]
  rw [h.table, routes_assignAll_of_notMem hKeys, List.map_map]
  rfl

/-- A device whose peer an earlier pass has set is not set again: it has its
route, and no other device's command takes it away. -/
theorem Restores.trans {T T₁ T₂ : PeerTable} {done more : List Device}
    (hDevices : Addressed devices) (h : Restores devices T T₁ done)
    (hMore : Restores devices T₁ T₂ more) : Restores devices T T₂ (done ++ more) := by
  have hApart : ∀ d ∈ done, d ∉ more := fun d hd hAgain =>
    hMore.fresh d hAgain (h.settled hDevices hd)
  have hKeys : ∀ d ∈ more, d.publicKey ∉ done.map Device.publicKey := by
    intro d hd hKey
    obtain ⟨e, he, hSame⟩ := List.mem_map.mp hKey
    have hEq : e = d := hDevices.eq_of_key (h.mem e he).1 (hMore.mem d hd).1 hSame
    exact hApart e he (hEq ▸ hd)
  refine ⟨hMore.printable, ?_, ?_, ?_, fun d hd => ?_, fun k hk => ?_⟩
  · rw [hMore.table, h.table, List.map_append, assignAll_append]
  · exact h.nodup.append hMore.nodup hApart
  · exact fun d hd => (List.mem_append.mp hd).elim (h.mem d) (hMore.mem d)
  · rcases List.mem_append.mp hd with hd | hd
    · exact h.fresh d hd
    · intro hOwn
      have hPrefix : Server.hostPrefix d.ip ∉ done.map fun e => Server.hostPrefix e.ip := by
        intro hPrefix
        obtain ⟨e, he, hSame⟩ := List.mem_map.mp hPrefix
        have hEq : e = d := hDevices.eq_of_prefix (h.mem e he).1 (hMore.mem d hd).1 hSame
        exact hApart e he (hEq ▸ hd)
      refine hMore.fresh d hd ?_
      rw [h.others (hKeys d hd), hOwn, List.filter_cons, if_pos (by simpa using hPrefix),
        List.filter_nil]
  · rw [List.map_append, List.mem_append, not_or] at hk
    exact (hMore.first k hk.2).trans (h.first k hk.1)

/-- One pass over some of the devices. -/
theorem restores_pass (hDevices : Addressed devices) {T : PeerTable} (hT : Printable T) (r : Round)
    (hRound : (r.devices.map Prod.fst).Sublist devices) :
    Restores devices T ((r.commands T).foldl issue T) (r.settled T) := by
  have hMem : ∀ d ∈ r.settled T, d ∈ devices ∧ managed d = true := fun d hd =>
    ⟨hRound.subset (mem_settled hd).1, managed_of_needsPeer (mem_settled hd).2⟩
  have hNodup : (r.settled T).Nodup :=
    ((settled_sublist r T).trans hRound).nodup (List.Nodup.of_map _ hDevices.keys)
  refine ⟨?_, issue_commands r T, hNodup, hMem, fun d hd hOwn => ?_, fun k hk => ?_⟩
  · rw [issue_commands]
    exact hDevices.printable hT hMem
  · have hNone := not_needsPeer_of_settled hT hOwn
    simp [(mem_settled hd).2] at hNone
  · have hKeys : k ∉ ((r.settled T).map peerOf).map Prod.fst := by
      rwa [List.map_map]
    rw [issue_commands, routes_assignAll_of_notMem hKeys]
    cases hRoutes : routes T k with
    | nil => rfl
    | cons first rest =>
        have hFirst : first ∉ ((r.settled T).map peerOf).map Prod.snd := by
          rw [List.map_map]
          intro hFirst
          obtain ⟨d, hd, rfl⟩ := List.mem_map.mp hFirst
          exact unseen_of_needsPeer hT (mem_settled hd).2 hRoutes (List.infix_refl _)
        rw [List.filter_cons, if_pos (by simpa using hFirst)]
        rfl

/-- Several passes restore what each of them settled. -/
theorem restores_passes (hDevices : Addressed devices) {T : PeerTable} (hT : Printable T)
    (rounds : List Round) (hRounds : ∀ r ∈ rounds, (r.devices.map Prod.fst).Sublist devices) :
    Restores devices T (reconciled T rounds).1 (reconciled T rounds).2 := by
  induction rounds generalizing T with
  | nil => exact ⟨hT, rfl, List.nodup_nil, by simp [reconciled], by simp [reconciled], fun _ _ => rfl⟩
  | cons r rest ih =>
      obtain ⟨hFirst, hRest⟩ := List.forall_mem_cons.mp hRounds
      have hPass := restores_pass hDevices hT r hFirst
      exact hPass.trans hDevices (ih hPass.printable hRest)

/-! ### Silence -/

/-- A pass has nothing to set. -/
def Silent (T : PeerTable) (devices : List Device) : Prop :=
  ∀ d ∈ devices, needsPeer (showAllowedIPs T) d = false

theorem Silent.listed {T : PeerTable} (hT : Printable T) (h : Silent T devices) :
    Listed T devices := by
  intro d hd hManaged
  have hHits : Server.peerHits (showAllowedIPs T) d.ip ≠ [] := by
    intro hNone
    have hNeeds := h d hd
    simp [needsPeer, present, conflict, hManaged, hNone] at hNeeds
  obtain ⟨k, hk⟩ := List.exists_mem_of_ne_nil _ hHits
  exact ⟨k, (mem_peerHits hT).mp hk⟩

/-- On a silent table a round runs no command. -/
theorem Silent.commands {T : PeerTable} (h : Silent T devices) {r : Round}
    (hRound : (r.devices.map Prod.fst).Sublist devices) : r.commands T = [] := by
  unfold Round.commands reconcilePeers
  cases r.shown with
  | false => rfl
  | true =>
      simp only [if_true, List.map_eq_nil_iff, List.filter_eq_nil_iff]
      exact fun d hd => by simp [h d.1 (hRound.subset (List.mem_map_of_mem hd))]

theorem allAnswered_devices (devices : List Device) :
    (allAnswered devices).devices.map Prod.fst = devices := by
  simp [allAnswered, Function.comp_def]

/-- A silent table stays as it is through any number of rounds. -/
theorem Silent.stays {T : PeerTable} (h : Silent T devices) (n : Nat) :
    (reconciled T (List.replicate n (allAnswered devices))).1 = T := by
  induction n with
  | zero => rfl
  | succ n ih =>
      have hNone := h.commands (r := allAnswered devices) (by rw [allAnswered_devices])
      simp only [List.replicate_succ, reconciled, hNone, List.foldl_nil, ih]

/-- A pass in which `wg` answers everything sets a peer, or there is none to set. -/
theorem silent_of_settled_nil {T : PeerTable} (h : (allAnswered devices).settled T = []) :
    Silent T devices := by
  simp only [Round.settled, allAnswered, if_true, List.map_eq_nil_iff,
    List.filter_eq_nil_iff] at h
  exact fun d hd => by simpa using h (d, true) (List.mem_map_of_mem hd)

/-- After some passes all is quiet, or each of them has restored something. -/
theorem silent_or_progress {T : PeerTable} (n : Nat) :
    Silent (reconciled T (List.replicate n (allAnswered devices))).1 devices ∨
      n ≤ (reconciled T (List.replicate n (allAnswered devices))).2.length := by
  induction n generalizing T with
  | zero => exact .inr (Nat.zero_le _)
  | succ n ih =>
      cases hSettled : (allAnswered devices).settled T with
      | nil =>
          have hSilent := silent_of_settled_nil hSettled
          exact .inl (by rw [hSilent.stays]; exact hSilent)
      | cons d rest =>
          simp only [List.replicate_succ, reconciled, hSettled, List.cons_append, List.length_cons,
            List.length_append]
          exact ih.imp_right fun hLength => by omega

/-- Each pass sets a device that no pass has set before, so they run out. -/
theorem silent_after (hDevices : Addressed devices) {T : PeerTable} (hT : Printable T) {n : Nat}
    (hn : devices.length ≤ n) :
    Silent (reconciled T (List.replicate n (allAnswered devices))).1 devices := by
  rcases @silent_or_progress devices T n with hSilent | hLength
  · exact hSilent
  · have hRestores := restores_passes hDevices hT (List.replicate n (allAnswered devices))
      fun r hr => by rw [List.eq_of_mem_replicate hr, allAnswered_devices]
    have hAll : ∀ d ∈ devices, d ∈ (reconciled T (List.replicate n (allAnswered devices))).2 :=
      fun d hd => ((List.subperm_of_subset hRestores.nodup
        fun e he => (hRestores.mem e he).1).perm_of_length_le (hn.trans hLength)).mem_iff.mpr hd
    exact fun d hd =>
      not_needsPeer_of_settled hRestores.printable (hRestores.settled hDevices (hAll d hd))

end Passes

/-! ### The devices of a run -/

/-- Devices with keys and addresses of their own, in the form that wg prints. -/
theorem DistinctDevices.addressed {cfg : ServerConfig} {devices : List Device}
    (h : DistinctDevices cfg (devices.map Device.identity))
    (hPlain : ∀ d ∈ devices, managed d = true → Plain d) : Addressed devices where
  keys := by simpa [List.map_map, Function.comp_def, Device.identity] using h.keys
  prefixes := by
    have hAddresses : (devices.map fun d => parseIPString d.ip).Nodup := by
      simpa [List.map_map, Function.comp_def, Device.identity] using h.addresses
    refine (List.pairwise_map.mp hAddresses).imp ?_ |> List.pairwise_map.mpr
    intro d e hNe hPrefix
    have hSame : d.ip = e.ip := by simpa [Server.hostPrefix] using hPrefix
    exact hNe (congrArg parseIPString hSame)
  words := fun d hd hManaged => (hPlain d hd hManaged).words

/-- Whatever stands in the table, and whatever of the passes and their commands
fails: over any number of passes each device's peer is set at most once and
then stays, nobody else loses a first prefix, or any other but a device's
address. As many passes as there are devices in which `wg` answers leave
nothing to set, then or later, with every device listed or in somebody's way. -/
theorem peers_restored {cfg : ServerConfig} {token : String} (hCfg : validConfig cfg = true)
    {s : Machine Process State Op Answer}
    (hReach : Reachable (runsWhen cfg token NoRespelledJoin) s) {p : Process}
    (hUp : s.mem = some p)
    (hPlain : ∀ d ∈ p.server.state.devices, managed d = true → Plain d)
    {T : PeerTable} (hT : Printable T) (rounds : List Round)
    (hRounds : ∀ r ∈ rounds, (r.devices.map Prod.fst).Sublist p.server.state.devices) :
    (reconciled T rounds).2.Nodup ∧
    (∀ d ∈ (reconciled T rounds).2, d ∈ p.server.state.devices ∧
      routes (reconciled T rounds).1 d.publicKey = [Server.hostPrefix d.ip]) ∧
    (∀ k ∉ (reconciled T rounds).2.map Device.publicKey,
      (routes (reconciled T rounds).1 k).head? = (routes T k).head? ∧
      routes (reconciled T rounds).1 k = (routes T k).filter
        (· ∉ (reconciled T rounds).2.map fun d => Server.hostPrefix d.ip)) ∧
    ∀ n, p.server.state.devices.length ≤ n →
      let after := (reconciled (reconciled T rounds).1
        (List.replicate n (allAnswered p.server.state.devices))).1
      Listed after p.server.state.devices ∧
      ∀ r : Round, (r.devices.map Prod.fst).Sublist p.server.state.devices →
        r.commands after = [] := by
  have hDevices : Addressed p.server.state.devices :=
    DistinctDevices.addressed ((identity_reachable hCfg hReach).1 p hUp).distinct hPlain
  have hRestores := restores_passes hDevices hT rounds hRounds
  refine ⟨hRestores.nodup, fun d hd => ⟨(hRestores.mem d hd).1, hRestores.settled hDevices hd⟩,
    fun k hk => ⟨hRestores.first k hk, hRestores.others hk⟩, fun n hn => ?_⟩
  have hSilent := silent_after hDevices hRestores.printable hn
  have hAgain := restores_passes hDevices hRestores.printable
    (List.replicate n (allAnswered p.server.state.devices))
    fun r hr => by rw [List.eq_of_mem_replicate hr, allAnswered_devices]
  exact ⟨hSilent.listed hAgain.printable, fun r hRound => hSilent.commands hRound⟩

/-- A foreign peer that has the address of the laptop behind its own. -/
def strayTable : PeerTable := onePeer "peer" ["10.77.0.9/32", "10.77.0.2/32"]

/-- The device of `enrollment ""`. -/
def enrolledLaptop : Device :=
  Server.joinedDevice ⟨sampleToken 'c', "laptop", sampleKey⟩ (sampleEnv 'a' 'b') "10.77.0.2"

def afterEnrollment : Round := allAnswered [cloudDevice sampleConfig "", enrolledLaptop]

/-- After an enrollment one pass gives the peer back its route. -/
theorem peers_restored_enrolled :
    (reconciled strayTable [afterEnrollment]).2 = [enrolledLaptop] ∧
    routes (reconciled strayTable [afterEnrollment]).1 "peer" = ["10.77.0.9/32"] := by
  obtain ⟨s, p, hReach, hUp, hDevices⟩ := exists_runsWhen sampleConfig "" NoRespelledJoin
    (enrollment "") (fun p => p.server.state.devices) [cloudDevice sampleConfig "", enrolledLaptop]
    (by decide +kernel)
  have hSet : (reconciled strayTable [afterEnrollment]).2 = [enrolledLaptop] := by decide +kernel
  have hRestored := peers_restored (by decide) hReach hUp
    (fun d hd hManaged => by
      rw [hDevices] at hd
      rcases List.mem_pair.mp hd with rfl | rfl
      · exact absurd hManaged (by decide)
      · exact ⟨⟨List.replicate 32 0, by decide, by decide +kernel⟩, 10, 77, 0, 2, by decide +kernel⟩)
    (T := strayTable) (by decide +kernel) [afterEnrollment]
    (by simp [hDevices, afterEnrollment, allAnswered])
  have hPeer := (hRestored.2.2.1 "peer" (by rw [hSet]; decide +kernel)).2
  rw [hSet] at hPeer
  exact ⟨hSet, hPeer.trans (by decide +kernel)⟩

end NetConductor
