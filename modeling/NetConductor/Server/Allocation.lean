import NetConductor.Server.Runs

/-! The address that `join` picks for a code without one: which addresses it
could pick, which ones its search sees, and when the two agree. -/
namespace GoNet
open GoText

/-- The number is written in digits, and read back from them. -/
def readsBack (n : Nat) : Bool :=
  octet (Nat.toDigits 10 n) = some (.ofNat n) && (Nat.toDigits 10 n).all isDigit

theorem readsBack_bytes : (List.range 256).all readsBack = true := by
  decide +kernel

theorem toDigits_byte (a : UInt8) : octet (Nat.toDigits 10 a.toNat) = some a ∧
    ∀ c ∈ Nat.toDigits 10 a.toNat, isDigit c = true := by
  have hReads := List.all_eq_true.mp readsBack_bytes a.toNat (List.mem_range.mpr a.toNat_lt)
  rwa [readsBack, Bool.and_eq_true_iff, decide_eq_true_iff, UInt8.ofNat_toNat, List.all_eq_true] at hReads

theorem parseIPv4_dotted (a b c d : UInt8) : parseIPv4 (dotted a b c d) = some [a, b, c, d] := by
  have hSplit : (dotted a b c d).splitOn '.' = [a, b, c, d].map fun x => Nat.toDigits 10 x.toNat := by
    simp only [dotted, Nat.toList_repr]
    refine List.splitOn_intercalate '.' (fun text hText hDot => ?_) (by simp)
    obtain ⟨x, -, rfl⟩ := List.mem_map.mp hText
    exact absurd ((toDigits_byte x).2 _ hDot) (by decide)
  rw [parseIPv4, hSplit]
  simp [List.mapM_cons, (toDigits_byte _).1]

/-- The text of an IPv4 address reads as that address. -/
theorem parseIP_dotted (a b c d : UInt8) : parseIP (dotted a b c d) = some (to16 [a, b, c, d]) := by
  have hFront : (Nat.toDigits 10 a.toNat).find? (fun c => c = '.' ∨ c = ':' ∨ c = '%') = none := by
    refine List.find?_eq_none.mpr fun x hx hSep => ?_
    have hDigit := (toDigits_byte a).2 x hx
    rw [decide_eq_true_iff] at hSep
    rcases hSep with rfl | rfl | rfl
    · exact absurd hDigit (by decide)
    · exact absurd hDigit (by decide)
    · exact absurd hDigit (by decide)
  have hDot : (dotted a b c d).find? (fun c => c = '.' ∨ c = ':' ∨ c = '%') = some '.' := by
    simp only [dotted, Nat.toList_repr, List.map_cons, List.intercalate_cons_cons, List.append_assoc]
    rw [List.find?_append, hFront]
    rfl
  simp only [parseIP, parseAddr, hDot, parseIPv4_dotted, Option.map_some]

theorem to16_injective {x y : IP} (hx : x.length = 4) (hy : y.length = 4) (h : to16 x = to16 y) : x = y := by
  rw [to16, to16, if_pos hx, if_pos hy] at h
  exact List.append_cancel_left h

theorem to4_to16 {x : IP} (hx : x.length = 4) : to4 (to16 x) = some x := by
  have hPrefix : v4InV6Prefix.length = 12 := rfl
  have hLength : (v4InV6Prefix ++ x).length = 16 := by rw [List.length_append, hPrefix, hx]
  rw [to16, if_pos hx, to4, if_neg (by omega), if_pos ⟨hLength, List.take_left' hPrefix⟩,
    List.drop_left' hPrefix]

/-- The last address of a network. -/
def IPNet.broadcast (net : IPNet) : IP := List.zipWith (fun n m => n ||| ~~~m) net.ip net.mask

end GoNet

namespace NetConductor
open GoText GoNet

namespace Server

/-- How an address is written. -/
def addressText (x : IP) : String := String.ofList (ipString x)

/-- The addresses that the loop of `join` goes through. -/
def searched (base : IP) : List IP :=
  match to4 base with
  | some [a, b, c, _] => (List.range' 2 253).map fun n => [a, b, c, .ofNat n]
  | _ => []

/-- The test that the loop makes on an address. -/
def passes (s : Server) (net : IPNet) (existing : String) (x : IP) : Bool :=
  !s.addressUsed existing (addressText x) && net.contains (parseIPString (addressText x))

/-- Somebody has the address, or nobody may. -/
def Unfit (s : Server) (net : IPNet) (x : IP) : Prop :=
  x = net.ip ∨ x = net.broadcast ∨ parseIPString s.cfg.serverIP = some (to16 x) ∨
    ∃ d ∈ s.state.devices, parseIPString d.ip = some (to16 x)

instance (s : Server) (net : IPNet) (x : IP) : Decidable (s.Unfit net x) :=
  inferInstanceAs (Decidable (_ ∨ _ ∨ _ ∨ ∃ d ∈ s.state.devices, _))

/-- The address is one that a device may get: an address of the network other
than its first and last, that neither the server nor a device has and that does
not stand as a word in the table of peers. -/
structure Available (s : Server) (net : IPNet) (existing : String) (x : IP) : Prop where
  length : x.length = 4
  inside : net.contains (some x) = true
  fit : ¬s.Unfit net x
  noPeer : (hostPrefix (addressText x)).toList ∉ fields existing.toList

/-- A request that gets as far as the loop: its checks pass, its code is good and
has no address, `wg` answers, and the network is IPv4. -/
structure Allocating (req : JoinRequest) (env : Env) (s : Server) (existing : String) (base : IP)
    (net : IPNet) : Prop where
  name : 1 ≤ req.name.utf8ByteSize ∧ req.name.utf8ByteSize ≤ 80
  publicKey : validKey req.publicKey = true
  code : ∃ code, s.codes.lookup req.code = some code ∧ env.now ≤ code.expires ∧ code.ip = ""
  fresh : ∀ d ∈ s.state.devices, d.publicKey ≠ req.publicKey
  key : env.wg.publicKey.isSome = true
  table : env.wg.allowedIPs = .ok existing
  network : parseCIDR s.cfg.network.toList = some (base, net)
  four : net.ip.length = 4

/-- What an answer of `join` has to say about the addresses. -/
structure AllocatesWell (req : JoinRequest) (env : Env) (s : Server) (net : IPNet) (existing : String) :
    Prop where
  sound : ∀ plan, joinPlan req env s = .ok plan →
    ∃ x, parseIPString plan.ip = some (to16 x) ∧ s.Available net existing x
  complete : joinPlan req env s = .error ⟨409, "没有可用地址"⟩ → ∀ x, ¬s.Available net existing x

/-- The loop does not get to see the address as it is: it is none of those gone
through, or its text ends some longer word of the table. -/
def Overlooked (base : IP) (existing : String) (x : IP) : Prop :=
  x ∉ searched base ∨ containsText existing (hostPrefix (addressText x)) = true

/-- Every unfit address that passes the test comes after a fit one that passes;
and some address passes, or those that the loop overlooks are taken as well. -/
structure SearchSuffices (s : Server) (net : IPNet) (existing : String) (base : IP) : Prop where
  first : ∀ before x after, searched base = before ++ x :: after → s.passes net existing x = true →
    s.Unfit net x → ∃ y ∈ before, s.passes net existing y = true ∧ ¬s.Unfit net y
  last : (∃ x ∈ searched base, s.passes net existing x = true) ∨
    ∀ x, Overlooked base existing x → ¬s.Available net existing x

/-! ### Texts of addresses -/

variable {s : Server} {net : IPNet} {existing : String} {base x : IP}

theorem length_four (h : x.length = 4) : ∃ a b c d, x = [a, b, c, d] := by
  match x, h with
  | [a, b, c, d], _ => exact ⟨a, b, c, d, rfl⟩

theorem addressText_dotted (a b c d : UInt8) :
    addressText [a, b, c, d] = String.ofList (dotted a b c d) := rfl

theorem parse_addressText (h : x.length = 4) : parseIPString (addressText x) = some (to16 x) := by
  obtain ⟨a, b, c, d, rfl⟩ := length_four h
  rw [addressText_dotted, parseIPString, String.toList_ofList, parseIP_dotted]

theorem addressText_ne_empty (h : x.length = 4) : addressText x ≠ "" := by
  intro hEmpty
  have hParse := parse_addressText h
  rw [hEmpty] at hParse
  cases hParse

theorem contains_to16 (h : x.length = 4) : net.contains (some (to16 x)) = net.contains (some x) := by
  have hFour : to4 x = some x := by rw [to4, if_pos h]
  simp only [IPNet.contains, to4_to16 h, hFour, Option.getD_some]

theorem length_of_mem_searched (h : x ∈ searched base) : x.length = 4 := by
  unfold searched at h
  split at h
  · obtain ⟨n, -, rfl⟩ := List.mem_map.mp h
    rfl
  · cases h

/-- The addresses that the loop goes through, as text. -/
theorem candidates_eq (base : IP) : candidates base = (searched base).map addressText := by
  unfold candidates
  split
  · next a b c d hBase =>
      simp only [searched, hBase, List.map_map]
      rfl
  · next hOther =>
      unfold searched
      split
      · next a b c d hBase => exact absurd hBase (hOther a b c d)
      · rfl

/-! ### What the loop does -/

/-- An address that passes lies in the network and is no word of the table. -/
theorem inside_of_passes (hx : x.length = 4) (h : s.passes net existing x = true) :
    net.contains (some x) = true ∧ (hostPrefix (addressText x)).toList ∉ fields existing.toList := by
  obtain ⟨hFree, hInside⟩ := Bool.and_eq_true_iff.mp h
  rw [parse_addressText hx, contains_to16 hx] at hInside
  refine ⟨hInside, fun hWord => ?_⟩
  have hInfix := (splitOnP_within existing.toList).1 _ (List.mem_filter.mp hWord).1
  have hText : containsText existing (hostPrefix (addressText x)) = true := decide_eq_true hInfix
  simp [addressUsed, hText] at hFree

theorem available_iff_of_passes (hx : x.length = 4) (h : s.passes net existing x = true) :
    s.Available net existing x ↔ ¬s.Unfit net x := by
  obtain ⟨hInside, hWord⟩ := inside_of_passes hx h
  exact ⟨fun hAvailable => hAvailable.fit, fun hFit => ⟨hx, hInside, hFit, hWord⟩⟩

/-- An available address that does not pass is overlooked. -/
theorem overlooked_of_available (h : s.Available net existing x)
    (hNone : ∀ y ∈ searched base, s.passes net existing y = false) : Overlooked base existing x := by
  by_contra hSeen
  rw [Overlooked, not_or, not_not] at hSeen
  obtain ⟨hMem, hText⟩ := hSeen
  have hUsed := hNone x hMem
  rw [passes, parse_addressText h.length, contains_to16 h.length, h.inside, Bool.and_true,
    Bool.not_eq_false', addressUsed, Bool.or_eq_true_iff, Bool.or_eq_true_iff, decide_eq_true_iff,
    List.any_eq_true] at hUsed
  rcases hUsed with (hContains | hServer) | ⟨d, hd, hDevice⟩
  · exact hText hContains
  · exact h.fit (.inr (.inr (.inl (hServer ▸ parse_addressText h.length))))
  · rw [decide_eq_true_iff] at hDevice
    exact h.fit (.inr (.inr (.inr ⟨d, hd, hDevice ▸ parse_addressText h.length⟩)))

/-- A network of four bytes comes from an address of four bytes. -/
theorem parseCIDR_four {text : Chars} (h : parseCIDR text = some (base, net)) (hFour : net.ip.length = 4) :
    to4 base ≠ none := by
  unfold parseCIDR at h
  simp only [Option.bind_eq_bind, Option.bind_eq_some_iff] at h
  obtain ⟨⟨addr, bits⟩, -, ip, -, hNetwork⟩ := h
  split_ifs at hNetwork
  cases hNetwork
  have hMask : (cidrMask (decimal bits) (ip.length * 8)).length = ip.length := by
    rw [cidrMask, List.length_map, List.length_range, Nat.mul_div_cancel _ (by decide)]
  have hLength : ip.length = 4 := by
    rw [← hFour, List.length_zipWith, hMask, Nat.min_self]
  rw [to4_to16 hLength]
  exact Option.some_ne_none ip

variable {req : JoinRequest} {env : Env}

theorem allocate_eq (hNetwork : parseCIDR s.cfg.network.toList = some (base, net))
    (hFour : net.ip.length = 4) : s.allocate existing =
      some (((searched base).find? (s.passes net existing)).map addressText |>.getD "") := by
  simp only [allocate, hNetwork, if_neg (parseCIDR_four hNetwork hFour), candidates_eq, List.find?_map]
  rfl

/-- A passing address has no peer. -/
theorem peerHits_of_passes (h : s.passes net existing x = true) :
    peerHits existing (addressText x) = [] := by
  refine List.eq_nil_iff_forall_not_mem.mpr fun key hKey => ?_
  have hText := contains_of_hit hKey
  simp [passes, addressUsed, hText] at h

/-- Without an address in the code `join` takes the first one that passes. -/
theorem joinPlan_allocating (h : Allocating req env s existing base net) :
    joinPlan req env s = match (searched base).find? (s.passes net existing) with
      | none => .error ⟨409, "没有可用地址"⟩
      | some x => .ok ⟨addressText x, env.wg.publicKey.getD "", false⟩ := by
  obtain ⟨code, hCode, hExpires, hPreset⟩ := h.code
  obtain ⟨key, hKey⟩ := Option.isSome_iff_exists.mp h.key
  have hRequest : ¬(req.name.utf8ByteSize < 1 ∨ 80 < req.name.utf8ByteSize ∨
      validKey req.publicKey = false) := by
    have hName := h.name
    simp only [h.publicKey, reduceCtorEq, or_false]
    omega
  have hFresh : (s.state.devices.any fun d =>
      d.publicKey = req.publicKey || (code.ip ≠ "" && d.ip = code.ip)) = false := by
    rw [List.any_eq_false]
    intro d hd
    simp [h.fresh d hd, hPreset]
  rw [joinPlan, if_neg hRequest, hCode]
  dsimp only
  rw [if_neg (Nat.not_lt.mpr hExpires), hFresh]
  simp only [Bool.false_eq_true, if_false, addressPlan, hKey, h.table, assigned, hPreset, ne_eq,
    not_true_eq_false, allocate_eq h.network h.four]
  rcases hFind : (searched base).find? (s.passes net existing) with _ | x
  · rfl
  · have hMem := List.mem_of_find?_eq_some hFind
    have hText := addressText_ne_empty (length_of_mem_searched hMem)
    simp [adoptionPlan, hText, peerHits_of_passes (List.find?_some hFind)]

/-- When an address that is given is always one to give. -/
theorem sound_iff (h : Allocating req env s existing base net) :
    (∀ plan, joinPlan req env s = .ok plan →
      ∃ x, parseIPString plan.ip = some (to16 x) ∧ s.Available net existing x) ↔
    ∀ before x after, searched base = before ++ x :: after → s.passes net existing x = true →
      s.Unfit net x → ∃ y ∈ before, s.passes net existing y = true ∧ ¬s.Unfit net y := by
  rw [← FirstMatch.find?_good_iff, joinPlan_allocating h]
  rcases hFind : (searched base).find? (s.passes net existing) with _ | x
  · exact iff_of_true nofun nofun
  · have hLength := length_of_mem_searched (List.mem_of_find?_eq_some hFind)
    have hAvailable := available_iff_of_passes hLength (List.find?_some hFind)
    constructor
    · rintro hSound _ ⟨⟩
      obtain ⟨y, hParse, hy⟩ := hSound _ rfl
      rw [parse_addressText hLength] at hParse
      obtain rfl := to16_injective hLength hy.length (Option.some.inj hParse)
      exact hAvailable.mp hy
    · rintro hFit _ ⟨⟩
      exact ⟨x, parse_addressText hLength, hAvailable.mpr (hFit x rfl)⟩

/-- When a refusal means that there is none. -/
theorem complete_iff (h : Allocating req env s existing base net) :
    (joinPlan req env s = .error ⟨409, "没有可用地址"⟩ → ∀ x, ¬s.Available net existing x) ↔
    (∃ x ∈ searched base, s.passes net existing x = true) ∨
      ∀ x, Overlooked base existing x → ¬s.Available net existing x := by
  rw [joinPlan_allocating h]
  rcases hFind : (searched base).find? (s.passes net existing) with _ | x
  · have hNone : ∀ y ∈ searched base, s.passes net existing y = false := by
      simpa using List.find?_eq_none.mp hFind
    constructor
    · intro hComplete
      exact .inr fun x _ => hComplete rfl x
    · rintro (⟨y, hy, hPasses⟩ | hTaken) - x hx
      · cases (hNone y hy).symm.trans hPasses
      · exact hTaken x (overlooked_of_available hx hNone) hx
  · exact iff_of_true nofun (.inl ⟨x, List.mem_of_find?_eq_some hFind, List.find?_some hFind⟩)

/-- For every request that gets as far as the loop: it is given an address that
it may have, and is refused for want of one only when there is none, exactly when
the search suffices. -/
theorem allocates_well_iff (h : Allocating req env s existing base net) :
    AllocatesWell req env s net existing ↔ SearchSuffices s net existing base := by
  constructor
  · intro hWell
    exact ⟨(sound_iff h).mp hWell.sound, (complete_iff h).mp hWell.complete⟩
  · intro hSuffices
    exact ⟨(sound_iff h).mpr hSuffices.first, (complete_iff h).mpr hSuffices.last⟩

/-- A server on a network of its own, which has handed out a code without an address. -/
def networkServer (network serverIP : String) : Server :=
  let cfg := { sampleConfig with network := network, serverIP := serverIP }
  (createCode (sampleEnv 'c' 'c') (.ok "") (newServer cfg (firstState cfg ""))).1

def sampleRequest : JoinRequest := ⟨sampleToken 'c', "laptop", sampleKey⟩

/-- The conditions on a join, for a network of the sample. -/
theorem allocating_sample {network serverIP : String} (hCode : (networkServer network serverIP).codes.lookup
      (sampleToken 'c') = some ⟨10 * minute, ""⟩)
    (hFresh : ∀ d ∈ (networkServer network serverIP).state.devices, d.publicKey ≠ sampleKey)
    (hNetwork : parseCIDR network.toList = some (base, net)) (hFour : net.ip.length = 4) :
    Allocating sampleRequest (sampleEnv 'a' 'b') (networkServer network serverIP) "" base net where
  name := by decide
  publicKey := by decide +kernel
  code := ⟨_, hCode, Nat.zero_le _, rfl⟩
  fresh := hFresh
  key := rfl
  table := rfl
  network := hNetwork
  four := hFour

/-- The network of the first start hands out its addresses well. -/
theorem first_start_allocates_well :
    AllocatesWell sampleRequest (sampleEnv 'a' 'b') (networkServer "10.77.0.0/24" "10.77.0.1")
      ⟨[10, 77, 0, 0], [255, 255, 255, 0]⟩ "" := by
  have hNetwork : parseCIDR "10.77.0.0/24".toList =
      some (to16 [10, 77, 0, 0], ⟨[10, 77, 0, 0], [255, 255, 255, 0]⟩) := by decide +kernel
  refine (allocates_well_iff (allocating_sample (by decide +kernel) (by decide +kernel) hNetwork rfl)).mpr
    ⟨fun before x after hSplit _ hUnfit => ?_, .inl ⟨[10, 77, 0, 2], ?_, by decide +kernel⟩⟩
  · have hMem : x ∈ searched (to16 [10, 77, 0, 0]) := hSplit ▸ List.mem_append_right _ (.head _)
    obtain ⟨n, hn, rfl⟩ := List.mem_map.mp hMem
    rw [List.mem_range'_1] at hn
    -- the server's own address, the only one that a device has, is not gone through
    have hByte : ∀ a : UInt8, ([10, 77, 0, .ofNat n] : IP) = [10, 77, 0, a] → n = a.toNat := by
      intro a hAddress
      have hLast : UInt8.ofNat n = a := by simpa only [List.cons.injEq, true_and, and_true] using hAddress
      rw [← hLast, UInt8.toNat_ofNat']
      omega
    have hOwn : parseIPString "10.77.0.1" ≠ some (to16 [10, 77, 0, .ofNat n]) := by
      intro hParse
      have hServer : parseIPString "10.77.0.1" = some (to16 [10, 77, 0, 1]) := by decide +kernel
      have hOne : n = 1 := hByte 1 (to16_injective rfl rfl (Option.some.inj (hParse.symm.trans hServer)))
      omega
    rcases hUnfit with hFirst | hLast | hTaken | ⟨d, hd, hTaken⟩
    · have hZero : n = 0 := hByte 0 hFirst
      omega
    · have hBroadcast : n = 255 := hByte 255 (hLast.trans (by decide))
      omega
    · exact absurd hTaken hOwn
    · obtain rfl := List.mem_singleton.mp hd
      exact absurd hTaken hOwn
  · decide +kernel

/-- In a network of sixteen addresses the first one given away is that of the
network itself. -/
theorem network_address_allocated :
    ¬AllocatesWell sampleRequest (sampleEnv 'a' 'b') (networkServer "10.77.0.16/28" "10.77.0.17")
      ⟨[10, 77, 0, 16], [255, 255, 255, 240]⟩ "" := by
  intro h
  have hPlan : joinPlan sampleRequest (sampleEnv 'a' 'b') (networkServer "10.77.0.16/28" "10.77.0.17") =
      .ok ⟨"10.77.0.16", "server key", false⟩ := by decide +kernel
  obtain ⟨x, hParse, hAvailable⟩ := h.sound _ hPlan
  have hNetwork : parseIPString "10.77.0.16" = some (to16 [10, 77, 0, 16]) := by decide +kernel
  have hx := to16_injective hAvailable.length rfl (Option.some.inj (hParse.symm.trans hNetwork))
  exact hAvailable.fit (.inl hx)

end Server

end NetConductor
