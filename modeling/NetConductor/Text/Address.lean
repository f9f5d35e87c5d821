import NetConductor.Text.Strings

/-! Textual addresses as Go's `net` package reads and writes them. An address
is a byte string of length 4 or 16, and one address has several spellings. -/
namespace GoNet
open GoText

abbrev IP := List UInt8

def isDigit (c : Char) : Bool := '0' ≤ c && c ≤ '9'

def decimal (s : Chars) : Nat := s.foldl (fun n c => n * 10 + (c.toNat - '0'.toNat)) 0

/-- One field of a dotted address: digits, no leading zero, at most 255. -/
def octet (s : Chars) : Option UInt8 :=
  if s ≠ [] ∧ s.all isDigit ∧ (s.length = 1 ∨ s.head? ≠ some '0') ∧ decimal s ≤ 255 then
    some (.ofNat (decimal s))
  else none

def parseIPv4 (s : Chars) : Option IP :=
  match (s.splitOn '.').mapM octet with
  | some [a, b, c, d] => some [a, b, c, d]
  | _ => none

def hexValue (c : Char) : Option Nat :=
  if isDigit c then some (c.toNat - '0'.toNat)
  else if 'a' ≤ c ∧ c ≤ 'f' then some (c.toNat - 'a'.toNat + 10)
  else if 'A' ≤ c ∧ c ≤ 'F' then some (c.toNat - 'A'.toNat + 10)
  else none

def hex (s : Chars) : Nat := s.foldl (fun n c => n * 16 + (hexValue c).getD 0) 0

/-- The loop over the colon-separated groups: `room` groups are still free,
`done` is what is parsed so far and `gap` the place of the `::` seen. -/
def parseGroups : Nat → Chars → IP → Option Nat → Option (IP × Option Nat × Chars)
  | 0, s, done, gap => some (done, gap, s)
  | room + 1, s, done, gap =>
      let digits := s.takeWhile fun c => (hexValue c).isSome
      let rest := s.dropWhile fun c => (hexValue c).isSome
      let done' := done ++ [.ofNat (hex digits / 256), .ofNat (hex digits % 256)]
      if digits = [] ∨ 4 < digits.length then none
      else match rest with
        | [] => some (done', gap, [])
        | '.' :: _ =>
            -- an embedded dotted address takes the place of the last two groups
            if (gap = none ∧ done.length ≠ 12) ∨ 16 < done.length + 4 then none
            else (parseIPv4 s).map fun v4 => (done ++ v4, gap, [])
        | [':'] => none
        | [':', ':'] => if gap = none then some (done', some done'.length, []) else none
        | ':' :: ':' :: next =>
            if gap = none then parseGroups room next done' (some done'.length) else none
        | ':' :: next => parseGroups room next done' gap
        | _ => none

def zeros (n : Nat) : IP := List.replicate n 0

/-- A `::` stands for at least one group of zeros. -/
def expand : IP × Option Nat × Chars → Option IP
  | (ip, gap, rest) =>
      if rest ≠ [] then none
      else match gap with
        | none => if ip.length = 16 then some ip else none
        | some k => if ip.length < 16 then some (ip.take k ++ zeros (16 - ip.length) ++ ip.drop k)
            else none

/-- Addresses with a zone are not accepted by `net.ParseIP`. -/
def parseIPv6 (s : Chars) : Option IP :=
  if '%' ∈ s then none
  else match s with
    | [':', ':'] => some (zeros 16)
    | ':' :: ':' :: rest => (parseGroups 8 rest [] (some 0)).bind expand
    | _ => (parseGroups 8 s [] none).bind expand

/-- `netip.ParseAddr` without zones: four bytes for the dotted form, sixteen otherwise. -/
def parseAddr (s : Chars) : Option IP :=
  match s.find? fun c => c = '.' ∨ c = ':' ∨ c = '%' with
  | some '.' => parseIPv4 s
  | some ':' => parseIPv6 s
  | _ => none

def v4InV6Prefix : IP := zeros 10 ++ [255, 255]

def to16 (ip : IP) : IP := if ip.length = 4 then v4InV6Prefix ++ ip else ip

/-- `IP.To4`. -/
def to4 (ip : IP) : Option IP :=
  if ip.length = 4 then some ip
  else if ip.length = 16 ∧ ip.take 12 = v4InV6Prefix then some (ip.drop 12)
  else none

/-- `net.ParseIP`; the result always has sixteen bytes. -/
def parseIP (s : Chars) : Option IP := (parseAddr s).map to16

/-- `IP.String` of an IPv4 address. -/
def dotted (a b c d : UInt8) : Chars :=
  ['.'].intercalate ([a, b, c, d].map fun x => (Nat.repr x.toNat).toList)

/-- The sixteen-bit groups of an address. -/
def groups : IP → List Nat
  | hi :: lo :: rest => (hi.toNat * 256 + lo.toNat) :: groups rest
  | _ => []

/-- The first of the longest runs of two or more zero groups: where it starts
and where it ends. -/
def zeroRun (gs : List Nat) : Option (Nat × Nat) :=
  (List.range gs.length).foldl (fun best i =>
    let length := ((gs.drop i).takeWhile (· = 0)).length
    if 2 ≤ length ∧ (best.map fun r => r.2 - r.1).getD 0 < length then some (i, i + length)
    else best) none

def colonSeparated (gs : List Nat) : Chars := [':'].intercalate (gs.map (Nat.toDigits 16))

/-- `IP.String` of an address of four or sixteen bytes. -/
def ipString (ip : IP) : Chars :=
  match to4 ip with
  | some [a, b, c, d] => dotted a b c d
  | _ =>
      match zeroRun (groups ip) with
      | none => colonSeparated (groups ip)
      | some (i, j) =>
          colonSeparated ((groups ip).take i) ++ ':' :: ':' :: colonSeparated ((groups ip).drop j)

/-- `net.IPNet`. -/
structure IPNet where
  ip : IP
  mask : IP
deriving DecidableEq

def cidrMask (ones bits : Nat) : IP :=
  (List.range (bits / 8)).map fun i => .ofNat (256 - Nat.pow 2 (8 - min (ones - 8 * i) 8))

/-- `net.ParseCIDR`: the address itself and the network it lies in. -/
def parseCIDR (s : Chars) : Option (IP × IPNet) := do
  let (addr, bits) ← cut '/' s
  let ip ← parseAddr addr
  if bits ≠ [] ∧ bits.all isDigit ∧ decimal bits ≤ ip.length * 8 then
    let mask := cidrMask (decimal bits) (ip.length * 8)
    some (to16 ip, ⟨List.zipWith (· &&& ·) ip mask, mask⟩)
  else none

/-- `IPNet.Contains`; a failed `ParseIP` is `none` and lies in no network. -/
def IPNet.contains (net : IPNet) : Option IP → Bool
  | none => false
  | some ip =>
      let ip := (to4 ip).getD ip
      -- a network written in the sixteen-byte form of IPv4 is compared on its last four bytes
      let number := (to4 net.ip).getD net.ip
      let mask := net.mask.drop (net.mask.length - number.length)
      decide (ip.length = number.length ∧
        List.zipWith (· &&& ·) number mask = List.zipWith (· &&& ·) ip mask)

theorem IPNet.contains_isSome {net : IPNet} {ip : Option IP} (h : net.contains ip = true) :
    ip.isSome = true := by
  cases ip with
  | none => simp [IPNet.contains] at h
  | some ip => rfl

/-- `net.JoinHostPort`. -/
def joinHostPort (host port : Chars) : Chars :=
  if ':' ∈ host then '[' :: host ++ ']' :: ':' :: port else host ++ ':' :: port

/-- `net.SplitHostPort`: the port follows the last colon, and a host with
colons must be in brackets. -/
def splitHostPort (s : Chars) : Option (Chars × Chars) :=
  if ':' ∉ s then none
  else
    let port := s.rtakeWhile (· ≠ ':')
    let front := (s.rdropWhile (· ≠ ':')).dropLast
    match front with
    | '[' :: inner =>
        match cut ']' inner with
        | some (host, []) => if '[' ∈ inner ∨ '[' ∈ port ∨ ']' ∈ port then none else some (host, port)
        | _ => none
    | _ => if ':' ∈ front ∨ '[' ∈ s ∨ ']' ∈ s then none else some (front, port)

example : parseIP "::ffff:10.77.0.5".toList = parseIP "10.77.0.5".toList := by decide +kernel

example : (parseIP "2001:db8:0:0:1:0:0:1".toList).map ipString = some "2001:db8::1:0:0:1".toList := by
  decide +kernel

end GoNet
