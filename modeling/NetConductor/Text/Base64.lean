import Mathlib.Data.List.Basic
import Mathlib.Tactic.IntervalCases

/-! Base64 with the standard alphabet and padding: the encoder, the decoder of
Go's `base64.StdEncoding` and the forgiving decoder of browsers (`atob`). Both
decoders undo the encoder. -/
namespace Base64

def alphabet : List Char :=
  "ABCDEFGHIJKLMNOPQRSTUVWXYZabcdefghijklmnopqrstuvwxyz0123456789+/".toList

def digit (n : Nat) : Char := alphabet.getD n 'A'

/-- The place of a character in the alphabet. -/
def value (c : Char) : Option Nat :=
  if 'A' ≤ c ∧ c ≤ 'Z' then some (c.toNat - 'A'.toNat)
  else if 'a' ≤ c ∧ c ≤ 'z' then some (c.toNat - 'a'.toNat + 26)
  else if '0' ≤ c ∧ c ≤ '9' then some (c.toNat - '0'.toNat + 52)
  else if c = '+' then some 62
  else if c = '/' then some 63
  else none

theorem value_digit : ∀ n < 64, value (digit n) = some n := by decide +kernel

theorem digit_ne_pad : ∀ n < 64, digit n ≠ '=' := by decide +kernel

theorem value_pad : value '=' = none := by decide

/-- The digits of a byte string, without padding. -/
def raw : List UInt8 → List Char
  | [] => []
  | [a] => [digit (a.toNat / 4), digit (a.toNat % 4 * 16)]
  | [a, b] => [digit (a.toNat / 4), digit (a.toNat % 4 * 16 + b.toNat / 16), digit (b.toNat % 16 * 4)]
  | a :: b :: c :: rest =>
      digit (a.toNat / 4) :: digit (a.toNat % 4 * 16 + b.toNat / 16) ::
        digit (b.toNat % 16 * 4 + c.toNat / 64) :: digit (c.toNat % 64) :: raw rest

def padding (n : Nat) : List Char := List.replicate ((3 - n % 3) % 3) '='

def encode (bytes : List UInt8) : List Char := raw bytes ++ padding bytes.length

/-- The three bytes of four digits. -/
def bytes₃ (x y z w : Nat) : List UInt8 :=
  [.ofNat (x * 4 + y / 16), .ofNat (y % 16 * 16 + z / 4), .ofNat (z % 4 * 64 + w)]

/-- One quantum after another; padding may only end the input. -/
def decodeQuanta : List Char → Option (List UInt8)
  | [] => some []
  | a :: b :: c :: d :: rest =>
      match value a, value b, value c, value d with
      | some x, some y, some z, some w => (decodeQuanta rest).map (bytes₃ x y z w ++ ·)
      | some x, some y, some z, none =>
          if d = '=' ∧ rest = [] then some ((bytes₃ x y z 0).take 2) else none
      | some x, some y, none, none =>
          if c = '=' ∧ d = '=' ∧ rest = [] then some ((bytes₃ x y 0 0).take 1) else none
      | _, _, _, _ => none
  | _ => none

/-- `base64.StdEncoding.DecodeString`, which skips line breaks and does not
look at the bits left over in the last digit. -/
def decodeString (s : List Char) : Option (List UInt8) :=
  decodeQuanta (s.filter fun c => c ≠ '\r' && c ≠ '\n')

/-- Digits without padding; the bits left over at the end are dropped. -/
def decodeRaw : List Char → Option (List UInt8)
  | [] => some []
  | [a, b] => do
      let x ← value a
      let y ← value b
      some ((bytes₃ x y 0 0).take 1)
  | [a, b, c] => do
      let x ← value a
      let y ← value b
      let z ← value c
      some ((bytes₃ x y z 0).take 2)
  | a :: b :: c :: d :: rest => do
      let x ← value a
      let y ← value b
      let z ← value c
      let w ← value d
      let tail ← decodeRaw rest
      some (bytes₃ x y z w ++ tail)
  | [_] => none

/-- At most two padding characters taken off the end. -/
def stripPadding (s : List Char) : List Char :=
  match s.reverse with
  | '=' :: '=' :: rest => rest.reverse
  | '=' :: rest => rest.reverse
  | _ => s

/-- `atob`: white space is dropped, and padding when it completes a quantum. -/
def atob (s : List Char) : Option (List UInt8) :=
  let s := s.filter fun c => c ∉ [' ', '\t', '\n', '\x0c', '\r']
  decodeRaw (if s.length % 4 = 0 then stripPadding s else s)

section RoundTrip

variable (a b c : UInt8)

theorem digits_lt : a.toNat / 4 < 64 ∧ a.toNat % 4 * 16 + b.toNat / 16 < 64 ∧
    b.toNat % 16 * 4 + c.toNat / 64 < 64 ∧ c.toNat % 64 < 64 := by
  have ha := a.toNat_lt
  have hb := b.toNat_lt
  have hc := c.toNat_lt
  omega

/-- Three bytes come back from their four digits. -/
theorem bytes₃_digits : bytes₃ (a.toNat / 4) (a.toNat % 4 * 16 + b.toNat / 16)
    (b.toNat % 16 * 4 + c.toNat / 64) (c.toNat % 64) = [a, b, c] := by
  have ha := a.toNat_lt
  have hb := b.toNat_lt
  have hc := c.toNat_lt
  have h₁ : a.toNat / 4 * 4 + (a.toNat % 4 * 16 + b.toNat / 16) / 16 = a.toNat := by omega
  have h₂ : (a.toNat % 4 * 16 + b.toNat / 16) % 16 * 16 +
      (b.toNat % 16 * 4 + c.toNat / 64) / 4 = b.toNat := by omega
  have h₃ : (b.toNat % 16 * 4 + c.toNat / 64) % 4 * 64 + c.toNat % 64 = c.toNat := by omega
  simp only [bytes₃, h₁, h₂, h₃, UInt8.ofNat_toNat]

/-- Two bytes are three digits of the quantum whose third byte is zero. -/
theorem bytes₂_digits : (bytes₃ (a.toNat / 4) (a.toNat % 4 * 16 + b.toNat / 16)
    (b.toNat % 16 * 4) 0).take 2 = [a, b] := by
  have h := bytes₃_digits a b 0
  simp only [UInt8.toNat_zero, Nat.zero_div, Nat.add_zero, Nat.zero_mod] at h
  rw [h]
  rfl

theorem bytes₁_digits :
    (bytes₃ (a.toNat / 4) (a.toNat % 4 * 16) 0 0).take 1 = [a] := by
  have h := bytes₃_digits a 0 0
  simp only [UInt8.toNat_zero, Nat.zero_div, Nat.add_zero, Nat.zero_mod, Nat.zero_mul] at h
  rw [h]
  rfl

end RoundTrip

theorem encode_cons₃ (a b c : UInt8) (rest : List UInt8) :
    encode (a :: b :: c :: rest) =
      digit (a.toNat / 4) :: digit (a.toNat % 4 * 16 + b.toNat / 16) ::
        digit (b.toNat % 16 * 4 + c.toNat / 64) :: digit (c.toNat % 64) :: encode rest := by
  have hLength : (a :: b :: c :: rest).length % 3 = rest.length % 3 := by
    simp only [List.length_cons]
    omega
  simp only [encode, raw, padding, hLength, List.cons_append]

/-- What is encoded is decoded, quantum by quantum. -/
theorem decodeQuanta_encode (bytes : List UInt8) : decodeQuanta (encode bytes) = some bytes := by
  induction bytes using raw.induct with
  | case1 => rfl
  | case2 a =>
      obtain ⟨h₁, h₂, -, -⟩ := digits_lt a 0 0
      have h₂' : a.toNat % 4 * 16 < 64 := by simpa using h₂
      simp [encode, raw, padding, decodeQuanta, value_digit _ h₁, value_digit _ h₂', value_pad,
        bytes₁_digits]
  | case3 a b =>
      obtain ⟨h₁, h₂, h₃, -⟩ := digits_lt a b 0
      have h₃' : b.toNat % 16 * 4 < 64 := by simpa using h₃
      simp [encode, raw, padding, decodeQuanta, value_digit _ h₁, value_digit _ h₂,
        value_digit _ h₃', value_pad, bytes₂_digits]
  | case4 a b c rest ih =>
      obtain ⟨h₁, h₂, h₃, h₄⟩ := digits_lt a b c
      simp [encode_cons₃, decodeQuanta, value_digit _ h₁, value_digit _ h₂, value_digit _ h₃,
        value_digit _ h₄, ih, bytes₃_digits]

/-- The same without padding. -/
theorem decodeRaw_raw (bytes : List UInt8) : decodeRaw (raw bytes) = some bytes := by
  induction bytes using raw.induct with
  | case1 => rfl
  | case2 a =>
      obtain ⟨h₁, h₂, -, -⟩ := digits_lt a 0 0
      have h₂' : a.toNat % 4 * 16 < 64 := by simpa using h₂
      simp [raw, decodeRaw, value_digit _ h₁, value_digit _ h₂', bytes₁_digits]
  | case3 a b =>
      obtain ⟨h₁, h₂, h₃, -⟩ := digits_lt a b 0
      have h₃' : b.toNat % 16 * 4 < 64 := by simpa using h₃
      simp [raw, decodeRaw, value_digit _ h₁, value_digit _ h₂, value_digit _ h₃', bytes₂_digits]
  | case4 a b c rest ih =>
      obtain ⟨h₁, h₂, h₃, h₄⟩ := digits_lt a b c
      simp [raw, decodeRaw, value_digit _ h₁, value_digit _ h₂, value_digit _ h₃,
        value_digit _ h₄, ih, bytes₃_digits]

/-- Only the 64 digits are written. -/
theorem mem_raw {bytes : List UInt8} {d : Char} (h : d ∈ raw bytes) : ∃ n < 64, d = digit n := by
  induction bytes using raw.induct with
  | case1 => simp [raw] at h
  | case2 a =>
      obtain ⟨h₁, h₂, -, -⟩ := digits_lt a 0 0
      simp only [raw, List.mem_cons, List.not_mem_nil, or_false] at h
      rcases h with h | h
      · exact ⟨_, h₁, h⟩
      · exact ⟨_, by simpa using h₂, h⟩
  | case3 a b =>
      obtain ⟨h₁, h₂, h₃, -⟩ := digits_lt a b 0
      simp only [raw, List.mem_cons, List.not_mem_nil, or_false] at h
      rcases h with h | h | h
      · exact ⟨_, h₁, h⟩
      · exact ⟨_, h₂, h⟩
      · exact ⟨_, by simpa using h₃, h⟩
  | case4 a b c rest ih =>
      obtain ⟨h₁, h₂, h₃, h₄⟩ := digits_lt a b c
      simp only [raw, List.mem_cons] at h
      rcases h with h | h | h | h | h
      · exact ⟨_, h₁, h⟩
      · exact ⟨_, h₂, h⟩
      · exact ⟨_, h₃, h⟩
      · exact ⟨_, h₄, h⟩
      · exact ih h

theorem digit_not_space : ∀ n < 64, digit n ∉ [' ', '\t', '\n', '\x0c', '\r'] := by decide +kernel

/-- No digit and no padding character is white space. -/
theorem mem_encode {bytes : List UInt8} {d : Char} (h : d ∈ encode bytes) :
    d ∉ [' ', '\t', '\n', '\x0c', '\r'] := by
  rcases List.mem_append.mp h with h | h
  · obtain ⟨n, hn, rfl⟩ := mem_raw h
    exact digit_not_space n hn
  · obtain rfl : d = '=' := List.eq_of_mem_replicate h
    decide

/-- What is encoded is decoded again. -/
theorem decodeString_encode (bytes : List UInt8) : decodeString (encode bytes) = some bytes := by
  have hFilter : (encode bytes).filter (fun c => c ≠ '\r' && c ≠ '\n') = encode bytes := by
    apply List.filter_eq_self.mpr
    intro d hd
    have hSpace := mem_encode hd
    simp only [List.mem_cons, not_or] at hSpace
    simp [hSpace.2.2.1, hSpace.2.2.2.2.1]
  rw [decodeString, hFilter, decodeQuanta_encode]

/-- Every started quantum of three bytes takes four characters. -/
theorem encode_length (bytes : List UInt8) :
    (encode bytes).length = (bytes.length + 2) / 3 * 4 := by
  induction bytes using raw.induct with
  | case1 => rfl
  | case2 a => simp [encode, raw, padding]
  | case3 a b => simp [encode, raw, padding]
  | case4 a b c rest ih =>
      simp only [encode_cons₃, List.length_cons, ih]
      omega

theorem pad_not_mem_raw (bytes : List UInt8) : '=' ∉ raw bytes := by
  intro h
  obtain ⟨n, hn, hDigit⟩ := mem_raw h
  exact digit_ne_pad n hn hDigit.symm

/-- The padding is taken off. -/
theorem stripPadding_encode (bytes : List UInt8) : stripPadding (encode bytes) = raw bytes := by
  have hPad : ∀ rest, (raw bytes).reverse ≠ '=' :: rest := by
    intro rest h
    exact pad_not_mem_raw bytes (List.mem_reverse.mp (h ▸ List.mem_cons_self ..))
  have hCount : (3 - bytes.length % 3) % 3 < 3 := Nat.mod_lt _ (by decide)
  unfold encode padding
  generalize (3 - bytes.length % 3) % 3 = count at hCount
  interval_cases count
  · simp only [List.replicate_zero, List.append_nil, stripPadding]
    split
    · next rest h => exact absurd h (hPad _)
    · next rest h => exact absurd h (hPad _)
    · rfl
  · simp only [stripPadding, List.reverse_append, List.replicate_one, List.reverse_singleton,
      List.singleton_append, List.reverse_reverse]
  · simp [stripPadding, List.replicate_succ]

/-- `atob` reads back what Go has encoded. -/
theorem atob_encode (bytes : List UInt8) : atob (encode bytes) = some bytes := by
  have hFilter : (encode bytes).filter (fun c => c ∉ [' ', '\t', '\n', '\x0c', '\r']) =
      encode bytes := by
    apply List.filter_eq_self.mpr
    intro d hd
    simpa using mem_encode hd
  have hLength : (encode bytes).length % 4 = 0 := by
    rw [encode_length]
    omega
  rw [atob, hFilter, if_pos hLength, stripPadding_encode, decodeRaw_raw]

end Base64
