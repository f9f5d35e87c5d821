import Mathlib.Algebra.Group.Nat.Defs
import NetConductor.Text.Address

/-! Decimal numbers as `strconv.ParseInt` reads them, with 64 bits. -/
namespace GoText
open GoNet

/-- `strconv.ParseUint` from what it has read so far: `none` for a character
that is no digit, the largest number as soon as there are too many digits. -/
def parseUint (n : Nat) : Chars → Option Nat
  | [] => some n
  | c :: rest =>
      if isDigit c = false then none
      else
        let n' := 10 * n + (c.toNat - '0'.toNat)
        if 2 ^ 64 ≤ n' then some (2 ^ 64 - 1) else parseUint n' rest

/-- A text without its sign, and whether the sign is a minus. -/
def signed : Chars → Bool × Chars
  | '-' :: rest => (true, rest)
  | '+' :: rest => (false, rest)
  | s => (false, s)

/-- The first result of `strconv.ParseInt(s, 10, 64)`: 0 for what is no number,
the nearest one for what is out of range. -/
def parseInt (s : Chars) : Int :=
  let (minus, digits) := signed s
  if digits = [] then 0
  else match parseUint 0 digits with
    | none => 0
    | some n =>
        if minus then -(min n (2 ^ 63) : Nat) else (min n (2 ^ 63 - 1) : Nat)

/-- Digits are read as their number, or as the greatest one of 64 bits. -/
theorem parseUint_digits {digits : Chars} (hDigits : ∀ c ∈ digits, c.isDigit = true) {n : Nat}
    (hn : n < 2 ^ 64) :
    parseUint n digits = some (min (Nat.ofDigitChars 10 digits n) (2 ^ 64 - 1)) := by
  induction digits generalizing n with
  | nil =>
      rw [parseUint, Nat.ofDigitChars_nil]
      congr 1
      omega
  | cons c rest ih =>
      have hDigit : isDigit c = true := hDigits c (by simp)
      have hRest : ∀ c ∈ rest, c.isDigit = true := fun c hc => hDigits c (by simp [hc])
      simp only [parseUint, hDigit, Bool.true_eq_false, if_false, Nat.ofDigitChars_cons]
      split
      · next hMany =>
          have hGrows : Nat.ofDigitChars 10 rest (10 * n + (c.toNat - '0'.toNat)) =
              10 ^ rest.length * (10 * n + (c.toNat - '0'.toNat)) + Nat.ofDigitChars 10 rest 0 :=
            Nat.ofDigitChars_eq_ofDigitChars_zero
          have hPow : 1 ≤ 10 ^ rest.length := Nat.one_le_two_pow.trans (Nat.pow_le_pow_left (by omega) _)
          have hLe : 10 * n + (c.toNat - '0'.toNat) ≤
              10 ^ rest.length * (10 * n + (c.toNat - '0'.toNat)) := Nat.le_mul_of_pos_left _ hPow
          congr 1
          omega
      · next hFits => exact ih hRest (Nat.not_le.mp hFits)

/-- A printed number is read back, or the largest one in its place. -/
theorem parseInt_toDigits (n : Nat) :
    parseInt (Nat.toDigits 10 n) = (min n (2 ^ 63 - 1) : Nat) := by
  have hDigits : ∀ c ∈ Nat.toDigits 10 n, c.isDigit = true := fun c hc =>
    Nat.isDigit_of_mem_toDigits (by decide) (by decide) hc
  have hSigned : signed (Nat.toDigits 10 n) = (false, Nat.toDigits 10 n) := by
    unfold signed
    split
    · next rest hText => exact absurd (hDigits '-' (by simp [hText])) (by decide)
    · next rest hText => exact absurd (hDigits '+' (by simp [hText])) (by decide)
    · rfl
  simp only [parseInt, hSigned, Nat.toDigits_ne_nil, if_false,
    parseUint_digits hDigits (by decide : 0 < 2 ^ 64),
    Nat.ofDigitChars_toDigits (by decide : 1 < 10) (Nat.le_refl 10), Bool.false_eq_true]
  congr 1
  omega

theorem isWord_toDigits (n : Nat) : IsWord (Nat.toDigits 10 n) := by
  refine ⟨Nat.toDigits_ne_nil, fun c hc => ?_⟩
  obtain ⟨hLow, hHigh⟩ := Char.isDigit_iff_toNat.mp
    (Nat.isDigit_of_mem_toDigits (by decide) (by decide) hc)
  have hAll : ∀ k : Nat, 48 ≤ k → k ≤ 57 → isSpace (Char.ofNat k) = false := by decide
  simpa using hAll c.toNat hLow hHigh

example : parseInt "-9223372036854775809".toList = -2 ^ 63 := by decide

end GoText
