import Mathlib.Data.List.Basic
import Mathlib.Tactic.Common

/-! Strings of JavaScript: sequences of UTF-16 code units, in which half of a
surrogate pair may stand alone. -/
namespace CodeUnits

def high (u : UInt16) : Bool := 0xD800 ≤ u.toNat && u.toNat ≤ 0xDBFF

def low (u : UInt16) : Bool := 0xDC00 ≤ u.toNat && u.toNat ≤ 0xDFFF

/-- The character of a surrogate pair. -/
def paired (u v : UInt16) : Char :=
  Char.ofNat (0x10000 + (u.toNat - 0xD800) * 0x400 + (v.toNat - 0xDC00))

/-- The character of any other code unit; half of a pair is replaced. -/
def single (u : UInt16) : Char := if high u || low u then '\uFFFD' else Char.ofNat u.toNat

/-- The characters of a string, as `TextEncoder` sees them. -/
def scalarValues : List UInt16 → List Char
  | [] => []
  | [u] => [single u]
  | u :: v :: rest =>
      if high u && low v then paired u v :: scalarValues rest
      else single u :: scalarValues (v :: rest)

theorem scalarValues_single {u : UInt16} (hSingle : high u = false) (rest : List UInt16) :
    scalarValues (u :: rest) = single u :: scalarValues rest := by
  cases rest with
  | nil => rfl
  | cons v rest => simp [scalarValues, hSingle]

end CodeUnits
