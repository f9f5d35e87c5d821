import Mathlib.Algebra.Order.Ring.Nat

/-! The values of a registry key as Windows PowerShell reads and writes them: the
objects it makes of them, and what is there after a value has been written. -/
namespace NetConductor

/-- A registry value by its kind. `untyped` is of the kind `REG_NONE`, `bigEndian`
of `REG_DWORD_BIG_ENDIAN`, and `other` of any kind that has no name here. -/
inductive RegistryValue where
  | sz (text : String)
  | expandSz (text : String)
  | multiSz (texts : List String)
  | dword (n : UInt32)
  | qword (n : UInt64)
  | binary (bytes : List UInt8)
  | untyped (bytes : List UInt8)
  | bigEndian (bytes : List UInt8)
  | other (kind : Nat) (bytes : List UInt8)
deriving DecidableEq

/-- The objects that `Get-ItemProperty` makes of registry values; each comes out of
a JSON file as it was put in. -/
inductive RegistryObject where
  | null
  | text (s : String)
  | number (n : UInt64)
  | texts (elements : List String)
  | bytes (elements : List UInt8)
deriving DecidableEq

namespace RegistryObject

/-- The object as an array of texts. -/
def toTexts : RegistryObject → List String
  | .null => []
  | .text s => [s]
  | .number n => [toString n]
  | .texts elements => elements
  | .bytes elements => elements.map toString

/-- The object as a text: an array is joined by blanks. -/
def toText (o : RegistryObject) : String := " ".intercalate o.toTexts

/-- `-eq`, which looks for the element in an array. -/
def eq (o : RegistryObject) (s : String) : Bool := o.toTexts.contains s

/-- `-split` with one character. -/
def split (o : RegistryObject) (c : Char) : List String :=
  o.toTexts.flatMap fun s => (s.toList.splitOn c).map String.ofList

/-- The value that is written where none is, by the type of the object: an
`Int32`, an `Int64`, a text; any other number is written as a text. The arrays
that come out of a JSON file are of no type that a value can have. -/
def natural : RegistryObject → Option RegistryValue
  | .null => some (.sz "")
  | .text s => some (.sz s)
  | .number n => some <|
      if n.toNat < 2 ^ 31 then .dword n.toUInt32
      else if n.toNat < 2 ^ 63 then .qword n
      else .sz (toString n)
  | .texts _ | .bytes _ => none

@[simp]
theorem toText_text (s : String) : (text s).toText = s := rfl

end RegistryObject

/-- The environment, and the conversions of objects to numbers and bytes. Nothing
with a colon or a semicolon in it is a number. -/
structure Conversions where
  expand : String → String
  toDword : RegistryObject → Option UInt32
  toQword : RegistryObject → Option UInt64
  toBinary : RegistryObject → Option (List UInt8)
  dword_null : toDword .null = some 0
  dword_number : ∀ n, toDword (.number n) = if n.toNat < 2 ^ 32 then some n.toUInt32 else none
  qword_number : ∀ n, toQword (.number n) = some n
  binary_bytes : ∀ bytes, toBinary (.bytes bytes) = some bytes
  separated : ∀ s, ':' ∈ s.toList ∨ ';' ∈ s.toList →
    toDword (.text s) = none ∧ toQword (.text s) = none ∧ toBinary (.text s) = none

namespace RegistryValue

variable (c : Conversions)

/-- `Get-ItemProperty`, which expands the environment variables in a value of the
kind that has them. -/
def read : RegistryValue → RegistryObject
  | .sz text => .text text
  | .expandSz text => .text (c.expand text)
  | .multiSz texts => .texts texts
  | .dword n => .number n.toUInt64
  | .qword n => .number n
  | .binary bytes | .untyped bytes | .bigEndian bytes => .bytes bytes
  | .other _ _ => .null

/-- `Set-ItemProperty` without a type: the kind of the value that is there is kept
if the object can be converted to it. It fails where there is no kind for the
object, and over a value of the kind `REG_NONE`. -/
def write (current : Option RegistryValue) (o : RegistryObject) : Option RegistryValue :=
  match current with
  | some (.sz _) => some (.sz o.toText)
  | some (.expandSz _) => some (.expandSz o.toText)
  | some (.multiSz _) => some (.multiSz o.toTexts)
  | some (.dword _) => ((c.toDword o).map dword).or o.natural
  | some (.qword _) => ((c.toQword o).map qword).or o.natural
  | some (.binary _) => ((c.toBinary o).map binary).or o.natural
  | some (.untyped _) => none
  | some (.bigEndian _) | some (.other _ _) | none => o.natural

/-- The kinds of text, which take any object. -/
def IsText : RegistryValue → Prop
  | .sz _ | .expandSz _ | .multiSz _ => True
  | _ => False

variable {c}

theorem IsText.write {v : RegistryValue} (h : v.IsText) (o : RegistryObject) :
    ∃ v', RegistryValue.write c (some v) o = some v' := by
  cases v with
  | sz | expandSz | multiSz => exact ⟨_, rfl⟩
  | dword | qword | binary | untyped | bigEndian | other => exact h.elim

/-- Over a kind of number, what is no number becomes a text. -/
theorem write_separated {s : String} (hs : ':' ∈ s.toList ∨ ';' ∈ s.toList)
    {current : Option RegistryValue} (hUntyped : ∀ bytes, current ≠ some (.untyped bytes)) :
    write c current (.text s) = some (match current with
      | some (.expandSz _) => .expandSz s
      | some (.multiSz _) => .multiSz [s]
      | _ => .sz s) := by
  obtain ⟨hDword, hQword, hBinary⟩ := c.separated s hs
  rcases current with _ | v
  · rfl
  · cases v with
    | sz | expandSz | multiSz | bigEndian | other => rfl
    | dword => simp [write, hDword, RegistryObject.natural]
    | qword => simp [write, hQword, RegistryObject.natural]
    | binary => simp [write, hBinary, RegistryObject.natural]
    | untyped bytes => exact absurd rfl (hUntyped bytes)

end RegistryValue
end NetConductor
