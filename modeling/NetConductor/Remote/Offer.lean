import NetConductor.Core.Model

/-! The offer that opens a session, and its way through `encoding/json`: the
server reads it, sets the mode and writes it again. -/
namespace NetConductor

/-- A valid JSON text, with numbers as they are written. -/
inductive Json where
  | null
  | bool (b : Bool)
  | num (text : String)
  | str (s : String)
  | arr (items : List Json)
  | obj (fields : List (String × Json))

/-- How a session description is read into one that is there already, and how
it is written. Both are the WebRTC library's. -/
structure SDPCodec (S : Type) where
  zero : S
  unmarshal : S → Json → Option S
  marshal : S → Json

structure Offer (S : Type) where
  sdp : S
  mode : String

namespace Offer

variable {S : Type}

/-- The two letters outside ASCII that fold to a letter inside it are the long
s and the Kelvin sign. -/
def foldRune (c : Char) : Char :=
  if c = 'ſ' then 's' else if c = 'K' then 'k' else c.toLower

/-- A key names a field in any case. -/
def namesField (key field : String) : Bool := key.toList.map foldRune = field.toList

def unmarshalField (C : SDPCodec S) (o : Offer S) (field : String × Json) : Option (Offer S) :=
  if namesField field.1 "sdp" then (C.unmarshal o.sdp field.2).map fun sdp => { o with sdp := sdp }
  else if namesField field.1 "mode" then
    match field.2 with
    | .str s => some { o with mode := s }
    | .null => some o
    | _ => none
  else some o

/-- `json.Unmarshal` into a zero offer; there is no text when the message has no
data. -/
def unmarshal (C : SDPCodec S) : Option Json → Option (Offer S)
  | some (.obj fields) => fields.foldlM (unmarshalField C) ⟨C.zero, ""⟩
  | some .null => some ⟨C.zero, ""⟩
  | _ => none

def marshal (C : SDPCodec S) (o : Offer S) : Json :=
  .obj [("sdp", C.marshal o.sdp), ("mode", .str o.mode)]

/-- However the description is read back, the mode is the one written. -/
theorem mode_unmarshal_marshal {C : SDPCodec S} {o o' : Offer S}
    (h : unmarshal C (some (marshal C o)) = some o') : o'.mode = o.mode := by
  have hSDP : namesField "sdp" "sdp" = true := by decide +kernel
  have hMode : namesField "mode" "sdp" = false ∧ namesField "mode" "mode" = true := by decide +kernel
  simp only [unmarshal, marshal, List.foldlM_cons, List.foldlM_nil, unmarshalField, hSDP, hMode.1,
    hMode.2, if_true, Bool.false_eq_true, if_false] at h
  cases hRead : C.unmarshal C.zero (C.marshal o.sdp) with
  | none => simp [hRead] at h
  | some sdp =>
      simp only [hRead, Option.map_some, Option.bind_eq_bind, Option.bind_some, Option.pure_def,
        Option.some.injEq] at h
      rw [← h]

end Offer
end NetConductor
