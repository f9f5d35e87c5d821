import Mathlib.Data.List.AList

/-! Finite maps: what inserting and erasing do to a lookup and to the size. -/
namespace Tables

variable {K V : Type} [DecidableEq K]

theorem lookup_insert_eq (m : AList fun _ : K => V) (k k' : K) (v : V) :
    (m.insert k v).lookup k' = if k' = k then some v else m.lookup k' := by
  split_ifs with hk
  · rw [hk, AList.lookup_insert]
  · exact AList.lookup_insert_ne hk

theorem lookup_erase_eq (m : AList fun _ : K => V) (k k' : K) :
    (m.erase k).lookup k' = if k' = k then none else m.lookup k' := by
  split_ifs with hk
  · rw [hk, AList.lookup_erase]
  · exact AList.lookup_erase_ne hk

/-- A key put into a set, or taken out of it. -/
theorem mem_insert_or_erase (m : AList fun _ : K => V) (k k' : K) (v : V) (b : Bool) :
    k' ∈ (if b then m.insert k v else m.erase k) ↔ if k' = k then b = true else k' ∈ m := by
  cases b with
  | false => by_cases hk : k' = k <;> simp [hk, AList.mem_erase]
  | true => by_cases hk : k' = k <;> simp [hk, AList.mem_insert]

theorem length_insert (m : AList fun _ : K => V) (k : K) (v : V) :
    (m.insert k v).entries.length ≤ m.entries.length + 1 := by
  rw [AList.entries_insert, List.length_cons]
  exact Nat.succ_le_succ (List.kerase_sublist k m.entries).length_le

theorem length_erase (m : AList fun _ : K => V) (k : K) :
    (m.erase k).entries.length ≤ m.entries.length :=
  (List.kerase_sublist k m.entries).length_le

end Tables
