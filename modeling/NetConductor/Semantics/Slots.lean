/-! Numbered slots: a list whose entries change in place and to which new ones
are added at the end. -/
namespace Slots

variable {α : Type}

/-- Each entry is one that was there, changed as `R` allows at its place, or is
new and has `New`; at most one place is not as it was. -/
structure Evolves (R : Nat → α → α → Prop) (New : α → Prop) (l l' : List α) : Prop where
  length : l.length ≤ l'.length
  before : ∀ i x', l'[i]? = some x' →
    (∃ x, l[i]? = some x ∧ R i x x') ∨ (l[i]? = none ∧ New x')
  elsewhere : ∃ i : Nat, ∀ j : Nat, j ≠ i → l'[j]? = l[j]?

variable {R : Nat → α → α → Prop} {New : α → Prop} {l l' : List α}

theorem Evolves.refl (hR : ∀ i x, R i x x) (l : List α) : Evolves R New l l :=
  ⟨Nat.le_refl _, fun i x' h => .inl ⟨x', h, hR i x'⟩, 0, fun _ _ => rfl⟩

/-- One slot changes as the relation has it, and the others stay. -/
theorem Evolves.set_at {i : Nat} (hR : ∀ j x, j ≠ i → R j x x) {x x' : α} (hx : l[i]? = some x)
    (h : R i x x') : Evolves R New l (l.set i x') := by
  refine ⟨by simp, fun j y hy => ?_, i, fun j hj => List.getElem?_set_ne (Ne.symm hj)⟩
  rw [List.getElem?_set] at hy
  split at hy
  · next hSame =>
      subst hSame
      split at hy
      · cases hy
        exact .inl ⟨x, hx, h⟩
      · cases hy
  · next hOther => exact .inl ⟨y, hy, hR j y (Ne.symm hOther)⟩

theorem Evolves.set (hR : ∀ i x, R i x x) {i : Nat} {x x' : α} (hx : l[i]? = some x)
    (h : R i x x') : Evolves R New l (l.set i x') := .set_at (fun j x _ => hR j x) hx h

/-- A new slot comes behind the others. -/
theorem Evolves.append (hR : ∀ i x, R i x x) {x' : α} (h : New x') :
    Evolves R New l (l ++ [x']) := by
  refine ⟨by simp, fun j y hy => ?_, l.length, fun j hj => ?_⟩
  rotate_left
  · rw [List.getElem?_append]
    split
    · rfl
    · next hLate => rw [List.getElem?_eq_none (by simp; omega), List.getElem?_eq_none (by omega)]
  by_cases hj : j < l.length
  · rw [List.getElem?_append_left hj] at hy
    exact .inl ⟨y, hy, hR j y⟩
  · have hNone : l[j]? = none := List.getElem?_eq_none (Nat.not_lt.mp hj)
    rw [List.getElem?_append_right (Nat.not_lt.mp hj)] at hy
    obtain rfl : y = x' := by
      have hMem := List.mem_of_getElem? hy
      simpa using hMem
    exact .inr ⟨hNone, h⟩

theorem Evolves.modify_at {i : Nat} (hR : ∀ j x, j ≠ i → R j x x) {f : α → α}
    (h : ∀ x, l[i]? = some x → R i x (f x)) : Evolves R New l (l.modify i f) := by
  refine ⟨by simp, fun j y hy => ?_, i, fun j hj => List.getElem?_modify_ne f l (Ne.symm hj)⟩
  rw [List.getElem?_modify] at hy
  obtain ⟨x, hx, rfl⟩ := Option.map_eq_some_iff.mp hy
  refine .inl ⟨x, hx, ?_⟩
  split
  · next hSame => exact hSame ▸ h x (hSame ▸ hx)
  · next hOther => exact hR j x (Ne.symm hOther)

theorem Evolves.modify (hR : ∀ i x, R i x x) {i : Nat} {f : α → α}
    (h : ∀ x, l[i]? = some x → R i x (f x)) : Evolves R New l (l.modify i f) :=
  .modify_at (fun j x _ => hR j x) h

/-- A slot of a longer list is an old one or the new one. -/
theorem getElem?_concat {i : Nat} {x y : α} :
    (l ++ [x])[i]? = some y ↔ l[i]? = some y ∨ i = l.length ∧ y = x := by
  by_cases hi : i < l.length
  · have hNe : i ≠ l.length := Nat.ne_of_lt hi
    simp [List.getElem?_append_left hi, hNe]
  · have hNone : l[i]? = none := List.getElem?_eq_none (Nat.not_lt.mp hi)
    rw [List.getElem?_append_right (Nat.not_lt.mp hi), hNone]
    constructor
    · intro h
      obtain ⟨hLast, hy⟩ := List.getElem?_eq_some_iff.mp h
      rw [List.length_singleton] at hLast
      exact .inr ⟨by omega, by simpa using hy.symm⟩
    · rintro (h | ⟨rfl, rfl⟩)
      · cases h
      · simp

theorem getElem?_set {i j : Nat} {x x' y : α} (hx : l[i]? = some x) :
    (l.set i x')[j]? = some y ↔ j = i ∧ y = x' ∨ j ≠ i ∧ l[j]? = some y := by
  obtain ⟨hi, -⟩ := List.getElem?_eq_some_iff.mp hx
  by_cases hj : j = i
  · subst hj
    simp [hi, eq_comm]
  · simp [hj, List.getElem?_set_ne (Ne.symm hj)]

/-- An entry that is there stays, changed as allowed. -/
theorem Evolves.later (h : Evolves R New l l') {i : Nat} {x : α} (hx : l[i]? = some x) :
    ∃ x', l'[i]? = some x' ∧ R i x x' := by
  obtain ⟨hi, -⟩ := List.getElem?_eq_some_iff.mp hx
  have hi' : i < l'.length := Nat.lt_of_lt_of_le hi h.length
  rcases h.before i _ (List.getElem?_eq_getElem hi') with ⟨y, hy, hR⟩ | ⟨hNone, -⟩
  · cases hx.symm.trans hy
    exact ⟨_, List.getElem?_eq_getElem hi', hR⟩
  · rw [hx] at hNone
    cases hNone

/-- What a new entry has, and every allowed change keeps, all entries have. -/
theorem Evolves.forall {P P' : Nat → α → Prop} (h : Evolves R New l l')
    (hOld : ∀ i x, l[i]? = some x → P i x)
    (hKeeps : ∀ i x x', l[i]? = some x → P i x → R i x x' → P' i x')
    (hNew : ∀ i x, New x → P' i x) : ∀ i x, l'[i]? = some x → P' i x := by
  intro i x' hx'
  rcases h.before i x' hx' with ⟨x, hx, hR⟩ | ⟨-, hNewX⟩
  · exact hKeeps i x x' hx (hOld i x hx) hR
  · exact hNew i x' hNewX

theorem set_self {i : Nat} {x : α} (hx : l[i]? = some x) : l.set i x = l := by
  obtain ⟨hi, rfl⟩ := List.getElem?_eq_some_iff.mp hx
  exact List.set_getElem_self hi

theorem set_modify (l : List α) (i : Nat) (x : α) (f : α → α) :
    (l.set i x).modify i f = l.set i (f x) := by
  induction l generalizing i with
  | nil => cases i <;> rfl
  | cons y rest ih =>
      cases i with
      | zero => rfl
      | succ i => simp [ih]

/-- A change that `f` does not see. -/
theorem map_set {β : Type} {f : α → β} {i : Nat} {x x' : α} (hx : l[i]? = some x)
    (hf : f x' = f x) : (l.set i x').map f = l.map f := by
  obtain ⟨hi, rfl⟩ := List.getElem?_eq_some_iff.mp hx
  have hi' : i < (l.map f).length := by simpa using hi
  calc (l.set i x').map f = (l.map f).set i (f l[i]) := by rw [List.map_set, hf]
    _ = (l.map f).set i (l.map f)[i] := by rw [List.getElem_map]
    _ = l.map f := List.set_getElem_self hi'

/-- A change that a function does not see changes nothing of its image. -/
theorem map_modify {β : Type} {f : α → β} {i : Nat} {g : α → α}
    (hf : ∀ x, l[i]? = some x → f (g x) = f x) : (l.modify i g).map f = l.map f := by
  refine List.ext_getElem? fun j => ?_
  rw [List.getElem?_map, List.getElem?_map, List.getElem?_modify]
  cases hx : l[j]? with
  | none => rfl
  | some x =>
      by_cases hj : i = j
      · simp [hj, hf x (hj ▸ hx)]
      · simp [hj]

/-- What a change in one slot does to a count. -/
theorem countP_set (p : α → Bool) {i : Nat} {x : α} (x' : α) (hx : l[i]? = some x) :
    (l.set i x').countP p + (p x).toNat = l.countP p + (p x').toNat := by
  obtain ⟨hi, rfl⟩ := List.getElem?_eq_some_iff.mp hx
  have hBit : ∀ y, (if p y = true then 1 else 0) = (p y).toNat := fun y => by cases p y <;> rfl
  have hPos : (p l[i]).toNat ≤ l.countP p := by
    cases hp : p l[i] with
    | false => exact Nat.zero_le _
    | true => exact List.countP_pos_iff.mpr ⟨_, List.getElem_mem hi, hp⟩
  rw [List.countP_set hi, hBit, hBit]
  omega

/-- When one slot at most has anything, and that is one thing, all have one. -/
theorem length_flatMap_le_one {β : Type} {f : α → List β}
    (hOne : ∀ (i : Nat) (x : α), l[i]? = some x → (f x).length ≤ 1)
    (hSame : ∀ (i j : Nat) (x y : α), l[i]? = some x → l[j]? = some y → f x ≠ [] → f y ≠ [] → i = j) :
    (l.flatMap f).length ≤ 1 := by
  induction l with
  | nil => simp
  | cons x rest ih =>
      rw [List.flatMap_cons, List.length_append]
      by_cases hx : f x = []
      · rw [hx]
        have hRest := ih (fun i y hy => hOne (i + 1) y hy) fun i j y z hy hz hfy hfz =>
          Nat.succ.inj (hSame (i + 1) (j + 1) y z hy hz hfy hfz)
        simpa using hRest
      · have hEmpty : rest.flatMap f = [] := by
          refine List.flatMap_eq_nil_iff.mpr fun y hMem => ?_
          obtain ⟨j, hj⟩ := List.mem_iff_getElem?.mp hMem
          refine Classical.byContradiction fun hy => ?_
          exact absurd (hSame 0 (j + 1) x y rfl hj hx hy) (by omega)
        rw [hEmpty]
        exact hOne 0 x rfl

end Slots
