import Mathlib.Data.List.Basic

/-! A list used as a table: the first row that matches is the one that lookups
find and that updates through a pointer change. -/
namespace FirstMatch

variable {α β : Type*}

/-- The first row that matches is a good one exactly when every bad one that
matches comes after a good one. -/
theorem find?_good_iff {p : α → Bool} {Bad : α → Prop} {rows : List α} :
    (∀ a, rows.find? p = some a → ¬Bad a) ↔
      ∀ before a after, rows = before ++ a :: after → p a = true → Bad a →
        ∃ b ∈ before, p b = true ∧ ¬Bad b := by
  constructor
  · rintro h before a after rfl hMatch hBad
    rcases hFirst : before.find? p with _ | b
    · refine absurd hBad (h a ?_)
      rw [List.find?_append, hFirst, List.find?_cons_of_pos hMatch]
      rfl
    · refine ⟨b, List.mem_of_find?_eq_some hFirst, List.find?_some hFirst, h b ?_⟩
      rw [List.find?_append, hFirst]
      rfl
  · intro h a hFound hBad
    obtain ⟨hMatch, before, after, hSplit, hNone⟩ := List.find?_eq_some_iff_append.mp hFound
    obtain ⟨b, hb, hEarlier, -⟩ := h before a after hSplit hMatch hBad
    exact absurd hEarlier (by simpa using hNone b hb)

/-- Change the first row that matches and no other. -/
def update (p : α → Bool) (f : α → α) : List α → List α
  | [] => []
  | a :: rest => if p a then f a :: rest else a :: update p f rest

@[simp] theorem update_nil (p : α → Bool) (f : α → α) : update p f [] = [] := rfl

theorem update_cons (p : α → Bool) (f : α → α) (a : α) (rest : List α) :
    update p f (a :: rest) = if p a then f a :: rest else a :: update p f rest := rfl

/-- Two updates of one row are one, when the first leaves it matching. -/
theorem update_update {p : α → Bool} {f g : α → α} (hg : ∀ a, p a = true → p (g a) = true)
    (rows : List α) : update p f (update p g rows) = update p (f ∘ g) rows := by
  induction rows with
  | nil => rfl
  | cons a rest ih =>
      by_cases ha : p a = true
      · simp [update_cons, ha, hg a ha]
      · simp [update_cons, ha, ih]

/-- A column that `f` leaves alone in the rows that match is the same after the
update. -/
theorem map_update_matching {p : α → Bool} {f : α → α} {g : α → β}
    (h : ∀ a, p a = true → g (f a) = g a) (rows : List α) :
    (update p f rows).map g = rows.map g := by
  induction rows with
  | nil => rfl
  | cons a rest ih =>
      rw [update_cons]
      split
      · next hMatch => simp [h a hMatch]
      · simp [ih]

theorem map_update {p : α → Bool} {f : α → α} {g : α → β} (h : ∀ a, g (f a) = g a)
    (rows : List α) : (update p f rows).map g = rows.map g :=
  map_update_matching (fun a _ => h a) rows

/-- Every row of the updated table is an old row, or the new version of the one
that lookups find. -/
theorem mem_update_find {p : α → Bool} {f : α → α} {rows : List α} {b : α}
    (h : b ∈ update p f rows) : b ∈ rows ∨ ∃ a, rows.find? p = some a ∧ b = f a := by
  induction rows with
  | nil => exact .inl h
  | cons a rest ih =>
      rw [update_cons] at h
      split at h
      · next hp =>
          rcases List.mem_cons.mp h with rfl | h
          · exact .inr ⟨a, List.find?_cons_of_pos hp, rfl⟩
          · exact .inl (List.mem_cons_of_mem a h)
      · next hp =>
          rcases List.mem_cons.mp h with rfl | h
          · exact .inl (by simp)
          · rcases ih h with h | ⟨c, hc, rfl⟩
            · exact .inl (List.mem_cons_of_mem a h)
            · exact .inr ⟨c, (List.find?_cons_of_neg hp).trans hc, rfl⟩

theorem mem_update {p : α → Bool} {f : α → α} {rows : List α} {b : α}
    (h : b ∈ update p f rows) : b ∈ rows ∨ ∃ a ∈ rows, p a = true ∧ b = f a := by
  rcases mem_update_find h with h | ⟨a, ha, rfl⟩
  · exact .inl h
  · exact .inr ⟨a, List.mem_of_find?_eq_some ha, List.find?_some ha, rfl⟩

/-- The row that lookups find is there in its new version. -/
theorem find_mem_update {p : α → Bool} {f : α → α} {rows : List α} {a : α}
    (h : rows.find? p = some a) : f a ∈ update p f rows := by
  induction rows with
  | nil => cases h
  | cons x rest ih =>
      rw [update_cons]
      by_cases hx : p x = true
      · obtain rfl : x = a := by simpa [hx] using h
        rw [if_pos hx]
        exact .head _
      · rw [if_neg hx]
        exact .tail _ (ih (by simpa [hx] using h))

/-- A view of the rows that carries the update over to its own rows. -/
theorem map_update_comm {p : α → Bool} {f : α → α} {g : α → β} {p' : β → Bool} {f' : β → β}
    (hp : ∀ a, p a = p' (g a)) (hf : ∀ a, g (f a) = f' (g a)) (rows : List α) :
    (update p f rows).map g = update p' f' (rows.map g) := by
  induction rows with
  | nil => rfl
  | cons a rest ih =>
      simp only [update_cons, List.map_cons, hp a]
      split
      · simp [hf]
      · simp [ih]

/-- With the column free of repetitions, removing the first row with a value
removes the value. -/
theorem ne_of_mem_eraseP [DecidableEq β] {g : α → β} {b : β} {rows : List α}
    (hNodup : (rows.map g).Nodup) {a : α} (ha : a ∈ rows.eraseP fun x => g x = b) : g a ≠ b := by
  induction rows with
  | nil => simp at ha
  | cons x rest ih =>
      obtain ⟨hx, hRest⟩ := List.nodup_cons.mp hNodup
      by_cases hb : g x = b
      · rw [List.eraseP_cons_of_pos (by simpa using hb)] at ha
        rintro rfl
        exact hx (hb ▸ List.mem_map_of_mem ha)
      · rw [List.eraseP_cons_of_neg (by simpa using hb)] at ha
        rcases List.mem_cons.mp ha with rfl | ha
        · exact hb
        · exact ih hRest ha

/-- Writing back the row that lookup had found undoes an update of it. -/
theorem update_restore {p : α → Bool} {f : α → α} {rows : List α} {old : α}
    (hOld : rows.find? p = some old) (hf : ∀ a, p a = true → p (f a) = true) :
    update p (fun _ => old) (update p f rows) = rows := by
  induction rows with
  | nil => simp at hOld
  | cons a rest ih =>
      by_cases ha : p a = true
      · have hEq : a = old := by simpa [List.find?_cons, ha] using hOld
        subst hEq
        simp [update_cons, ha, hf a ha]
      · have hRest : rest.find? p = some old := by simpa [List.find?_cons, ha] using hOld
        simp [update_cons, ha, ih hRest]

/-- Lookups that do not tell a matching row from its new version find what they
found, in the new version where it matched. -/
theorem find?_update {p q : α → Bool} {f : α → α} (hq : ∀ a, p a = true → q (f a) = q a)
    (rows : List α) :
    (update p f rows).find? q = rows.find? q ∨
      ∃ a, rows.find? q = some a ∧ p a = true ∧ (update p f rows).find? q = some (f a) := by
  induction rows with
  | nil => exact .inl rfl
  | cons a rest ih =>
      rw [update_cons]
      by_cases hp : p a = true
      · rw [if_pos hp]
        cases hqa : q a with
        | true => exact .inr ⟨a, by simp [hqa], hp, by simp [hq a hp, hqa]⟩
        | false => exact .inl (by simp [hq a hp, hqa])
      · rw [if_neg hp]
        cases hqa : q a with
        | true => exact .inl (by simp [hqa])
        | false => simpa [List.find?_cons, hqa] using ih

variable [DecidableEq β]

/-- An update of the row with one key, seen by a lookup of any key. -/
theorem find?_update_key {key : α → β} {f : α → α} (hf : ∀ a, key (f a) = key a) (k k' : β)
    (rows : List α) :
    (update (fun a => key a = k) f rows).find? (fun a => key a = k') =
      if k' = k then (rows.find? fun a => key a = k').map f else rows.find? fun a => key a = k' := by
  induction rows with
  | nil => simp
  | cons a rest ih =>
      by_cases hk : key a = k
      · subst hk
        by_cases hk' : k' = key a
        · subst hk'
          simp [update_cons, hf]
        · have hNe : key a ≠ k' := Ne.symm hk'
          simp [update_cons, hf, hk', hNe]
      · by_cases hk' : key a = k'
        · subst hk'
          simp [update_cons, hk]
        · rw [update_cons, if_neg (by simpa using hk), List.find?_cons_of_neg (by simpa using hk'), ih,
            List.find?_cons_of_neg (by simpa using hk')]

/-- Replace every row that has the key of the new one, or append it. -/
def upsert (key : α → β) (a : α) (rows : List α) : List α :=
  if rows.any fun x => key x = key a then rows.map fun x => if key x = key a then a else x
  else rows ++ [a]

/-- After an upsert a row is the new one, or an old one with another key. -/
theorem mem_upsert {key : α → β} {a b : α} {rows : List α} (h : b ∈ upsert key a rows) :
    b = a ∨ (b ∈ rows ∧ key b ≠ key a) := by
  unfold upsert at h
  split at h
  · obtain ⟨x, hx, rfl⟩ := List.mem_map.mp h
    split
    · exact .inl rfl
    · next hKey => exact .inr ⟨hx, hKey⟩
  · next hAny =>
      rcases List.mem_append.mp h with h | h
      · exact .inr ⟨h, fun hKey => hAny (List.any_eq_true.mpr ⟨b, h, by simpa using hKey⟩)⟩
      · exact .inl (List.mem_singleton.mp h)

/-- Keys that do not repeat do not repeat afterwards. -/
theorem nodup_upsert {key : α → β} {rows : List α} (h : (rows.map key).Nodup) (a : α) :
    ((upsert key a rows).map key).Nodup := by
  unfold upsert
  split
  · have hKeys : (rows.map fun x => if key x = key a then a else x).map key = rows.map key := by
      rw [List.map_map]
      refine List.map_congr_left fun x _ => ?_
      simp only [Function.comp_apply]
      split
      · next hKey => exact hKey.symm
      · rfl
    rw [hKeys]
    exact h
  · next hAny =>
      rw [List.map_append, List.nodup_append]
      refine ⟨h, by simp, fun k hk k' hk' hEq => hAny ?_⟩
      obtain ⟨x, hx, rfl⟩ := List.mem_map.mp hk
      rw [List.map_singleton, List.mem_singleton] at hk'
      exact List.any_eq_true.mpr ⟨x, hx, by simpa [hk'] using hEq⟩

/-- A view of the rows that keeps the key carries the change over. -/
theorem map_upsert {γ : Type*} {key : α → β} {key' : γ → β} {g : α → γ}
    (hKey : ∀ a, key' (g a) = key a) (a : α) (rows : List α) :
    (upsert key a rows).map g = upsert key' (g a) (rows.map g) := by
  have hAny : (rows.map g).any (fun x => key' x = key' (g a)) = rows.any fun x => key x = key a := by
    simp only [List.any_map, Function.comp_def, hKey]
  unfold upsert
  rw [hAny]
  split
  · rw [List.map_map, List.map_map]
    refine List.map_congr_left fun x _ => ?_
    simp only [Function.comp_def, hKey]
    split <;> rfl
  · rw [List.map_append]
    rfl

end FirstMatch
