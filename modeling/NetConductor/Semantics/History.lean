import Mathlib.Data.List.Basic

/-! Histories in which every event answers to a law about the events before it,
and the states that a sequence of events goes through. -/
namespace History

variable {E : Type*}

inductive Lawful (P : List E → E → Prop) : List E → Prop where
  | nil : Lawful P []
  | snoc {log : List E} {e : E} (prior : Lawful P log) (last : P log e) : Lawful P (log ++ [e])

variable {P : List E → E → Prop} {log : List E}

/-- An event met the law when it came. -/
theorem Lawful.at (h : Lawful P log) {before after : List E} {e : E}
    (hSplit : log = before ++ e :: after) : P before e := by
  induction h generalizing after with
  | nil => simp at hSplit
  | @snoc log last prior hLast ih =>
      rcases List.eq_nil_or_concat' after with rfl | ⟨rest, l, rfl⟩
      · obtain ⟨rfl, hSame⟩ := List.append_inj' hSplit rfl
        obtain rfl := List.singleton_inj.mp hSame
        exact hLast
      · rw [← List.cons_append, ← List.append_assoc] at hSplit
        exact ih (List.append_inj' hSplit rfl).1

variable {S : Type*}

/-- The property holds in every state on the way. -/
def Throughout (f : S → E → S) (P : S → Prop) (s : S) (events : List E) : Prop :=
  ∀ before, before <+: events → P (before.foldl f s)

/-- Every event meets the guard in the state it comes to. -/
def Guarded (f : S → E → S) (G : S → E → Prop) : S → List E → Prop
  | _, [] => True
  | s, e :: rest => G s e ∧ Guarded f G (f s e) rest

variable {f : S → E → S} {Q : S → Prop} {s : S}

theorem throughout_nil : Throughout f Q s [] ↔ Q s := by
  simp [Throughout]

/-- A property holds all along when it holds now and all along the rest. -/
theorem throughout_cons {e : E} {rest : List E} :
    Throughout f Q s (e :: rest) ↔ Q s ∧ Throughout f Q (f s e) rest := by
  constructor
  · intro h
    exact ⟨h [] List.nil_prefix, fun before hBefore => h (e :: before) (List.cons_prefix_cons.mpr ⟨rfl, hBefore⟩)⟩
  · rintro ⟨hStart, hRest⟩ before hBefore
    cases before with
    | nil => exact hStart
    | cons e' before =>
        obtain ⟨rfl, hPrefix⟩ := List.cons_prefix_cons.mp hBefore
        exact hRest before hPrefix

/-- Where a step keeps the property exactly when its event meets the guard, the
property holds all the way exactly when it holds at the start and every event
meets the guard. -/
theorem throughout_iff {G : S → E → Prop} (hStep : ∀ s e, Q s → (Q (f s e) ↔ G s e)) (s : S)
    (events : List E) : Throughout f Q s events ↔ Q s ∧ Guarded f G s events := by
  induction events generalizing s with
  | nil => simp [throughout_nil, Guarded]
  | cons e rest ih =>
      rw [throughout_cons, ih, Guarded]
      refine and_congr_right fun hs => ?_
      rw [hStep s e hs]

end History
