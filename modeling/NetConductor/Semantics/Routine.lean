/-! Routines that change a state and may stop with an error: what holds before
one, after its success and after its error. -/

/-- The changes made before an error stay. -/
abbrev Routine (σ ε α : Type) := ExceptT ε (StateM σ) α

namespace Routine

variable {σ ε α β : Type}

/-- The value or error that `x` ends with, and the state then. -/
def outcome (x : Routine σ ε α) (s : σ) : Except ε α × σ := StateT.run (ExceptT.run x) s

/-- Started where `P` holds, `x` ends in `Q` of its value, or in `E` with an
error. -/
def Meets (P : σ → Prop) (x : Routine σ ε α) (Q : α → σ → Prop) (E : σ → Prop) : Prop :=
  ∀ s, P s → match x.outcome s with
    | (.ok a, t) => Q a t
    | (.error _, t) => E t

/-- `I` holds however `x` ends. -/
def Keeps (I : σ → Prop) (x : Routine σ ε α) : Prop := Meets I x (fun _ => I) I

variable {P P' E I : σ → Prop} {x : Routine σ ε α} {Q Q' : α → σ → Prop}

/-- The second routine goes on where the first one has stopped, unless that failed. -/
theorem outcome_bind (x : Routine σ ε α) (f : α → Routine σ ε β) (s : σ) :
    outcome (x >>= f) s =
      match x.outcome s with
      | (.ok a, t) => (f a).outcome t
      | (.error e, t) => (.error e, t) := by
  change outcome (x >>= f) s = match (StateT.run (ExceptT.run x) s : Except ε α × σ) with
    | (.ok a, t) => (f a).outcome t
    | (.error e, t) => (.error e, t)
  simp only [outcome, ExceptT.run_bind, StateT.run_bind]
  rcases (StateT.run (ExceptT.run x) s : Except ε α × σ) with ⟨r, t⟩
  cases r with
  | ok a => rfl
  | error e => rfl

theorem Meets.pure {a : α} (h : ∀ s, P s → Q a s) : Meets P (pure a : Routine σ ε α) Q E := h

theorem Meets.throw {e : ε} (h : ∀ s, P s → E s) : Meets P (throw e : Routine σ ε α) Q E := h

/-- The rule for a sequence. -/
theorem Meets.bind {f : α → Routine σ ε β} {R : β → σ → Prop} (hx : Meets P x Q E)
    (hf : ∀ a, Meets (Q a) (f a) R E) : Meets P (x >>= f) R E := by
  intro s hs
  have hFirst := hx s hs
  rw [outcome_bind]
  rcases hOut : x.outcome s with ⟨r, t⟩
  rw [hOut] at hFirst
  cases r with
  | ok a => exact hf a t hFirst
  | error e => exact hFirst

theorem Meets.modify {f : σ → σ} {Q : PUnit → σ → Prop} (h : ∀ s, P s → Q ⟨⟩ (f s)) :
    Meets P (modify f : Routine σ ε PUnit) Q E := h

/-- What is read is the state as it is. -/
theorem Meets.get_bind {f : σ → Routine σ ε β} {R : β → σ → Prop}
    (h : ∀ s, Meets (fun t => P t ∧ t = s) (f s) R E) :
    Meets P (get >>= f : Routine σ ε β) R E := by
  intro s hs
  exact h s s ⟨hs, rfl⟩

theorem Meets.weaken (h : Meets P x Q E) (hP : ∀ s, P' s → P s) : Meets P' x Q E :=
  fun s hs => h s (hP s hs)

/-- One of two routines. -/
theorem Meets.ite {c : Prop} [Decidable c] {y : Routine σ ε α} (hx : c → Meets P x Q E)
    (hy : ¬c → Meets P y Q E) : Meets P (if c then x else y) Q E := by
  split
  · next hc => exact hx hc
  · next hc => exact hy hc

/-- What holds after every success and every error holds at the end. -/
theorem Meets.ends (h : Meets P x (fun _ => E) E) {s : σ} (hs : P s) : E (x.outcome s).2 := by
  have hEnd := h s hs
  rcases hOut : x.outcome s with ⟨r, t⟩
  rw [hOut] at hEnd
  cases r with
  | ok a => exact hEnd
  | error e => exact hEnd

theorem Keeps.outcome (h : Keeps I x) {s : σ} (hs : I s) : I (x.outcome s).2 := Meets.ends h hs

/-! ### What a routine comes to, step by step -/

@[simp] theorem outcome_pure (a : α) (s : σ) : (pure a : Routine σ ε α).outcome s = (.ok a, s) := rfl

@[simp] theorem outcome_throw (e : ε) (s : σ) :
    (throw e : Routine σ ε α).outcome s = (.error e, s) := rfl

@[simp] theorem outcome_get (s : σ) : (get : Routine σ ε σ).outcome s = (.ok s, s) := rfl

@[simp] theorem outcome_modify (f : σ → σ) (s : σ) :
    (modify f : Routine σ ε PUnit).outcome s = (.ok ⟨⟩, f s) := rfl

@[simp] theorem outcome_set (s t : σ) : (set t : Routine σ ε PUnit).outcome s = (.ok ⟨⟩, t) := rfl

@[simp] theorem outcome_map (f : α → β) (x : Routine σ ε α) (s : σ) :
    outcome (f <$> x) s = ((x.outcome s).1.map f, (x.outcome s).2) := by
  rw [← bind_pure_comp, outcome_bind]
  rcases x.outcome s with ⟨r, t⟩
  cases r <;> rfl

/-- An answer from outside. -/
def ofAnswer (answer : Except ε α) : Routine σ ε α :=
  match answer with
  | .ok a => pure a
  | .error e => throw e

@[simp] theorem outcome_ofAnswer (answer : Except ε α) (s : σ) :
    (ofAnswer answer : Routine σ ε α).outcome s = (answer, s) := by
  cases answer <;> rfl

theorem Meets.ofAnswer {answer : Except ε α} (hOk : ∀ a s, P s → Q a s) (hError : ∀ s, P s → E s) :
    Meets P (ofAnswer answer : Routine σ ε α) Q E := by
  cases answer with
  | ok a => exact Meets.pure (hOk a)
  | error e => exact Meets.throw hError

/-! ### Two routines side by side -/

/-- Started in related states, both end with the same value or the same error,
in related states. -/
def Alike (R : σ → σ → Prop) (x y : Routine σ ε α) : Prop :=
  ∀ s t, R s t → (x.outcome s).1 = (y.outcome t).1 ∧ R (x.outcome s).2 (y.outcome t).2

variable {R : σ → σ → Prop} {y : Routine σ ε α}

theorem Alike.pure (a : α) : Alike R (pure a : Routine σ ε α) (pure a) := fun _ _ h => ⟨rfl, h⟩

theorem Alike.throw (e : ε) : Alike R (throw e : Routine σ ε α) (throw e) := fun _ _ h => ⟨rfl, h⟩

theorem Alike.ofAnswer (answer : Except ε α) :
    Alike R (ofAnswer answer : Routine σ ε α) (ofAnswer answer) := by
  intro s t h
  rw [outcome_ofAnswer, outcome_ofAnswer]
  exact ⟨rfl, h⟩

theorem Alike.modify {f g : σ → σ} (h : ∀ s t, R s t → R (f s) (g t)) :
    Alike R (modify f : Routine σ ε PUnit) (modify g) := fun s t hst => ⟨rfl, h s t hst⟩

/-- The same for two routines side by side. -/
theorem Alike.bind {f g : α → Routine σ ε β} (hx : Alike R x y) (hf : ∀ a, Alike R (f a) (g a)) :
    Alike R (x >>= f) (y >>= g) := by
  intro s t hst
  obtain ⟨hSame, hRelated⟩ := hx s t hst
  rw [outcome_bind, outcome_bind]
  rcases hX : x.outcome s with ⟨r, s'⟩
  rcases hY : y.outcome t with ⟨r', t'⟩
  rw [hX, hY] at hSame hRelated
  subst hSame
  cases r with
  | ok a => exact hf a s' t' hRelated
  | error e => exact ⟨rfl, hRelated⟩

/-- What is read may differ as far as the relation lets it. -/
theorem Alike.get_bind {f g : σ → Routine σ ε β} (h : ∀ s t, R s t → Alike R (f s) (g t)) :
    Alike R (get >>= f : Routine σ ε β) (get >>= g) := fun s t hst => h s t hst s t hst

theorem Alike.ite {c : Prop} [Decidable c] {x' y' : Routine σ ε α} (hx : Alike R x y)
    (hy : Alike R x' y') : Alike R (if c then x else x') (if c then y else y') := by
  split
  · exact hx
  · exact hy

end Routine
