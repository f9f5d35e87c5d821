import Mathlib.Data.List.Count

/-! A log of timed entries, and how many of them fall into a window of time that
is closed on the left and open on the right. -/
namespace Window

variable {α : Type*} (time : α → Nat) (p : α → Bool)

/-- How many entries of interest lie in the window of the given length. -/
def count (start length : Nat) (log : List α) : Nat :=
  log.countP fun x => p x && decide (start ≤ time x ∧ time x < start + length)

/-- No window of the given length has more than `n`. -/
def Bounded (n length : Nat) (log : List α) : Prop := ∀ start, count time p start length log ≤ n

/-- How many entries of interest are younger than the given age. -/
def recent (now age : Nat) (log : List α) : Nat :=
  log.countP fun x => p x && decide (now - time x < age)

variable {time p}

theorem count_append (start length : Nat) (log log' : List α) :
    count time p start length (log ++ log') =
      count time p start length log + count time p start length log' := List.countP_append

theorem Bounded.initial {n length : Nat} {log log' : List α}
    (h : Bounded time p n length (log ++ log')) : Bounded time p n length log := by
  intro start
  have hAll := h start
  rw [count_append] at hAll
  omega

/-- In a log in order of time, the entries of a window that contains the last
moment are recent. -/
theorem count_le_recent {log : List α} {start length now : Nat} (hWindow : now < start + length) :
    count time p start length log ≤ recent time p now length log := by
  refine List.countP_mono_left fun x _ hx => ?_
  simp only [Bool.and_eq_true, decide_eq_true_eq] at hx ⊢
  exact ⟨hx.1, by omega⟩

/-- The recent entries are those of the window that ends with the last moment. -/
theorem recent_le_count {log : List α} {length now : Nat} (hOld : ∀ x ∈ log, time x ≤ now) :
    recent time p now length log ≤ count time p (now + 1 - length) length log := by
  refine List.countP_mono_left fun x hMem hx => ?_
  have hTime := hOld x hMem
  simp only [Bool.and_eq_true, decide_eq_true_eq] at hx ⊢
  exact ⟨hx.1, by omega⟩

/-- A further entry that is not counted. -/
theorem bounded_skip {n length : Nat} {log : List α} {e : α} (he : p e = false) :
    Bounded time p n length (log ++ [e]) ↔ Bounded time p n length log := by
  refine forall_congr' fun start => ?_
  rw [count_append]
  simp [count, he]

/-- Whether one more entry keeps the bound is decided by the recent ones. -/
theorem bounded_snoc {n length : Nat} {log : List α} {e : α} (he : p e = true)
    (hOld : ∀ x ∈ log, time x ≤ time e) (hLength : 0 < length) :
    Bounded time p n length (log ++ [e]) ↔
      Bounded time p n length log ∧ recent time p (time e) length log < n := by
  have hSingle : ∀ start, count time p start length [e] =
      if start ≤ time e ∧ time e < start + length then 1 else 0 := fun start => by
    simp [count, he]
  constructor
  · intro h
    refine ⟨h.initial, ?_⟩
    have hLast := h (time e + 1 - length)
    have hRecent : recent time p (time e) length log ≤ count time p (time e + 1 - length) length log :=
      recent_le_count hOld
    rw [count_append, hSingle, if_pos (by omega)] at hLast
    omega
  · rintro ⟨hBefore, hFew⟩ start
    rw [count_append, hSingle]
    by_cases hIn : start ≤ time e ∧ time e < start + length
    · have hRecent : count time p start length log ≤ recent time p (time e) length log :=
        count_le_recent hIn.2
      rw [if_pos hIn]
      omega
    · rw [if_neg hIn]
      exact hBefore start

/-- Entries of two kinds are counted apart. -/
theorem recent_split (q : α → Bool) (now age : Nat) (log : List α) :
    recent time p now age log =
      recent time (fun x => p x && q x) now age log + recent time (fun x => p x && !q x) now age log := by
  induction log with
  | nil => rfl
  | cons x rest ih =>
      simp only [recent, List.countP_cons] at ih ⊢
      rw [ih]
      cases p x <;> cases q x <;> simp <;> omega

/-- The recent entries of interest, counted among their times. -/
theorem length_recent (now age : Nat) (log : List α) :
    (((log.filter p).map time).filter fun t => now - t < age).length = recent time p now age log := by
  rw [List.filter_map, List.length_map, List.filter_filter, ← List.countP_eq_length_filter, recent]
  refine List.countP_congr fun x _ => ?_
  simp [and_comm]

/-- Entries that are recent later were recent before. -/
theorem filter_recent {times : List Nat} {now now' age : Nat} (h : now ≤ now')
    (hOld : ∀ t ∈ times, t ≤ now) :
    ((times.filter fun t => now - t < age).filter fun t => now' - t < age) =
      times.filter fun t => now' - t < age := by
  rw [List.filter_filter]
  refine List.filter_congr fun t ht => ?_
  have hTime := hOld t ht
  rw [Bool.eq_iff_iff]
  simp only [Bool.and_eq_true, decide_eq_true_eq]
  omega

end Window
