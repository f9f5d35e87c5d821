import Mathlib.Data.List.AList

/-! A table that gives each owner a list of routes. Assigning a route makes it
the only one of its new owner and takes it from everybody else, so it can lose
routes on both sides. -/
namespace Routes

variable {Owner Route : Type*} [DecidableEq Owner]

abbrev Table (Owner Route : Type*) := AList fun _ : Owner => List Route

/-- The routes of one owner, none for a stranger. -/
def routes (T : Table Owner Route) (k : Owner) : List Route := (T.lookup k).getD []

theorem mem_routes {T : Table Owner Route} {k : Owner} {p : Route} :
    p ∈ routes T k ↔ ∃ ps, ⟨k, ps⟩ ∈ T.entries ∧ p ∈ ps := by
  simp only [← AList.mem_lookup_iff, routes]
  cases T.lookup k with
  | none => simp
  | some ps => simp

theorem routes_erase_self (T : Table Owner Route) (k : Owner) : routes (T.erase k) k = [] := by
  simp [routes]

theorem routes_erase_ne {T : Table Owner Route} {k k' : Owner} (h : k' ≠ k) :
    routes (T.erase k) k' = routes T k' := by
  simp [routes, AList.lookup_erase_ne h]

/-- Nobody has lost a route, but for `p` that `k` may have lost. -/
def Keeps (T T' : Table Owner Route) (k : Owner) (p : Route) : Prop :=
  ∀ k' q, q ∈ routes T k' → (k' = k ∧ q = p) ∨ q ∈ routes T' k'

/-- The route is free for the owner, who has no other. -/
def Free (T : Table Owner Route) (k : Owner) (p : Route) : Prop :=
  (∀ q ∈ routes T k, q = p) ∧ ∀ k', k' ≠ k → p ∉ routes T k'

variable [DecidableEq Route]

/-- Take a route from every owner. -/
def strip (T : Table Owner Route) (p : Route) : Table Owner Route where
  entries := T.entries.map fun e => ⟨e.1, e.2.filter (· ≠ p)⟩
  nodupKeys := by
    have hKeys : (T.entries.map fun e =>
        (⟨e.1, e.2.filter (· ≠ p)⟩ : Sigma fun _ : Owner => List Route)).keys =
        T.entries.keys := by simp [List.keys]
    rw [List.NodupKeys, hKeys]
    exact T.nodupKeys

def assign (T : Table Owner Route) (k : Owner) (p : Route) : Table Owner Route :=
  (strip T p).insert k [p]

/-- Only the one prefix is taken away. -/
theorem mem_strip {T : Table Owner Route} {k : Owner} {p q : Route} :
    q ∈ routes (strip T p) k ↔ q ∈ routes T k ∧ q ≠ p := by
  simp only [mem_routes, strip, List.mem_map]
  constructor
  · rintro ⟨ps, ⟨⟨k', ps'⟩, hEntry, hEq⟩, hq⟩
    cases hEq
    obtain ⟨hq, hNe⟩ := List.mem_filter.mp hq
    exact ⟨⟨ps', hEntry, hq⟩, by simpa using hNe⟩
  · rintro ⟨⟨ps, hEntry, hq⟩, hNe⟩
    exact ⟨ps.filter (· ≠ p), ⟨⟨k, ps⟩, hEntry, rfl⟩, List.mem_filter.mpr ⟨hq, by simpa using hNe⟩⟩

/-- A route has one owner after it is assigned. -/
theorem mem_assign {T : Table Owner Route} {k k' : Owner} {p q : Route} :
    q ∈ routes (assign T k p) k' ↔ if k' = k then q = p else q ∈ routes T k' ∧ q ≠ p := by
  split
  · next hk =>
      subst hk
      simp [routes, assign]
  · next hk =>
      rw [← mem_strip]
      simp [routes, assign, AList.lookup_insert_ne hk]

/-- Assigning a prefix takes no route from another owner exactly where the prefix is
free. -/
theorem keeps_assign_iff {T : Table Owner Route} {k : Owner} {p : Route} :
    Keeps T (assign T k p) k p ↔ Free T k p := by
  constructor
  · intro h
    refine ⟨fun q hq => ?_, fun k' hk hq => ?_⟩
    · rcases h k q hq with hOwn | hStays
      · exact hOwn.2
      · simpa [mem_assign] using hStays
    · rcases h k' p hq with hOwn | hStays
      · exact hk hOwn.1
      · simp [mem_assign, hk] at hStays
  · intro h k' q hq
    by_cases hk : k' = k
    · subst hk
      exact .inl ⟨rfl, h.1 q hq⟩
    · refine .inr (mem_assign.mpr ?_)
      rw [if_neg hk]
      exact ⟨hq, fun hSame => h.2 k' hk (hSame ▸ hq)⟩

/-- Once a free route is assigned, what is free is what was free before and
does not cross it. -/
theorem free_assign_iff {T : Table Owner Route} {k k' : Owner} {p p' : Route} (h : Free T k p) :
    Free (assign T k p) k' p' ↔ Free T k' p' ∧ (k = k' ↔ p = p') := by
  by_cases hk : k' = k
  · subst hk
    constructor
    · rintro ⟨hOwn, hOthers⟩
      obtain rfl : p = p' := hOwn p (mem_assign.mpr (by simp))
      exact ⟨h, by simp⟩
    · rintro ⟨-, hCross⟩
      obtain rfl := hCross.mp rfl
      refine ⟨fun q hq => by simpa [mem_assign] using hq, fun k'' hk'' hq => ?_⟩
      simp [mem_assign, hk''] at hq
  · constructor
    · rintro ⟨hOwn, hOthers⟩
      have hNe : p ≠ p' := by
        rintro rfl
        exact hOthers k (Ne.symm hk) (mem_assign.mpr (by simp))
      refine ⟨⟨fun q hq => ?_, fun k'' hk'' hq => ?_⟩, by simp [hNe, Ne.symm hk]⟩
      · refine hOwn q (mem_assign.mpr ?_)
        rw [if_neg hk]
        exact ⟨hq, fun hSame => h.2 k' hk (hSame ▸ hq)⟩
      · by_cases hk : k'' = k
        · subst hk
          exact hNe (h.1 p' hq).symm
        · refine hOthers k'' hk'' (mem_assign.mpr ?_)
          rw [if_neg hk]
          exact ⟨hq, Ne.symm hNe⟩
    · rintro ⟨⟨hOwn, hOthers⟩, hCross⟩
      have hNe : p ≠ p' := fun hSame => hk (hCross.mpr hSame).symm
      refine ⟨fun q hq => ?_, fun k'' hk'' hq => ?_⟩
      · rw [mem_assign, if_neg hk] at hq
        exact hOwn q hq.1
      · rw [mem_assign] at hq
        split at hq
        · exact hNe hq.symm
        · exact hOthers k'' hk'' hq.1

/-- A series of assignments, each of which keeps what it finds. -/
def Safe : Table Owner Route → List (Owner × Route) → Prop
  | _, [] => True
  | T, (k, p) :: rest => Keeps T (assign T k p) k p ∧ Safe (assign T k p) rest

/-- A series is safe exactly when each route is free in the table it starts from
and no two assignments cross. -/
theorem safe_iff {T : Table Owner Route} {series : List (Owner × Route)} :
    Safe T series ↔ (∀ a ∈ series, Free T a.1 a.2) ∧
      series.Pairwise fun a b => a.1 = b.1 ↔ a.2 = b.2 := by
  induction series generalizing T with
  | nil => simp [Safe]
  | cons a rest ih =>
      obtain ⟨k, p⟩ := a
      rw [Safe, keeps_assign_iff, ih, List.pairwise_cons, List.forall_mem_cons]
      constructor
      · rintro ⟨hFree, hRest, hPairs⟩
        have hSplit := fun b hb => (free_assign_iff hFree).mp (hRest b hb)
        exact ⟨⟨hFree, fun b hb => (hSplit b hb).1⟩, fun b hb => (hSplit b hb).2, hPairs⟩
      · rintro ⟨⟨hFree, hRest⟩, hCross, hPairs⟩
        exact ⟨hFree, fun b hb => (free_assign_iff hFree).mpr ⟨hRest b hb, hCross b hb⟩, hPairs⟩

/-! ### A series of assignments -/

/-- What an assignment leaves, owner by owner. -/
theorem routes_assign (T : Table Owner Route) (k k' : Owner) (p : Route) :
    routes (assign T k p) k' = if k' = k then [p] else (routes T k').filter (· ≠ p) := by
  by_cases hk : k' = k
  · subst hk
    simp [routes, assign]
  · rw [if_neg hk, assign, routes, AList.lookup_insert_ne hk]
    cases hLookup : T.lookup k' with
    | none =>
        have hNone : (strip T p).lookup k' = none := by
          rw [AList.lookup_eq_none] at hLookup ⊢
          simpa [AList.mem_keys, AList.keys, List.keys, strip] using hLookup
        simp [routes, hNone, hLookup]
    | some ps =>
        have hEntry : (⟨k', ps.filter (· ≠ p)⟩ : Sigma fun _ : Owner => List Route) ∈
            (strip T p).entries :=
          List.mem_map.mpr ⟨⟨k', ps⟩, AList.mem_lookup_iff.mp hLookup, rfl⟩
        rw [AList.mem_lookup_iff.mpr hEntry, routes, hLookup]
        rfl

def assignAll (T : Table Owner Route) (series : List (Owner × Route)) : Table Owner Route :=
  series.foldl (fun T a => assign T a.1 a.2) T

theorem assignAll_append (T : Table Owner Route) (series more : List (Owner × Route)) :
    assignAll T (series ++ more) = assignAll (assignAll T series) more :=
  List.foldl_append

/-- No owner and no route occurs twice. -/
def Uncrossed (series : List (Owner × Route)) : Prop :=
  series.Pairwise fun a b => a.1 ≠ b.1 ∧ a.2 ≠ b.2

/-- Whom the series does not name loses the routes that it assigns. -/
theorem routes_assignAll_of_notMem {T : Table Owner Route} {series : List (Owner × Route)}
    {k : Owner} (hk : k ∉ series.map Prod.fst) :
    routes (assignAll T series) k = (routes T k).filter (· ∉ series.map Prod.snd) := by
  induction series generalizing T with
  | nil => simp [assignAll]
  | cons a rest ih =>
      simp only [List.map_cons, List.mem_cons, not_or] at hk
      have hRest := ih (T := assign T a.1 a.2) hk.2
      rw [assignAll, List.foldl_cons, ← assignAll, hRest, routes_assign, if_neg hk.1,
        List.filter_filter]
      refine List.filter_congr fun q _ => ?_
      rw [List.map_cons, ← Bool.decide_and, decide_eq_decide, List.mem_cons, not_or, and_comm]

/-- Whom it names is left with the route that it assigns. -/
theorem routes_assignAll_of_mem {T : Table Owner Route} {series : List (Owner × Route)}
    (h : Uncrossed series) {a : Owner × Route} (ha : a ∈ series) :
    routes (assignAll T series) a.1 = [a.2] := by
  induction series generalizing T with
  | nil => cases ha
  | cons b rest ih =>
      obtain ⟨hFirst, hRest⟩ := List.pairwise_cons.mp h
      rw [assignAll, List.foldl_cons, ← assignAll]
      rcases List.mem_cons.mp ha with rfl | ha
      · have hOwner : a.1 ∉ rest.map Prod.fst := by
          rintro hMem
          obtain ⟨b, hb, hSame⟩ := List.mem_map.mp hMem
          exact (hFirst b hb).1 hSame.symm
        have hRoute : a.2 ∉ rest.map Prod.snd := by
          rintro hMem
          obtain ⟨b, hb, hSame⟩ := List.mem_map.mp hMem
          exact (hFirst b hb).2 hSame.symm
        rw [routes_assignAll_of_notMem hOwner, routes_assign, if_pos rfl, List.filter_cons,
          if_pos (by simpa using hRoute), List.filter_nil]
      · exact ih hRest ha

end Routes
